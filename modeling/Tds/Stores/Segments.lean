import Tds.Persistence.Reader

/-!
# The segment store

A generation is a directory with a manifest that lists segments by the hash of their contents; several
generations may share a segment. `collectUnreferencedSegments` deletes the segments that no generation
lists. The store is read as the regular files below its root, without symbolic links and special files.
-/

namespace Stores

open Python FileSystem Persistence

/-- What is taken from `re`: the characters that `\d` matches. -/
class Digits where
  isDecimal : Nat → Bool

inductive Fault where
  /-- `SegmentIntegrityError`, a subclass of `GenerationIntegrityError`. -/
  | segmentIntegrity (message : Str)
  /-- `GenerationIntegrityError` itself. -/
  | integrity (message : Str)
  /-- `SegmentStoreError` itself. -/
  | segmentStore (message : Str)
  | exception (e : PyException)
deriving DecidableEq

abbrev Checked := Except Fault

/-- `if condition: raise SegmentIntegrityError(message)`. -/
def segmentIf (condition : Prop) [Decidable condition] (message : String) : Checked Unit :=
  if condition then .error (.segmentIntegrity (lit message)) else .ok ()

def plainly {α : Type} (x : Check α) : Checked α := x.mapError .exception

section Identifiers

variable [Digits]

/-- `re.fullmatch(kind + r"(\d{20})-([0-9a-f]{12})", s)`. -/
def matchesId (kind : String) (s : Str) : Bool :=
  match stripWord (lit kind) s with
  | some rest => rest.length = 33 ∧ (rest.take 20).all Digits.isDecimal = true ∧
      rest[20]? = some 45 ∧ (rest.drop 21).all isLowerHex = true
  | none => false

end Identifiers

/-- `_SEGMENT_HASH_RE.fullmatch(s)`. -/
def isDigestText (s : Str) : Bool := s.length = 64 ∧ s.all isLowerHex = true

def maxMetadataDepth : Nat := 32

def maxMetadataNodes : Nat := 10000

/-- Whether a key of a `dict` is a string. -/
def isStr : Value → Bool
  | .str _ => true
  | _ => false

section Metadata

variable [Objects]

/-- The loop of `_validate_metadata_tree`, for the nodes that are still allowed. The top of the
stack comes first. -/
def checkTree (label : Str) : Nat → List (Value × Nat) → Checked Unit
  | _, [] => .ok ()
  | 0, _ :: _ => .error (.integrity (label ++ lit " exceeds maximum node count 10000"))
  | nodes + 1, (item, depth) :: stack =>
    if maxMetadataDepth < depth then
      .error (.integrity (label ++ lit " exceeds maximum nesting depth 32"))
    else
      let below := fun items : List Value =>
        (items.map fun child => (child, depth + 1)).reverse ++ stack
      match item with
      | .none | .bool _ | .int _ | .float _ | .str _ => checkTree label nodes stack
      | .dict items =>
        if (items.map Prod.fst).all isStr = false then
          .error (.integrity (label ++ lit " keys must be strings"))
        else checkTree label nodes (below (items.map Prod.snd))
      | .list items => checkTree label nodes (below items)
      | .tuple items => checkTree label nodes (below items)
      | value =>
        .error (.integrity (label ++ lit " contains unsupported value type " ++ value.typeName))

def validateMetadataTree (value : Value) (label : Str) : Checked Unit :=
  checkTree label maxMetadataNodes [(value, 0)]

end Metadata

/-- `tuple(sorted(set(names)))`. -/
def sortedSet (names : List Str) : List Str := names.dedup.insertionSort (· ≤ ·)

def missingFields (fields : Items) (required : List String) : List Str :=
  ((required.filter fun key => (field fields key).isNone).map lit).insertionSort (· ≤ ·)

def asText : Value → Option Str
  | .str s => some s
  | _ => none

/-- The value if it is an `int` and not a `bool`. -/
def plainInt : Value → Option Int
  | .int i => some i
  | _ => none

/-! ## Generations of segments -/

/-- A segment by its hash and size. -/
structure SegmentReference where
  sha256 : Str
  size : Int
deriving DecidableEq

/-- `SegmentGenerationInfo`, without the counts and the path that follow from the rest. -/
structure SegmentGenerationInfo where
  generationId : Str
  parentGeneration : Option Str
  createdNs : Int
  logicalSize : Int
  logicalSha256 : Str
  manifestSha256 : Str
  segments : List SegmentReference
  applicationMetadata : Items

/-- The files of an `ImmutableSegmentStore` that a collection reads. -/
structure SegmentStore where
  /-- The directories of `segment-generations`, each with its manifest if there is one. -/
  generations : PyDict Str (Option Bytes)
  /-- The regular files of the directories of `segments`, by directory and name. -/
  segments : PyDict (Str × Str) Bytes
  /-- Whether `.segment-mutation.lock` is there. -/
  locked : Bool

/-- `SCHEMA`. -/
def segmentSchema : String := "tds.segment-generation.v1"

def maxSegmentBytes : Nat := 16777216

def maxManifestBytes : Nat := 16777216

def maxSegmentsPerGeneration : Nat := 1000000

/-- `_segment_path`, for a digest that was checked. -/
def segmentPath (digest : Str) : Str × Str := (digest.take 2, digest ++ lit ".seg")

/-- `name[:-len(".seg")] if name.endswith(".seg") else ""`. -/
def digestOfName (name : Str) : Str :=
  if lit ".seg" <:+ name then name.take (name.length - 4) else []

/-! ## Manifests -/

/-- The segments that a generation is made of. -/
structure SegmentManifest where
  parentGeneration : Option Str
  createdNs : Int
  segmentBytes : Int
  logicalSize : Int
  logicalSha256 : Str
  applicationMetadata : Items
  references : List Value

def manifestFields : List String :=
  ["schema", "generation_id", "parent_generation", "created_ns", "segment_bytes", "logical_size",
    "logical_sha256", "segments", "application_metadata"]

section Manifests

variable [Objects]

/-- `loads_strict(raw, expected_type=dict)`. -/
def loadsDict (raw : Bytes) : Check Items :=
  match Objects.jsonLoads raw with
  | .ok (.dict fields) => .ok fields
  | .ok value => raise .typeError (lit "JSON payload expected dict, got " ++ value.typeName)
  | .error e => .error e

def loadManifest (raw : Bytes) : Checked Items := do
  segmentIf (maxManifestBytes < raw.length) "segment manifest exceeds size budget"
  let fields ← (loadsDict raw).mapError fun e =>
    .segmentIntegrity (lit "segment manifest is invalid: " ++ e.message)
  let canonical ← plainly (Objects.jsonDumps (.dict fields))
  segmentIf (raw ≠ canonical) "segment manifest is not canonical or was modified"
  validateMetadataTree (.dict fields) (lit "segment manifest")
  return fields

/-- The field names of the manifest are the nine of the schema. -/
def checkManifestFields (fields : Items) : Checked Unit :=
  let missing := missingFields fields manifestFields
  let unexpected := (fields.filterMap fun item => asText item.1).filter fun key =>
    !manifestFields.any fun name => key = lit name
  if missing = [] ∧ unexpected = [] then .ok ()
  else
    let shown := fun (name : String) (texts : List Str) =>
      if texts = [] then []
      else [lit name ++ Objects.reprOf (.list ((texts.insertionSort (· ≤ ·)).map .str))]
    .error (.segmentIntegrity (lit "invalid segment manifest fields: " ++
      List.intercalate (lit ", ") (shown "missing=" missing ++ shown "unexpected=" unexpected)))

variable [Digits]

def parentOf (value : Option Value) : Checked (Option Str) :=
  match value with
  | some .none => .ok none
  | some (.str s) => do
    segmentIf (matchesId "sgen-" s = false) "invalid parent segment generation"
    return some s
  | _ => .error (.segmentIntegrity (lit "invalid parent segment generation"))

/-- A field that is an `int` within bounds. -/
def intField (value : Option Value) (minimum : Int) (maximum : Option Int) (message : String) :
    Checked Int :=
  match value.bind plainInt with
  | some i => do
    segmentIf (i < minimum ∨ maximum.any (· < i) = true) message
    return i
  | none => .error (.segmentIntegrity (lit message))

/-- The part of `verify` that looks at the manifest alone. -/
def readManifest (id : Str) (raw : Bytes) : Checked SegmentManifest := do
  let fields ← loadManifest raw
  checkManifestFields fields
  segmentIf ((field fields "schema").any (isText · segmentSchema) = false)
    "unsupported segment generation schema"
  segmentIf ((field fields "generation_id").bind asText ≠ some id)
    "segment generation identity mismatch"
  let parent ← parentOf (field fields "parent_generation")
  let createdNs ← intField (field fields "created_ns") 0 none
    "invalid segment generation creation time"
  let segmentBytes ← intField (field fields "segment_bytes") 1 (some maxSegmentBytes)
    "invalid segment size policy"
  let logicalSize ← intField (field fields "logical_size") 0 none
    "invalid segment generation logical size"
  match field fields "logical_sha256", field fields "application_metadata",
    field fields "segments" with
  | some (.str digest), some (.dict metadata), some (.list references) => do
    segmentIf (isDigestText digest = false) "invalid segment generation logical checksum"
    segmentIf (references = [] ∨ maxSegmentsPerGeneration < references.length)
      "invalid segment reference inventory"
    return ⟨parent, createdNs, segmentBytes, logicalSize, digest, metadata, references⟩
  | some (.str digest), some (.dict _), _ => do
    segmentIf (isDigestText digest = false) "invalid segment generation logical checksum"
    .error (.segmentIntegrity (lit "invalid segment reference inventory"))
  | some (.str digest), _, _ => do
    segmentIf (isDigestText digest = false) "invalid segment generation logical checksum"
    .error (.segmentIntegrity (lit "invalid segment application metadata"))
  | _, _, _ => .error (.segmentIntegrity (lit "invalid segment generation logical checksum"))

end Manifests

section Verification

variable [Runtime] [Objects] [Digits]

def hexdigest (data : Bytes) : Str := (sha256 data).hex

/-- `_verify_segment_file`, for a digest that was checked. It yields what the file holds. -/
def verifySegmentFile (segments : PyDict (Str × Str) Bytes) (ref : SegmentReference) :
    Checked Bytes :=
  match segments.get (segmentPath ref.sha256) with
  | none => .error (.segmentIntegrity (lit "segment is missing: " ++ ref.sha256))
  | some data =>
    if (data.length : Int) ≠ ref.size then
      .error (.segmentIntegrity (lit "segment size mismatch: " ++ ref.sha256))
    else if hexdigest data ≠ ref.sha256 then
      .error (.segmentIntegrity (lit "segment checksum mismatch: " ++ ref.sha256))
    else .ok data

/-- One item of the `segments` of a manifest. -/
def readReference (segmentBytes : Int) (item : Value) : Checked SegmentReference :=
  match item with
  | .dict items =>
    match field items "sha256", field items "size" with
    | some digest, some size => do
      segmentIf (items.length ≠ 2) "invalid segment reference"
      match digest with
      | .str digest => do
        segmentIf (isDigestText digest = false) "invalid segment reference digest"
        let size ← intField (some size) 0 (some segmentBytes) "invalid segment reference size"
        return ⟨digest, size⟩
      | _ => .error (.segmentIntegrity (lit "invalid segment reference digest"))
    | _, _ => .error (.segmentIntegrity (lit "invalid segment reference"))
  | _ => .error (.segmentIntegrity (lit "invalid segment reference"))

/-- The loop of `verify` over the items of `segments`: the references, and what their files hold. -/
def verifyReferences (segments : PyDict (Str × Str) Bytes) (segmentBytes : Int) :
    List Value → Checked (List SegmentReference × Bytes)
  | [] => .ok ([], [])
  | item :: items => do
    let ref ← readReference segmentBytes item
    let data ← verifySegmentFile segments ref
    let (refs, rest) ← verifyReferences segments segmentBytes items
    return (ref :: refs, data ++ rest)

namespace SegmentStore

/-- The manifest of a generation, once its directory is found to be complete. -/
def manifestBytes (st : SegmentStore) (id : Str) : Checked Bytes := do
  segmentIf (matchesId "sgen-" id = false) "invalid segment generation identifier"
  match st.generations.get id with
  | some (some raw) => return raw
  | _ => .error (.segmentIntegrity (lit "segment generation " ++ id ++ lit " is incomplete"))

/-- A generation whose segments are all intact. -/
def verify (st : SegmentStore) (id : Str) : Checked SegmentGenerationInfo := do
  let raw ← st.manifestBytes id
  let manifest ← readManifest id raw
  let (refs, data) ← verifyReferences st.segments manifest.segmentBytes manifest.references
  segmentIf ((refs.map SegmentReference.size).sum ≠ manifest.logicalSize)
    "segment generation logical size mismatch"
  segmentIf (hexdigest data ≠ manifest.logicalSha256)
    "segment generation logical checksum mismatch"
  return {
    generationId := id
    parentGeneration := manifest.parentGeneration
    createdNs := manifest.createdNs
    logicalSize := (refs.map SegmentReference.size).sum
    logicalSha256 := hexdigest data
    manifestSha256 := hexdigest raw
    segments := refs
    applicationMetadata := manifest.applicationMetadata }

/-- The ids of generations, the greatest first. -/
def generationIds (st : SegmentStore) : List Str :=
  ((st.generations.keys.filter (matchesId "sgen-")).insertionSort (· ≤ ·)).reverse

/-! ## References -/

/-- The digests that a generation refers to: `{ref.sha256 for ref in info.segments}`. -/
def digests (info : SegmentGenerationInfo) : List Str :=
  (info.segments.map SegmentReference.sha256).dedup

/-- `counts[digest] = counts.get(digest, 0) + 1`. -/
def countDigest (counts : PyDict Str Nat) (digest : Str) : PyDict Str Nat :=
  counts.set digest ((counts.get digest).getD 0 + 1)

/-- The loop of `_reference_scan`. Only a `SegmentIntegrityError` makes a generation invalid; any
other error ends the scan. -/
def scanGenerations (st : SegmentStore) :
    List Str → PyDict Str Nat → List Str → Checked (PyDict Str Nat × List Str)
  | [], counts, invalid => .ok (counts, invalid)
  | id :: ids, counts, invalid =>
    match st.verify id with
    | .ok info => scanGenerations st ids ((digests info).foldl countDigest counts) invalid
    | .error (.segmentIntegrity _) => scanGenerations st ids counts (invalid ++ [id])
    | .error e => .error e

/-- How often each segment is referenced. -/
def referenceScan (st : SegmentStore) : Checked (PyDict Str Nat × List Str) := do
  let (counts, invalid) ← st.scanGenerations st.generationIds [] []
  return (sortByKey counts, invalid.insertionSort (· ≤ ·))

/-- All generations can be verified. -/
def AllValid (st : SegmentStore) : Prop := ∀ id ∈ st.generationIds, ∃ info, st.verify id = .ok info

/-- A generation that is intact needs the segment. -/
def References (st : SegmentStore) (digest : Str) : Prop :=
  ∃ id info, st.verify id = .ok info ∧ digest ∈ info.segments.map SegmentReference.sha256

/-! ## The mutation lock -/

/-- What a mutation does while it holds the lock; the lock is given back on every way out. -/
def withLock {α : Type} (st : SegmentStore) (body : SegmentStore → Checked α × SegmentStore) :
    Checked α × SegmentStore :=
  if st.locked then (.error (.segmentStore (lit "segment mutation lock is already held")), st)
  else
    let (result, after) := body { st with locked := true }
    (result, { after with locked := false })

/-! ## Garbage collection -/

structure Candidate where
  digest : Str
  path : Str × Str
  size : Nat

/-- `SegmentGCReport`. -/
structure GCReport where
  referencedSegments : Nat
  removedSegments : List Str
  removedBytes : Nat
  retainedUnreferenced : List Str
  dryRun : Bool
  candidateSegments : List Str
  invalidGenerations : List Str
  changedCandidates : List Str
  blocked : Bool

def segmentDigest (path : Str × Str) : Option Str :=
  if isDigestText (digestOfName path.2) then some (digestOfName path.2) else none

/-- The stored segments that were not counted. -/
def candidates (st : SegmentStore) (counts : PyDict Str Nat) : List Candidate :=
  st.segments.keys.filterMap fun path =>
    match segmentDigest path, st.segments.get path with
    | some digest, some data =>
      if (counts.get digest).isSome then none else some ⟨digest, path, data.length⟩
    | _, _ => none

/-- What is known of a segment before it is removed. -/
inductive Reach where
  /-- There are invalid generations, so nothing is proved. -/
  | invalid (ids : List Str)
  | referenced
  | unreferenced

def reach (st : SegmentStore) (digest : Str) : Checked Reach := do
  let (counts, invalid) ← st.referenceScan
  if invalid ≠ [] then return .invalid invalid
  else if (counts.get digest).isSome then return .referenced
  else return .unreferenced

/-- A segment without references is looked for twice. -/
def confirmReach (st : SegmentStore) (digest : Str) : Checked Reach := do
  match ← st.reach digest with
  | .unreferenced => st.reach digest
  | other => return other

/-- The collection so far. -/
structure Sweep where
  store : SegmentStore
  removed : List Str := []
  removedBytes : Nat := 0
  retained : List Str := []
  changed : List Str := []
  invalid : List Str := []
  blocked : Bool := false

/-- The end of one round of the loop: the file is deleted unless it is gone or has changed. -/
def Sweep.delete (s : Sweep) (c : Candidate) : Sweep :=
  match s.store.segments.get c.path with
  | some data =>
    if data.length ≠ c.size then { s with changed := s.changed ++ [c.digest] }
    else
      { s with
        store := { s.store with segments := s.store.segments.pop c.path }
        removed := s.removed ++ [c.digest]
        removedBytes := s.removedBytes + c.size }
  | none => { s with changed := s.changed ++ [c.digest] }

/-- The deletion loop over the rest of `removable`. -/
def sweep (removable : List Candidate) : List Candidate → Sweep → Checked Sweep × SegmentStore
  | [], s => (.ok s, s.store)
  | c :: rest, s =>
    match s.store.confirmReach c.digest with
    | .error e => (.error e, s.store)
    | .ok (.invalid ids) =>
      (.ok { s with
        invalid := ids
        blocked := true
        retained := s.retained ++
          (removable.map Candidate.digest).filter fun digest => digest ∉ s.removed }, s.store)
    | .ok .referenced => sweep removable rest { s with retained := s.retained ++ [c.digest] }
    | .ok .unreferenced => sweep removable rest (s.delete c)

def report (referenced : Nat) (dryRun : Bool) (found : List Candidate) (s : Sweep) : GCReport where
  referencedSegments := referenced
  removedSegments := sortedSet s.removed
  removedBytes := s.removedBytes
  retainedUnreferenced := sortedSet s.retained
  dryRun := dryRun
  candidateSegments := (found.map Candidate.digest).insertionSort (· ≤ ·)
  invalidGenerations := sortedSet s.invalid
  changedCandidates := sortedSet s.changed
  blocked := s.blocked

/-- `_collect_unreferenced_segments_locked`. -/
def collectLocked (dryRun : Bool) (st : SegmentStore) : Checked GCReport × SegmentStore :=
  match st.referenceScan with
  | .error e => (.error e, st)
  | .ok (counts, invalid) =>
    let found := st.candidates counts
    if dryRun ∨ invalid ≠ [] then
      (.ok (report counts.length dryRun found
        { store := st, retained := found.map Candidate.digest, invalid := invalid,
          blocked := invalid ≠ [] }), st)
    else
      let (result, after) := sweep found found { store := st }
      (result.map (report counts.length dryRun found), after)

/-- Removes what no generation needs, unless `dryRun`. -/
def collectUnreferencedSegments (st : SegmentStore) (dryRun : Bool) :
    Checked GCReport × SegmentStore :=
  st.withLock (collectLocked dryRun)

end SegmentStore

end Verification

end Stores
