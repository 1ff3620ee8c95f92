import Tds.Python.Json

/-!
# The Generation Authority contract

The records of `generation_contract.py`. A record that Python validates in `__post_init__` is a
structure whose fields or field types carry what was validated; `init` is its constructor, with the
checks of `__init__` and `__post_init__` in the order of the source, on arbitrary Python values.
`canonicalDict` is written in the order of the source; the encoder sorts the keys.
-/

namespace Generation

open Python

/-! ## Faults and exceptions -/

/-- `GenerationFault`, without the member `NONE` that no exception carries. -/
inductive GenerationFault where
  | invalidInput
  | boundExceeded
  | identityMismatch
  | incompleteGeneration
  | noncanonical
  | integrityFailure
  | publicationConflict
  | ioFailure
  | recoveryFailure
  | authorityRejected
deriving DecidableEq

/-- The builtin exceptions that reading a document may raise. -/
inductive BuiltinError where
  | valueError
  | typeError
  | keyError
  | recursionError
  | unicodeEncodeError
deriving DecidableEq

/-- What the contract and the store raise. -/
inductive Error where
  /-- `GenerationContractError`. -/
  | contract (message : Str) (fault : GenerationFault)
  /-- `GenerationStoreError`. -/
  | store (message : Str) (fault : GenerationFault)
  /-- `GenerationPublicationConflict`, a `GenerationStoreError`. -/
  | conflict (message : Str)
  /-- An exception of the interpreter. -/
  | builtin (error : BuiltinError)
  /-- Whatever a caller's `failure_injector` raises. -/
  | injected (message : Str)
deriving DecidableEq

abbrev Check := Except Error

/-- `GenerationContractError(message)`. -/
def contractError (message : String) : Error := .contract (lit message) .invalidInput

/-- `GenerationContractError(message, fault=fault)`. -/
def contractFault (message : String) (fault : GenerationFault) : Error :=
  .contract (lit message) fault

/-- `if condition: raise error`. -/
def raiseIf (condition : Prop) [Decidable condition] (error : Error) : Check Unit :=
  if condition then .error error else .ok ()

/-! ## Names, roots and bounded integers -/

/-- An ASCII letter or digit. -/
def isNameStart (c : Nat) : Bool :=
  isDigit c || (65 ≤ c && c ≤ 90) || (97 ≤ c && c ≤ 122)

/-- The characters of a name: letters, digits, `.`, `_`, `:`, `/` and `-`. -/
def isNameChar (c : Nat) : Bool :=
  isNameStart c || c == 46 || c == 95 || c == 58 || c == 47 || c == 45

/-- `_NAME_RE.fullmatch`: a first character and at most 190 others. -/
def isName : Str → Bool
  | [] => false
  | c :: t => isNameStart c && t.all isNameChar && t.length ≤ 190

/-- A string that `_require_name` accepts. -/
abbrev Name := { s : Str // isName s = true }

/-- A canonical root `sha256:<hex>`, by its digest. -/
abbrev Root := Digest

def rootText (root : Root) : Str := lit "sha256:" ++ root.hex

/-- `_ROOT_RE.fullmatch`: `sha256:[0-9a-f]{64}`. -/
def parseRoot (s : Str) : Option Root := do
  let hex ← stripWord (lit "sha256:") s
  let bytes ← bytesOfHex hex
  if h : bytes.length = 32 then some ⟨bytes, h⟩ else none

/-- An integer that `_require_int` accepts. -/
abbrev Bounded (minimum maximum : Nat) := { n : Nat // minimum ≤ n ∧ n ≤ maximum }

def uint63Max : Nat := 2 ^ 63 - 1

/-- An integer within bounds; a `bool` is none. -/
def requireInt (name : String) (value : Json) (minimum maximum : Nat) :
    Check (Bounded minimum maximum) :=
  match value with
  | .int i =>
    if h : (minimum : Int) ≤ i ∧ i ≤ maximum then .ok ⟨i.toNat, by omega⟩
    else .error (.contract (lit name ++ lit " must be between " ++ printNat minimum ++ lit " and "
      ++ printNat maximum) .boundExceeded)
  | _ => .error (.contract (lit name ++ lit " must be an integer") .invalidInput)

/-- A text that is a canonical name. -/
def requireName (name : String) (value : Json) : Check Name :=
  match value with
  | .str s =>
    if h : isName s = true then .ok ⟨s, h⟩
    else .error (.contract (lit name ++ lit " is not canonical") .invalidInput)
  | _ => .error (.contract (lit name ++ lit " is not canonical") .invalidInput)

/-- A text `sha256:<hex>`. -/
def requireRoot (name : String) (value : Json) : Check Root :=
  match value with
  | .str s =>
    match parseRoot s with
    | some root => .ok root
    | none => .error (.contract (lit name ++ lit " must be a canonical sha256 root")
        .identityMismatch)
  | _ => .error (.contract (lit name ++ lit " must be a canonical sha256 root") .identityMismatch)

/-- `require_root(..., optional=True)`. -/
def requireOptionalRoot (name : String) (value : Json) : Check (Option Root) :=
  match value with
  | .null => .ok none
  | value => (requireRoot name value).map some

def rootJson (root : Root) : Json := .str (rootText root)

/-- A root or `None` as a Python value. -/
def optionalRootJson : Option Root → Json
  | some root => rootJson root
  | none => .null

/-- An `int` as a Python value. -/
def natJson (n : Nat) : Json := .int n

/-! ## Canonical encoding and roots -/

/-- A Python `dict` with string keys. -/
abbrev Dict := List (Str × Json)

/-- `set(value) == expected`. -/
def sameKeys (value : Dict) (expected : List String) : Bool :=
  value.all (fun kv => (expected.map lit).contains kv.1) &&
    expected.all (fun k => (value.map Prod.fst).contains (lit k))

/-- `value[key]`. -/
def getItem (value : Dict) (key : String) : Check Json :=
  match dictGet value (lit key) with
  | some v => .ok v
  | none => .error (.builtin .keyError)

section Roots

variable [Runtime]

/-- `canonical_json_bytes` of a value without floats. -/
def canonicalBytes (value : Json) : Bytes := encodeAscii value.print

/-- `canonical_json_bytes`: `allow_nan=False` raises a `ValueError`. -/
def canonicalJsonBytes (value : Json) : Check Bytes :=
  if value.isFinite then .ok (canonicalBytes value) else .error (.builtin .valueError)

/-- `_DOMAIN`. -/
def domainBytes : Bytes :=
  encodeAscii (lit "STAQTAPP-TDS") ++ [0] ++ encodeAscii (lit "GENERATION-AUTHORITY") ++ [0] ++
    encodeAscii (lit "V1") ++ [0]

/-- What `canonical_root_bytes` hashes. -/
def rootPreimage (domain : String) (encoded : Bytes) : Bytes :=
  domainBytes ++ encodeAscii (lit domain) ++ [0] ++ encoded

/-- `canonical_root_bytes`, for the domains of the source, which are all canonical names. -/
def canonicalRootBytes (domain : String) (encoded : Bytes) : Root :=
  sha256 (rootPreimage domain encoded)

def canonicalRoot (domain : String) (value : Json) : Root :=
  canonicalRootBytes domain (canonicalBytes value)

def bytesRoot (data : Bytes) : Root := sha256 data

end Roots

def generationContractId : Str := lit "tds-generation-authority-v1"

def generationFormatVersion : Nat := 1

/-- A `contract_id` that is not the expected one is refused. -/
def checkContractId (value : Json) (message : String) : Check Unit :=
  match value with
  | .str contract => raiseIf (contract ≠ generationContractId) (contractError message)
  | _ => .error (contractError message)

/-! ## Limits -/

/-- Bounds for generations, each in its own range. -/
structure QualifiedGenerationLimits where
  maxPayloads : Bounded 1 (2 ^ 20)
  maxPayloadBytes : Bounded 1 uint63Max
  maxSinglePayloadBytes : Bounded 1 uint63Max
  maxQualificationRoots : Bounded 0 (2 ^ 20)
  maxMetadataEntries : Bounded 0 (2 ^ 20)
  maxManifestBytes : Bounded 1024 (2 ^ 30)
  maxPublicationRecords : Bounded 1 uint63Max
  maxReaderPins : Bounded 1 (2 ^ 30)
  /-- A single payload is bounded by all of them. -/
  single_le : maxSinglePayloadBytes.val ≤ maxPayloadBytes.val
deriving DecidableEq

namespace QualifiedGenerationLimits

def init (maxPayloads maxPayloadBytes maxSinglePayloadBytes maxQualificationRoots
    maxMetadataEntries maxManifestBytes maxPublicationRecords maxReaderPins : Json) :
    Check QualifiedGenerationLimits := do
  let payloads ← requireInt "max_payloads" maxPayloads 1 (2 ^ 20)
  let payloadBytes ← requireInt "max_payload_bytes" maxPayloadBytes 1 uint63Max
  let single ← requireInt "max_single_payload_bytes" maxSinglePayloadBytes 1 payloadBytes.val
  let qualifications ← requireInt "max_qualification_roots" maxQualificationRoots 0 (2 ^ 20)
  let metadata ← requireInt "max_metadata_entries" maxMetadataEntries 0 (2 ^ 20)
  let manifestBytes ← requireInt "max_manifest_bytes" maxManifestBytes 1024 (2 ^ 30)
  let records ← requireInt "max_publication_records" maxPublicationRecords 1 uint63Max
  let pins ← requireInt "max_reader_pins" maxReaderPins 1 (2 ^ 30)
  return ⟨payloads, payloadBytes, ⟨single.val, single.2.1, single.2.2.trans payloadBytes.2.2⟩,
    qualifications, metadata, manifestBytes, records, pins, single.2.2⟩

def defaults : Dict :=
  [(lit "max_payloads", natJson 4096), (lit "max_payload_bytes", natJson (2 ^ 34)),
    (lit "max_single_payload_bytes", natJson (2 ^ 32)),
    (lit "max_qualification_roots", natJson 256), (lit "max_metadata_entries", natJson 128),
    (lit "max_manifest_bytes", natJson (8 * 2 ^ 20)),
    (lit "max_publication_records", natJson (2 ^ 31)), (lit "max_reader_pins", natJson (2 ^ 20))]

/-- `DEFAULT_GENERATION_LIMITS`. -/
def default : QualifiedGenerationLimits :=
  ⟨⟨4096, by decide⟩, ⟨2 ^ 34, by decide⟩, ⟨2 ^ 32, by decide⟩, ⟨256, by decide⟩,
    ⟨128, by decide⟩, ⟨8 * 2 ^ 20, by decide⟩, ⟨2 ^ 31, by decide⟩, ⟨2 ^ 20, by decide⟩, by decide⟩

/-- `asdict(self)`. -/
def canonicalDict (limits : QualifiedGenerationLimits) : Dict :=
  [(lit "max_payloads", natJson limits.maxPayloads),
    (lit "max_payload_bytes", natJson limits.maxPayloadBytes),
    (lit "max_single_payload_bytes", natJson limits.maxSinglePayloadBytes),
    (lit "max_qualification_roots", natJson limits.maxQualificationRoots),
    (lit "max_metadata_entries", natJson limits.maxMetadataEntries),
    (lit "max_manifest_bytes", natJson limits.maxManifestBytes),
    (lit "max_publication_records", natJson limits.maxPublicationRecords),
    (lit "max_reader_pins", natJson limits.maxReaderPins)]

/-- `QualifiedGenerationLimits(**value)`: an unknown keyword is a `TypeError`, an absent one takes
the default. -/
def ofKeywords (value : Dict) : Check QualifiedGenerationLimits :=
  let argument (key : String) : Json :=
    ((dictGet value (lit key)).orElse fun _ => dictGet defaults (lit key)).getD .null
  if value.all (fun kv => (defaults.map Prod.fst).contains kv.1) then
    init (argument "max_payloads") (argument "max_payload_bytes")
      (argument "max_single_payload_bytes") (argument "max_qualification_roots")
      (argument "max_metadata_entries") (argument "max_manifest_bytes")
      (argument "max_publication_records") (argument "max_reader_pins")
  else .error (.builtin .typeError)

end QualifiedGenerationLimits

/-! ## Payloads and qualifications -/

/-- The name, size and content of a payload. -/
structure GenerationPayload where
  name : Name
  mediaType : Name
  size : Bounded 0 uint63Max
  contentRoot : Root
  authoritative : Bool
deriving DecidableEq

/-- A value whose members are read as those of a `dict`: `set(value) != expected` and `value[key]`
fail in their own ways when it is something else. -/
def requireDict (value : Json) (expected : List String) (message : String) : Check Dict :=
  match value with
  | .obj fields => if sameKeys fields expected then .ok fields else .error (contractError message)
  | .str _ => .error (contractError message)
  | .arr items =>
    -- `set(value)` of a list holds its items; a list that spells the keys fails at `value[key]`
    if items.all fun | .arr _ => false | .obj _ => false | _ => true then
      if expected.all (fun k => items.any fun | .str s => s == lit k | _ => false) &&
          items.all (fun | .str s => (expected.map lit).contains s | _ => false) then
        .error (.builtin .typeError)
      else .error (contractError message)
    else .error (.builtin .typeError)
  | _ => .error (.builtin .typeError)

namespace GenerationPayload

def init (name mediaType size contentRoot authoritative : Json) : Check GenerationPayload := do
  let name ← requireName "payload name" name
  let mediaType ← requireName "payload media_type" mediaType
  let size ← requireInt "payload size" size 0 uint63Max
  let contentRoot ← requireRoot "payload content_root" contentRoot
  match authoritative with
  | .bool authoritative => return ⟨name, mediaType, size, contentRoot, authoritative⟩
  | _ => .error (contractError "payload authoritative must be boolean")

/-- `asdict(self)`. -/
def canonicalDict (payload : GenerationPayload) : Dict :=
  [(lit "name", .str payload.name), (lit "media_type", .str payload.mediaType),
    (lit "size", natJson payload.size), (lit "content_root", rootJson payload.contentRoot),
    (lit "authoritative", .bool payload.authoritative)]

def payloadRoot [Runtime] (payload : GenerationPayload) : Root :=
  canonicalRoot "payload-identity" (.obj payload.canonicalDict)

def fromDict (value : Json) : Check GenerationPayload := do
  let value ← requireDict value ["name", "media_type", "size", "content_root", "authoritative"]
    "payload fields are not canonical"
  init (← getItem value "name") (← getItem value "media_type") (← getItem value "size")
    (← getItem value "content_root") (← getItem value "authoritative")

end GenerationPayload

/-- Evidence that a generation was qualified. -/
structure QualificationRoot where
  name : Name
  evidenceRoot : Root
deriving DecidableEq

namespace QualificationRoot

def init (name evidenceRoot : Json) : Check QualificationRoot := do
  let name ← requireName "qualification name" name
  let evidenceRoot ← requireRoot "qualification evidence_root" evidenceRoot
  return ⟨name, evidenceRoot⟩

/-- `asdict(self)`. -/
def canonicalDict (qualification : QualificationRoot) : Dict :=
  [(lit "name", .str qualification.name),
    (lit "evidence_root", rootJson qualification.evidenceRoot)]

def qualificationRoot [Runtime] (qualification : QualificationRoot) : Root :=
  canonicalRoot "qualification" (.obj qualification.canonicalDict)

def fromDict (value : Json) : Check QualificationRoot := do
  let value ← requireDict value ["name", "evidence_root"] "qualification fields are not canonical"
  init (← getItem value "name") (← getItem value "evidence_root")

end QualificationRoot

/-! ## Manifests -/

/-- The fields of a `GenerationManifest`; its version and contract are constants. -/
structure ManifestFields where
  nameSpace : Name
  parentGenerationRoot : Option Root
  payloads : List GenerationPayload
  qualifications : List QualificationRoot
  metadata : List (Name × Str)
  limits : QualifiedGenerationLimits
deriving DecidableEq

/-- The loop over consecutive names: they must be sorted and distinct. -/
def checkNames (unsorted duplicate : String) : List Str → Check Unit
  | [] => .ok ()
  | [_] => .ok ()
  | previous :: name :: names =>
    if name < previous then .error (contractFault unsorted .noncanonical)
    else if name = previous then .error (contractError duplicate)
    else checkNames unsorted duplicate (name :: names)

/-- The loop over consecutive metadata entries, which are compared as pairs. -/
def checkMetadataOrder : List (Name × Str) → Check Unit
  | [] => .ok ()
  | [_] => .ok ()
  | previous :: entry :: entries =>
    if entry.1.val < previous.1.val ∨ (entry.1.val = previous.1.val ∧ entry.2 < previous.2) then
      .error (contractFault "metadata must be sorted and unique" .noncanonical)
    else if entry.1 = previous.1 then .error (contractError "duplicate metadata key")
    else checkMetadataOrder (entry :: entries)

/-- The checks of one metadata value: `encode` raises for a surrogate. -/
def checkMetadataValue (value : Str) : Check Unit :=
  if value = [] ∨ value ≠ strip value then .error (contractError "metadata value is not canonical")
  else match encodeUtf8 value with
    | none => .error (.builtin .unicodeEncodeError)
    | some bytes =>
      if 4096 < bytes.length then .error (contractError "metadata value is not canonical") else .ok ()

/-- Neither a payload nor all of them are too long. -/
def checkSizes (limits : QualifiedGenerationLimits) : Nat → List GenerationPayload → Check Unit
  | _, [] => .ok ()
  | total, payload :: payloads =>
    if limits.maxSinglePayloadBytes.val < payload.size.val then
      .error (contractFault "single payload exceeds qualified limit" .boundExceeded)
    else if (limits.maxPayloadBytes.val : Int) - payload.size.val < total then
      .error (contractFault "payload bytes exceed qualified limit" .boundExceeded)
    else checkSizes limits (total + payload.size.val) payloads

namespace ManifestFields

def canonicalDict (manifest : ManifestFields) : Dict :=
  [(lit "contract_id", .str generationContractId),
    (lit "format_version", natJson generationFormatVersion),
    (lit "namespace", .str manifest.nameSpace),
    (lit "parent_generation_root", optionalRootJson manifest.parentGenerationRoot),
    (lit "payloads", .arr (manifest.payloads.map fun item => .obj item.canonicalDict)),
    (lit "qualifications", .arr (manifest.qualifications.map fun item => .obj item.canonicalDict)),
    (lit "metadata", .arr (manifest.metadata.map fun entry => .arr [.str entry.1, .str entry.2])),
    (lit "limits", .obj manifest.limits.canonicalDict)]

section Encoding

variable [Runtime]

/-- `canonical_bytes`. -/
def encode (manifest : ManifestFields) : Bytes := canonicalBytes (.obj manifest.canonicalDict)

def manifestRoot (manifest : ManifestFields) : Root :=
  canonicalRootBytes "manifest" manifest.encode

/-- The root that names the generation. -/
def generationRoot (manifest : ManifestFields) : Root :=
  canonicalRoot "generation" (.obj
    [(lit "manifest_root", rootJson manifest.manifestRoot),
      (lit "namespace", .str manifest.nameSpace),
      (lit "parent_generation_root", optionalRootJson manifest.parentGenerationRoot),
      (lit "payload_roots", .arr (manifest.payloads.map fun item => rootJson item.payloadRoot)),
      (lit "qualification_roots",
        .arr (manifest.qualifications.map fun item => rootJson item.qualificationRoot))])

/-- The names of the payloads increase. -/
def checkPayloadOrder (payloads : List GenerationPayload) : Check Unit :=
  checkNames "payloads must be sorted by canonical name" "duplicate payload name"
    (payloads.map fun item => item.name.val)

def checkQualificationOrder (qualifications : List QualificationRoot) : Check Unit :=
  checkNames "qualifications must be sorted by canonical name" "duplicate qualification name"
    (qualifications.map fun item => item.name.val)

/-- The checks of `__post_init__` that the types of the fields do not carry. -/
def postInit (manifest : ManifestFields) : Check Unit := do
  raiseIf (manifest.payloads = []) (contractError "generation requires at least one payload")
  checkPayloadOrder manifest.payloads
  checkQualificationOrder manifest.qualifications
  manifest.metadata.forM fun entry => checkMetadataValue entry.2
  checkMetadataOrder manifest.metadata
  raiseIf (manifest.limits.maxPayloads.val < manifest.payloads.length)
    (contractFault "payload count exceeds qualified limit" .boundExceeded)
  raiseIf (manifest.limits.maxQualificationRoots.val < manifest.qualifications.length)
    (contractFault "qualification count exceeds qualified limit" .boundExceeded)
  raiseIf (manifest.limits.maxMetadataEntries.val < manifest.metadata.length)
    (contractFault "metadata count exceeds qualified limit" .boundExceeded)
  checkSizes manifest.limits 0 manifest.payloads
  raiseIf (1 < manifest.payloads.countP (·.authoritative))
    (contractError "a generation may declare at most one authoritative source payload")
  raiseIf (manifest.limits.maxManifestBytes.val < manifest.encode.length)
    (contractFault "manifest exceeds qualified limit" .boundExceeded)

end Encoding

end ManifestFields

/-- `GenerationManifest`: fields that passed `__post_init__`. -/
structure GenerationManifest [Runtime] extends ManifestFields where
  /-- The record was validated when it was built. -/
  valid : toManifestFields.postInit = .ok ()
deriving DecidableEq

namespace GenerationManifest

variable [Runtime]

/-- One metadata entry of the constructor: a pair of strings whose value is canonical. -/
def initEntry (entry : Json × Json) : Check (Name × Str) :=
  match entry with
  | (.str key, .str value) => do
    let key ← requireName "metadata key" (.str key)
    checkMetadataValue value
    return (key, value)
  | _ => .error (contractError "metadata entries must be string pairs")

def checkFormatVersion (value : Json) : Check Unit :=
  match value with
  | .int version =>
    raiseIf (version ≠ generationFormatVersion)
      (contractError "unsupported generation format version")
  | _ => .error (contractError "generation format version must be an integer")

def init (nameSpace parentGenerationRoot : Json) (payloads : List GenerationPayload)
    (qualifications : List QualificationRoot) (metadata : List (Json × Json))
    (limits : QualifiedGenerationLimits) (formatVersion contractId : Json) :
    Check GenerationManifest := do
  let nameSpace ← requireName "namespace" nameSpace
  let parent ← requireOptionalRoot "parent_generation_root" parentGenerationRoot
  checkFormatVersion formatVersion
  checkContractId contractId "unsupported generation contract"
  -- these three come before the metadata; `postInit` runs them again on the whole record
  raiseIf (payloads = []) (contractError "generation requires at least one payload")
  ManifestFields.checkPayloadOrder payloads
  ManifestFields.checkQualificationOrder qualifications
  let metadata ← metadata.mapM initEntry
  let manifest : ManifestFields := ⟨nameSpace, parent, payloads, qualifications, metadata, limits⟩
  match h : manifest.postInit with
  | .ok () => return ⟨manifest, h⟩
  | .error e => throw e

/-- The entries of the `metadata` list: lists of two items. -/
def entryItems (item : Json) : Check (Json × Json) :=
  match item with
  | .arr [key, value] => .ok (key, value)
  | _ => .error (contractError "manifest metadata entry is malformed")

def requireList (value : Json) (message : String) : Check (List Json) :=
  match value with
  | .arr items => .ok items
  | _ => .error (contractError message)

def requireLimits (value : Json) : Check QualifiedGenerationLimits :=
  match value with
  | .obj fields => QualifiedGenerationLimits.ofKeywords fields
  | _ => .error (contractError "manifest limits are malformed")

/-- A manifest from a document with exactly these keys. -/
def fromDict (value : Dict) : Check GenerationManifest := do
  raiseIf (sameKeys value ["contract_id", "format_version", "namespace", "parent_generation_root",
      "payloads", "qualifications", "metadata", "limits"] = false)
    (contractError "manifest fields are not canonical")
  let limits ← requireLimits (← getItem value "limits")
  let payloadValues ← requireList (← getItem value "payloads") "manifest payloads are malformed"
  let qualificationValues ← requireList (← getItem value "qualifications")
    "manifest qualifications are malformed"
  let metadataValues ← requireList (← getItem value "metadata") "manifest metadata is malformed"
  let metadata ← metadataValues.mapM entryItems
  let payloads ← payloadValues.mapM GenerationPayload.fromDict
  let qualifications ← qualificationValues.mapM QualificationRoot.fromDict
  init (← getItem value "namespace") (← getItem value "parent_generation_root") payloads
    qualifications metadata limits (← getItem value "format_version")
    (← getItem value "contract_id")

end GenerationManifest

/-- `json.loads(data.decode("utf-8"))`, with the exceptions that the callers translate. -/
def loadJson [Runtime] (data : Bytes) (malformed : Error) : Check Json :=
  match decodeUtf8 data with
  | none => .error malformed
  | some text =>
    match loads text with
    | .ok value => .ok value
    | .error .decode => .error malformed
    | .error .digits => .error (.builtin .valueError)
    | .error .recursion => .error (.builtin .recursionError)

def manifestFromJson [Runtime] (data : Bytes) : Check GenerationManifest := do
  let value ← loadJson data (.contract (lit "manifest JSON is malformed") .invalidInput)
  match value with
  | .obj fields =>
    let manifest ← GenerationManifest.fromDict fields
    raiseIf (manifest.encode ≠ data)
      (contractFault "manifest JSON is not canonical" .noncanonical)
    return manifest
  | _ => .error (contractError "manifest JSON must be an object")

/-! ## Lifecycle receipts -/

/-- The states of a generation, in their order. -/
inductive GenerationState where
  | staging
  | sealed
  | verified
  | published
  | retired
deriving DecidableEq

namespace GenerationState

def value : GenerationState → Str
  | staging => lit "staging"
  | sealed => lit "sealed"
  | verified => lit "verified"
  | published => lit "published"
  | retired => lit "retired"

/-- `GENERATION_LIFECYCLE.index(state.value)`. -/
def index : GenerationState → Nat
  | staging => 0
  | sealed => 1
  | verified => 2
  | published => 3
  | retired => 4

/-- `GENERATION_LIFECYCLE`. -/
def lifecycle : List GenerationState := [staging, sealed, verified, published, retired]

/-- The states that a published generation went through. -/
def publishedStates : List GenerationState := [staging, sealed, verified, published]

/-- `GenerationState(value)`: a `ValueError` for anything that is not a member's value. -/
def ofJson (value : Json) : Check GenerationState :=
  match value with
  | .str s =>
    match lifecycle.find? (fun state => state.value == s) with
    | some state => .ok state
    | none => .error (.builtin .valueError)
  | _ => .error (.builtin .valueError)

end GenerationState

/-- A state of a generation; receipts form a chain. -/
structure GenerationLifecycleReceipt where
  generationRoot : Root
  manifestRoot : Root
  state : GenerationState
  sequence : Nat
  predecessorReceiptRoot : Option Root
  /-- The sequence number is the place of the state in the lifecycle. -/
  sequence_eq : sequence = state.index
  /-- Exactly the first receipt has no predecessor. -/
  predecessor_isSome : predecessorReceiptRoot.isSome = decide (0 < sequence)
deriving DecidableEq

namespace GenerationLifecycleReceipt

def init (generationRoot manifestRoot : Json) (state : GenerationState)
    (sequence predecessorReceiptRoot : Json) : Check GenerationLifecycleReceipt := do
  let generationRoot ← requireRoot "generation_root" generationRoot
  let manifestRoot ← requireRoot "manifest_root" manifestRoot
  let sequence ← requireInt "receipt sequence" sequence 0 (GenerationState.lifecycle.length - 1)
  let predecessor ← requireOptionalRoot "predecessor_receipt_root" predecessorReceiptRoot
  if hs : sequence.val = state.index then
    if hp : predecessor.isSome = decide (0 < sequence.val) then
      return ⟨generationRoot, manifestRoot, state, sequence, predecessor, hs, hp⟩
    else if sequence.val = 0 then .error (contractError "staging receipt cannot have a predecessor")
    else .error (contractError "non-initial receipt requires a predecessor")
  else .error (contractFault "receipt sequence does not match lifecycle state" .noncanonical)

def canonicalDict (receipt : GenerationLifecycleReceipt) : Dict :=
  [(lit "contract_id", .str generationContractId),
    (lit "generation_root", rootJson receipt.generationRoot),
    (lit "manifest_root", rootJson receipt.manifestRoot), (lit "state", .str receipt.state.value),
    (lit "sequence", natJson receipt.sequence),
    (lit "predecessor_receipt_root", optionalRootJson receipt.predecessorReceiptRoot)]

/-- `canonical_json_bytes(receipt.canonical_dict())`. -/
def encode [Runtime] (receipt : GenerationLifecycleReceipt) : Bytes :=
  canonicalBytes (.obj receipt.canonicalDict)

def receiptRoot [Runtime] (receipt : GenerationLifecycleReceipt) : Root :=
  canonicalRootBytes "lifecycle-receipt" receipt.encode

def fromDict (value : Dict) : Check GenerationLifecycleReceipt := do
  raiseIf (sameKeys value ["contract_id", "generation_root", "manifest_root", "state", "sequence",
      "predecessor_receipt_root"] = false)
    (contractError "lifecycle receipt fields are not canonical")
  checkContractId (← getItem value "contract_id") "lifecycle receipt fields are not canonical"
  let generationRoot ← getItem value "generation_root"
  let manifestRoot ← getItem value "manifest_root"
  let state ← GenerationState.ofJson (← getItem value "state")
  init generationRoot manifestRoot state (← getItem value "sequence")
    (← getItem value "predecessor_receipt_root")

end GenerationLifecycleReceipt

/-! ## Publication records and heads -/

/-- How a record came to be written. -/
inductive PublicationAction where
  | publish
  | rollback
deriving DecidableEq

namespace PublicationAction

def value : PublicationAction → Str
  | publish => lit "publish"
  | rollback => lit "rollback"

/-- `PublicationAction(value)`. -/
def ofJson (value : Json) : Check PublicationAction :=
  match value with
  | .str s =>
    match [publish, rollback].find? (fun action => action.value == s) with
    | some action => .ok action
    | none => .error (.builtin .valueError)
  | _ => .error (.builtin .valueError)

end PublicationAction

/-- An entry of the publication log. -/
structure GenerationPublicationRecord where
  nameSpace : Name
  publicationSequence : Bounded 1 uint63Max
  action : PublicationAction
  generationRoot : Root
  manifestRoot : Root
  publishedReceiptRoot : Root
  previousGenerationRoot : Option Root
  predecessorRecordRoot : Option Root
  /-- Exactly the first record has no predecessor. -/
  predecessor_isSome : predecessorRecordRoot.isSome = decide (1 < publicationSequence.val)
deriving DecidableEq

namespace GenerationPublicationRecord

def init (nameSpace publicationSequence : Json) (action : PublicationAction)
    (generationRoot manifestRoot publishedReceiptRoot previousGenerationRoot
      predecessorRecordRoot : Json) : Check GenerationPublicationRecord := do
  let nameSpace ← requireName "namespace" nameSpace
  let sequence ← requireInt "publication_sequence" publicationSequence 1 uint63Max
  let generationRoot ← requireRoot "generation_root" generationRoot
  let manifestRoot ← requireRoot "manifest_root" manifestRoot
  let receiptRoot ← requireRoot "published_receipt_root" publishedReceiptRoot
  let previous ← requireOptionalRoot "previous_generation_root" previousGenerationRoot
  let predecessor ← requireOptionalRoot "predecessor_record_root" predecessorRecordRoot
  if h : predecessor.isSome = decide (1 < sequence.val) then
    return ⟨nameSpace, sequence, action, generationRoot, manifestRoot, receiptRoot, previous,
      predecessor, h⟩
  else if sequence.val = 1 then .error (contractError "first publication cannot have a predecessor")
  else .error (contractError "publication requires predecessor record")

def canonicalDict (record : GenerationPublicationRecord) : Dict :=
  [(lit "contract_id", .str generationContractId), (lit "namespace", .str record.nameSpace),
    (lit "publication_sequence", natJson record.publicationSequence),
    (lit "action", .str record.action.value),
    (lit "generation_root", rootJson record.generationRoot),
    (lit "manifest_root", rootJson record.manifestRoot),
    (lit "published_receipt_root", rootJson record.publishedReceiptRoot),
    (lit "previous_generation_root", optionalRootJson record.previousGenerationRoot),
    (lit "predecessor_record_root", optionalRootJson record.predecessorRecordRoot)]

/-- `canonical_json_bytes(record.canonical_dict())`. -/
def encode [Runtime] (record : GenerationPublicationRecord) : Bytes :=
  canonicalBytes (.obj record.canonicalDict)

def recordRoot [Runtime] (record : GenerationPublicationRecord) : Root :=
  canonicalRootBytes "publication-record" record.encode

def fromDict (value : Dict) : Check GenerationPublicationRecord := do
  raiseIf (sameKeys value ["contract_id", "namespace", "publication_sequence", "action",
      "generation_root", "manifest_root", "published_receipt_root", "previous_generation_root",
      "predecessor_record_root"] = false)
    (contractError "publication record fields are not canonical")
  checkContractId (← getItem value "contract_id") "publication record fields are not canonical"
  let nameSpace ← getItem value "namespace"
  let sequence ← getItem value "publication_sequence"
  let action ← PublicationAction.ofJson (← getItem value "action")
  init nameSpace sequence action (← getItem value "generation_root")
    (← getItem value "manifest_root") (← getItem value "published_receipt_root")
    (← getItem value "previous_generation_root") (← getItem value "predecessor_record_root")

end GenerationPublicationRecord

def publicationRecordFromJson [Runtime] (data : Bytes) : Check GenerationPublicationRecord := do
  let value ← loadJson data (.contract (lit "publication JSON is malformed") .invalidInput)
  match value with
  | .obj fields =>
    let record ← GenerationPublicationRecord.fromDict fields
    raiseIf (record.encode ≠ data)
      (contractFault "publication JSON is not canonical" .noncanonical)
    return record
  | _ => .error (contractError "publication JSON must be an object")

/-- The generation that a namespace shows. -/
structure GenerationHead where
  nameSpace : Name
  publicationSequence : Bounded 1 uint63Max
  generationRoot : Root
  manifestRoot : Root
  publicationRecordRoot : Root
deriving DecidableEq

namespace GenerationHead

def init (nameSpace publicationSequence generationRoot manifestRoot publicationRecordRoot : Json) :
    Check GenerationHead := do
  let nameSpace ← requireName "namespace" nameSpace
  let sequence ← requireInt "publication_sequence" publicationSequence 1 uint63Max
  let generationRoot ← requireRoot "generation_root" generationRoot
  let manifestRoot ← requireRoot "manifest_root" manifestRoot
  let recordRoot ← requireRoot "publication_record_root" publicationRecordRoot
  return ⟨nameSpace, sequence, generationRoot, manifestRoot, recordRoot⟩

def canonicalDict (head : GenerationHead) : Dict :=
  [(lit "contract_id", .str generationContractId), (lit "namespace", .str head.nameSpace),
    (lit "publication_sequence", natJson head.publicationSequence),
    (lit "generation_root", rootJson head.generationRoot),
    (lit "manifest_root", rootJson head.manifestRoot),
    (lit "publication_record_root", rootJson head.publicationRecordRoot)]

/-- `canonical_json_bytes(head.canonical_dict())`. -/
def encode [Runtime] (head : GenerationHead) : Bytes := canonicalBytes (.obj head.canonicalDict)

def headRoot [Runtime] (head : GenerationHead) : Root := canonicalRootBytes "current-head" head.encode

def fromDict (value : Dict) : Check GenerationHead := do
  raiseIf (sameKeys value ["contract_id", "namespace", "publication_sequence", "generation_root",
      "manifest_root", "publication_record_root"] = false)
    (contractError "head fields are not canonical")
  checkContractId (← getItem value "contract_id") "head fields are not canonical"
  init (← getItem value "namespace") (← getItem value "publication_sequence")
    (← getItem value "generation_root") (← getItem value "manifest_root")
    (← getItem value "publication_record_root")

end GenerationHead

section Chains

variable [Runtime]

/-- The loop of `build_lifecycle_chain` over the states that are left. -/
def buildReceipts (generationRoot manifestRoot : Root) :
    Option Root → List GenerationState → Check (List GenerationLifecycleReceipt)
  | _, [] => .ok []
  | predecessor, state :: states => do
    let receipt ← GenerationLifecycleReceipt.init (rootJson generationRoot) (rootJson manifestRoot)
      state (natJson state.index) (optionalRootJson predecessor)
    let receipts ← buildReceipts generationRoot manifestRoot (some receipt.receiptRoot) states
    return receipt :: receipts

/-- The receipts of a manifest up to a state. -/
def buildLifecycleChain (manifest : GenerationManifest) (through : GenerationState) :
    Check (List GenerationLifecycleReceipt) :=
  buildReceipts manifest.generationRoot manifest.manifestRoot none
    (GenerationState.lifecycle.take (through.index + 1))

/-- The loop of `validate_lifecycle_chain`. -/
def validateReceipts (generationRoot manifestRoot : Root) :
    Option Root → List GenerationState → List GenerationLifecycleReceipt → Check Unit
  | predecessor, state :: states, receipt :: receipts =>
    if receipt.state ≠ state ∨ receipt.sequence ≠ state.index then
      .error (contractFault "lifecycle transition is not adjacent" .noncanonical)
    else if receipt.generationRoot ≠ generationRoot ∨ receipt.manifestRoot ≠ manifestRoot ∨
        receipt.predecessorReceiptRoot ≠ predecessor then
      .error (contractFault "lifecycle receipt identity mismatch" .identityMismatch)
    else validateReceipts generationRoot manifestRoot (some receipt.receiptRoot) states receipts
  | _, _, _ => .ok ()

/-- The receipts are the chain of the manifest. -/
def validateLifecycleChain (manifest : GenerationManifest)
    (receipts : List GenerationLifecycleReceipt) (requiredState : GenerationState) :
    Check GenerationLifecycleReceipt := do
  let expected := GenerationState.lifecycle.take (requiredState.index + 1)
  raiseIf (receipts.length < expected.length)
    (contractFault (if receipts = [] then "lifecycle receipt chain is empty"
      else "lifecycle receipt chain is incomplete") .incompleteGeneration)
  validateReceipts manifest.generationRoot manifest.manifestRoot none expected receipts
  match receipts[expected.length - 1]? with
  | some receipt => return receipt
  | none => .error (contractFault "lifecycle receipt chain is incomplete" .incompleteGeneration)

/-- The record follows the one before it. -/
def validatePublicationRecord (record : GenerationPublicationRecord)
    (previousRecord : Option GenerationPublicationRecord) (expectedCurrentRoot : Option Root) :
    Check Unit :=
  match previousRecord with
  | none =>
    if record.publicationSequence.val ≠ 1 then
      .error (contractFault "first publication sequence must be one" .noncanonical)
    else if record.predecessorRecordRoot ≠ none then
      .error (contractError "first publication has predecessor")
    else if record.previousGenerationRoot ≠ expectedCurrentRoot then
      .error (contractFault "first publication current-root mismatch" .publicationConflict)
    else .ok ()
  | some previous =>
    if record.nameSpace ≠ previous.nameSpace then
      .error (contractFault "publication namespace mismatch" .identityMismatch)
    else if record.publicationSequence.val ≠ previous.publicationSequence.val + 1 then
      .error (contractFault "publication sequence is not contiguous" .noncanonical)
    else if record.predecessorRecordRoot ≠ some previous.recordRoot then
      .error (contractFault "publication predecessor mismatch" .identityMismatch)
    else if record.previousGenerationRoot ≠ expectedCurrentRoot then
      .error (contractFault "publication compare-and-swap conflict" .publicationConflict)
    else .ok ()

end Chains

end Generation
