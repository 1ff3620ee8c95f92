import Tds.Generation.Disk

/-!
# The generation store

The methods of `AtomicGenerationStore`. What a method computes from the contents of a file is a
function of the contents; the method itself is a program that reads the files one after the other.
-/

namespace Generation

open Python Process

section Store

variable [Runtime]

/-- `raise GenerationStoreError(message)`. -/
def storeError (message : String) : Error := .store (lit message) .ioFailure

/-- `raise GenerationStoreError(message, fault=fault)`. -/
def storeFault (message : String) (fault : GenerationFault) : Error := .store (lit message) fault

/-- `GenerationStoreError` or its subclass. -/
def Error.isStoreError : Error → Bool
  | .store _ _ => true
  | .conflict _ => true
  | _ => false

/-- The digest that names the directory of a namespace. -/
def namespaceKey (nameSpace : Str) : Check Digest :=
  if nameSpace = [] then .error (contractError "namespace must be non-empty")
  else match encodeUtf8 nameSpace with
    | some bytes => .ok (sha256 bytes)
    | none => .error (.builtin .unicodeEncodeError)

/-! ## Reading files -/

/-- `_read_bounded_regular_file`, given what the file holds. -/
def readBounded (path : Str) (maxBytes : Nat) (contents : Option Bytes) : Check Bytes :=
  match contents with
  | none => .error (.store (lit "cannot safely open regular file: " ++ path) .integrityFailure)
  | some data =>
    if maxBytes < data.length then
      .error (.store (lit "file exceeds qualified byte bound: " ++ path) .boundExceeded)
    else .ok data

/-- `_canonical_load`, given what the file holds. -/
def canonicalLoad (config : StoreConfig) (path : Str) (contents : Option Bytes) :
    Check (Json × Bytes) := do
  let data ← readBounded path config.limits.maxManifestBytes contents
  let value ← loadJson data (.store (lit "malformed canonical JSON: " ++ path) .integrityFailure)
  raiseIf ((← canonicalJsonBytes value) ≠ data)
    (.store (lit "noncanonical JSON: " ++ path) .integrityFailure)
  return (value, data)

/-- One of the eight comparisons of `_validate_manifest_limits`. -/
def checkLimit (field : String) (manifestLimit storeLimit : Nat) : Check Unit :=
  if storeLimit < manifestLimit then
    .error (.store (lit "manifest " ++ lit field ++ lit " exceeds configured store limit")
      .boundExceeded)
  else .ok ()

/-- The loop of `_validate_manifest_limits` over the payload sizes. -/
def checkStoredSizes (limits : QualifiedGenerationLimits) :
    Nat → List GenerationPayload → Check Unit
  | _, [] => .ok ()
  | total, payload :: payloads =>
    if limits.maxSinglePayloadBytes.val < payload.size.val then
      .error (storeFault "manifest payload exceeds configured single-payload limit" .boundExceeded)
    else if (limits.maxPayloadBytes.val : Int) - payload.size.val < total then
      .error (storeFault "manifest payload bytes exceed configured limit" .boundExceeded)
    else checkStoredSizes limits (total + payload.size.val) payloads

/-- The manifest keeps within the limits of the store. -/
def validateManifestLimits (config : StoreConfig) (manifest : GenerationManifest)
    (encodedSize : Nat) : Check Unit := do
  let declared := manifest.limits
  let limits := config.limits
  checkLimit "max_payloads" declared.maxPayloads limits.maxPayloads
  checkLimit "max_payload_bytes" declared.maxPayloadBytes limits.maxPayloadBytes
  checkLimit "max_single_payload_bytes" declared.maxSinglePayloadBytes limits.maxSinglePayloadBytes
  checkLimit "max_qualification_roots" declared.maxQualificationRoots limits.maxQualificationRoots
  checkLimit "max_metadata_entries" declared.maxMetadataEntries limits.maxMetadataEntries
  checkLimit "max_manifest_bytes" declared.maxManifestBytes limits.maxManifestBytes
  checkLimit "max_publication_records" declared.maxPublicationRecords limits.maxPublicationRecords
  checkLimit "max_reader_pins" declared.maxReaderPins limits.maxReaderPins
  raiseIf (limits.maxManifestBytes.val < encodedSize)
    (storeFault "manifest exceeds configured byte limit" .boundExceeded)
  raiseIf (limits.maxPayloads.val < manifest.payloads.length)
    (storeFault "manifest payload count exceeds configured limit" .boundExceeded)
  raiseIf (limits.maxQualificationRoots.val < manifest.qualifications.length)
    (storeFault "manifest qualification count exceeds configured limit" .boundExceeded)
  raiseIf (limits.maxMetadataEntries.val < manifest.metadata.length)
    (storeFault "manifest metadata count exceeds configured limit" .boundExceeded)
  checkStoredSizes limits 0 manifest.payloads

/-- `_load_manifest`, given what the file holds. -/
def loadManifest (config : StoreConfig) (path : Str) (contents : Option Bytes) :
    Check GenerationManifest := do
  let data ← readBounded path config.limits.maxManifestBytes contents
  let manifest ← manifestFromJson data
  validateManifestLimits config manifest data.length
  return manifest

/-- One receipt of `verify_staged_generation`, given what its file holds. -/
def loadReceipt (config : StoreConfig) (path : Str) (contents : Option Bytes) :
    Check GenerationLifecycleReceipt := do
  let (value, data) ← canonicalLoad config path contents
  match value with
  | .obj fields =>
    let receipt ← GenerationLifecycleReceipt.fromDict fields
    raiseIf (receipt.encode ≠ data) (storeError "receipt is not canonical")
    return receipt
  | _ => throw (storeError "receipt must be a JSON object")

/-! ## Verifying a generation -/

/-- The files of a generation before it has its place. -/
structure StagedFiles where
  manifest : Option Bytes
  receipts : GenerationState → Option Bytes

/-- A directory that holds a generation: a private staging directory, or a published one. -/
inductive Directory where
  | staged (files : StagedFiles)
  | published (generation : Root)

def Directory.readManifest : Directory → Proc (Option Bytes)
  | staged files => pure files.manifest
  | published generation => readFile (.manifest generation)

def Directory.readReceipt (state : GenerationState) : Directory → Proc (Option Bytes)
  | staged files => pure (files.receipts state)
  | published generation => readFile (.receipt generation state)

/-- The directory's path below the root directory of the store. -/
def Directory.text : Directory → Str
  | staged _ => lit ".staging/generation"
  | published generation => lit "generations/" ++ generation.hex

def requireRealDirectory (config : StoreConfig) (directory : Directory) : Proc Unit := do
  match ← directory.readManifest with
  | some _ => return ()
  | none => throw (.store (lit "directory is missing: " ++ config.pathText directory.text)
      .incompleteGeneration)

/-- The loop of `verify_staged_generation` over the payload objects. -/
def verifyPayloads (config : StoreConfig) : List GenerationPayload → Proc Unit
  | [] => pure ()
  | payload :: payloads => do
    let path := Path.object payload.contentRoot
    let data ← readBounded (config.pathText path.text) payload.size (← readFile path)
    raiseIf (data.length ≠ payload.size.val ∨ bytesRoot data ≠ payload.contentRoot)
      (.store (lit "payload object failed verification: " ++ payload.name.val) .integrityFailure)
    verifyPayloads config payloads

/-- The loop of `verify_staged_generation` over the receipt files. -/
def readReceipts (config : StoreConfig) (directory : Directory) :
    List GenerationState → Proc (List GenerationLifecycleReceipt)
  | [] => pure []
  | state :: states => do
    let path := config.pathText (directory.text ++ lit "/receipts/" ++ receiptName state)
    let receipt ← loadReceipt config path (← directory.readReceipt state)
    let receipts ← readReceipts config directory states
    return receipt :: receipts

def verifyStagedGeneration (config : StoreConfig) (directory : Directory)
    (expectedManifest : GenerationManifest) : Proc GenerationLifecycleReceipt := do
  requireRealDirectory config directory
  let manifest ← loadManifest config (config.pathText (directory.text ++ lit "/manifest.json"))
    (← directory.readManifest)
  raiseIf (manifest ≠ expectedManifest)
    (storeFault "staged manifest identity mismatch" .identityMismatch)
  verifyPayloads config manifest.payloads
  let receipts ← readReceipts config directory GenerationState.publishedStates
  validateLifecycleChain manifest receipts .published

/-- The part of `verify_generation` after the check that the directory exists. -/
def loadGeneration (config : StoreConfig) (generationRoot : Root) :
    Proc (GenerationManifest × GenerationLifecycleReceipt) := do
  let directory := Directory.published generationRoot
  let manifest ← loadManifest config (config.pathText (directory.text ++ lit "/manifest.json"))
    (← directory.readManifest)
  raiseIf (manifest.generationRoot ≠ generationRoot)
    (storeFault "generation directory root mismatch" .identityMismatch)
  let published ← verifyStagedGeneration config directory manifest
  return (manifest, published)

def verifyGeneration (config : StoreConfig) (generationRoot : Root) :
    Proc (GenerationManifest × GenerationLifecycleReceipt) := do
  requireRealDirectory config (.published generationRoot)
  loadGeneration config generationRoot

/-! ## Creating a generation -/

/-- Whether the contents found under an object's name are the expected ones. -/
def sameObject (contentRoot : Root) (data existing : Bytes) : Bool :=
  existing == data && bytesRoot existing == contentRoot

/-- Writing the temporary file of `_write_payload_object`. -/
def writeTemporary : Proc Unit := do
  hit .beforeTemporaryWrite
  hit .duringPayloadWrite
  hit .afterPayloadWrite
  hit .beforeFileFsync
  hit .afterFileFsync

/-- An object that exists has the octets to be stored. -/
def checkObject (config : StoreConfig) (contentRoot : Root) (data : Bytes) (message : String)
    (contents : Option Bytes) : Check Unit := do
  let existing ← readBounded (config.pathText (Path.object contentRoot).text) data.length contents
  raiseIf (sameObject contentRoot data existing = false) (storeFault message .integrityFailure)

/-- Linking the temporary file of `_write_payload_object`. -/
def publishObject (config : StoreConfig) (contentRoot : Root) (data : Bytes) : Proc Unit := do
  if ← linkObject contentRoot data then pure ()
  else
    checkObject config contentRoot data "concurrent object publication mismatch"
      (← readFile (.object contentRoot))

/-- Stores a payload under its root, once. -/
def writePayloadObject (config : StoreConfig) (contentRoot : Root) (data : Bytes) : Proc Unit := do
  let path := Path.object contentRoot
  match readBounded (config.pathText path.text) data.length (← readFile path) with
  | .ok existing =>
    raiseIf (sameObject contentRoot data existing = false)
      (storeFault "content-addressed object collision or corruption" .integrityFailure)
  | .error e =>
    -- `final_path.exists()` looks again: the object may have appeared meanwhile
    raiseIf ((← readFile path).isSome = true) e
    writeTemporary
    publishObject config contentRoot data
    hit .beforeDirectoryFsync

/-- The loop of `_materialize_generation` over the payloads. -/
def writePayloadObjects (config : StoreConfig) : List (GenerationPayload × Str × Bytes) → Proc Unit
  | [] => pure ()
  | (identity, _, data) :: items => do
    writePayloadObject config identity.contentRoot data
    writePayloadObjects config items

/-- The receipt files that `_materialize_generation` stages. -/
def stagedReceipts (receipts : List GenerationLifecycleReceipt) (state : GenerationState) :
    Option Bytes :=
  (receipts.find? fun receipt => receipt.state == state).map (·.encode)

/-- A generation that is already there must have the candidate's manifest. -/
def verifyExisting (config : StoreConfig) (manifest : GenerationManifest) (message : String) :
    Proc (GenerationManifest × GenerationLifecycleReceipt) := do
  let (loaded, published) ← verifyGeneration config manifest.generationRoot
  raiseIf (loaded ≠ manifest) (storeFault message .integrityFailure)
  return (loaded, published)

/-- Renaming the staging directory of `_materialize_generation`. -/
def publishGeneration (config : StoreConfig) (manifest : GenerationManifest) (files : StagedFiles) :
    Proc (GenerationManifest × GenerationLifecycleReceipt) := do
  if ← renameGeneration manifest.generationRoot manifest.encode files.receipts then
    hit .afterManifestPublication
    verifyGeneration config manifest.generationRoot
  else verifyExisting config manifest "concurrent generation publication mismatch"

/-- The part of `_materialize_generation` that creates the generation. -/
def createGeneration (config : StoreConfig) (candidate : GenerationCandidate) :
    Proc (GenerationManifest × GenerationLifecycleReceipt) := do
  let manifest := candidate.manifest
  writePayloadObjects config (manifest.payloads.zip candidate.payloads)
  let receipts ← buildLifecycleChain manifest .published
  let files : StagedFiles := ⟨some manifest.encode, stagedReceipts receipts⟩
  let _ ← verifyStagedGeneration config (.staged files) manifest
  hit .beforeManifestPublication
  publishGeneration config manifest files

/-- Stores the generation, if it is not there already. -/
def materializeGeneration (config : StoreConfig) (candidate : GenerationCandidate) :
    Proc (GenerationManifest × GenerationLifecycleReceipt) := do
  let manifest := candidate.manifest
  validateManifestLimits config manifest manifest.encode.length
  if (← readFile (.manifest manifest.generationRoot)).isSome then
    verifyExisting config manifest "existing generation identity mismatch"
  else createGeneration config candidate

/-! ## Publication logs and heads -/

/-- `handle.readline(size)`: a line with its line break, cut after `size` bytes, and the rest. -/
def readline : Nat → Bytes → Bytes × Bytes
  | 0, data => ([], data)
  | _ + 1, [] => ([], [])
  | size + 1, b :: data =>
    if b = 10 then ([b], data)
    else let (line, rest) := readline size data; (b :: line, rest)

/-- The loop of `_read_publication_records`, with the records read so far. Every line consumes bytes,
so the number of bytes is enough `fuel`. -/
def readRecords (config : StoreConfig) (nameSpace : Str) (allowTornTail : Bool) :
    Nat → List GenerationPublicationRecord → Bytes →
      Check (List GenerationPublicationRecord × Bool)
  | 0, records, _ => .ok (records, false)
  | fuel + 1, records, data =>
    let maxLineBytes := config.limits.maxManifestBytes.val
    let (line, rest) := readline (maxLineBytes + 2) data
    if line = [] then .ok (records, false)
    else
      let complete := line.getLast? == some 10
      let raw := if complete then line.dropLast else line
      if maxLineBytes < raw.length then
        .error (storeFault "publication record exceeds qualified byte bound" .boundExceeded)
      else if !complete then
        if rest ≠ [] then
          .error (storeFault "publication record exceeds qualified byte bound" .boundExceeded)
        else if !allowTornTail then
          .error (storeFault "publication log has a torn tail" .recoveryFailure)
        else .ok (records, true)
      else if raw = [] then
        .error (storeFault "publication log contains an empty record" .integrityFailure)
      else if config.limits.maxPublicationRecords.val ≤ records.length then
        .error (storeFault "publication record count exceeds configured limit" .boundExceeded)
      else do
        let record ← publicationRecordFromJson raw
        validatePublicationRecord record records.getLast?
          (records.getLast?.map (·.generationRoot))
        raiseIf (record.nameSpace.val ≠ nameSpace)
          (storeFault "publication log namespace mismatch" .identityMismatch)
        readRecords config nameSpace allowTornTail fuel (records ++ [record]) rest

/-- `_read_publication_records`, for the namespace whose directory is `key`. -/
def readPublicationRecords (config : StoreConfig) (nameSpace : Str) (key : Digest)
    (allowTornTail : Bool) : Proc (List GenerationPublicationRecord × Bool) := do
  match ← readFile (.log key) with
  | none => return ([], false)
  | some data => readRecords config nameSpace allowTornTail (data.length + 1) [] data

/-- The `while` loop of `_append_publication_record`: every `write` takes at least one byte. -/
def appendAll (key : Digest) : Nat → Bytes → Proc Unit
  | 0, _ => pure ()
  | _, [] => pure ()
  | fuel + 1, b :: view => do
    let written ← writeLog key (b :: view)
    appendAll key fuel ((b :: view).drop written)

def appendPublicationRecord (key : Digest) (record : GenerationPublicationRecord) : Proc Unit := do
  let data := record.encode ++ [10]
  createLog key
  appendAll key data.length data

/-- The `dict` that `_head_envelope` encodes. -/
def envelopeDict (head : GenerationHead) : Dict :=
  [(lit "head", .obj head.canonicalDict), (lit "head_root", rootJson head.headRoot)]

def headEnvelope (head : GenerationHead) : Bytes := canonicalBytes (.obj (envelopeDict head))

/-- `value["head_root"] == head.head_root`. -/
def namesHead (value : Json) (head : GenerationHead) : Bool :=
  match value with
  | .str root => root == rootText head.headRoot
  | _ => false

/-- `_read_head_unverified`, given what `CURRENT` holds. -/
def loadHead (config : StoreConfig) (nameSpace : Str) (path : Str) (contents : Option Bytes) :
    Check (Option GenerationHead) :=
  match contents with
  | none => .ok none
  | some data => do
    let (value, _) ← canonicalLoad config path (some data)
    match value with
    | .obj fields =>
      raiseIf (sameKeys fields ["head", "head_root"] = false)
        (storeFault "CURRENT envelope is malformed" .integrityFailure)
      match ← getItem fields "head" with
      | .obj headFields =>
        let head ← GenerationHead.fromDict headFields
        raiseIf (namesHead (← getItem fields "head_root") head = false ∨
            head.nameSpace.val ≠ nameSpace)
          (storeFault "CURRENT identity mismatch" .identityMismatch)
        return some head
      | _ => throw (storeError "CURRENT head is malformed")
    | _ => throw (storeFault "CURRENT envelope is malformed" .integrityFailure)

/-- The head in `CURRENT`, which nothing was compared with. -/
def readHeadUnverified (config : StoreConfig) (nameSpace : Str) (key : Digest) :
    Proc (Option GenerationHead) := do
  let path := Path.current key
  loadHead config nameSpace (config.pathText path.text) (← readFile path)

def headOfRecord (nameSpace : Str) (record : GenerationPublicationRecord) : Check GenerationHead :=
  GenerationHead.init (.str nameSpace) (natJson record.publicationSequence)
    (rootJson record.generationRoot) (rootJson record.manifestRoot) (rootJson record.recordRoot)

/-- The head; it has to be that of the last record. -/
def currentHead (config : StoreConfig) (nameSpace : Str) (key : Digest) :
    Proc (Option GenerationHead) := do
  match ← readHeadUnverified config nameSpace key with
  | none => return none
  | some head =>
    let (records, torn) ← readPublicationRecords config nameSpace key false
    match torn, records.getLast? with
    | false, some latest =>
      let expected ← headOfRecord nameSpace latest
      raiseIf (head ≠ expected)
        (storeFault "CURRENT is not the latest publication head" .integrityFailure)
      let (manifest, published) ← verifyGeneration config head.generationRoot
      raiseIf (manifest.manifestRoot ≠ head.manifestRoot ∨
          published.receiptRoot ≠ latest.publishedReceiptRoot)
        (storeFault "CURRENT does not bind a verified generation" .integrityFailure)
      return some head
    | _, _ => throw (storeFault "CURRENT has no final publication record" .integrityFailure)

def writeHead (key : Digest) (head : GenerationHead) : Proc Unit := do
  hit .beforeCurrentHeadCas
  replaceFile (.current key) (headEnvelope head)
  hit .afterCurrentHeadCas

def encodeLog (records : List GenerationPublicationRecord) : Bytes :=
  records.flatMap fun record => record.encode ++ [10]

def rewritePublicationLog (key : Digest) (records : List GenerationPublicationRecord) : Proc Unit :=
  replaceFile (.log key) (encodeLog records)

/-! ## Locks -/

/-- `_acquire_advisory_lock` with the attempts that are left. -/
def acquireAdvisoryLock (config : StoreConfig) (file : LockFile) (shared : Bool) : Nat → Proc Nat
  | 0 => throw (.conflict (lit "advisory lock is busy: " ++ config.pathText file.text))
  | attempts + 1 => do
    match ← flock file shared with
    | some fd => return fd
    | none => acquireAdvisoryLock config file shared attempts

/-- `with self._namespace_lock(namespace)`: the body gets the key of the namespace's directory. A
store runs one call at a time, which is what `_mutex` is for. -/
def withNamespaceLock {α : Type} (config : StoreConfig) (nameSpace : Str)
    (body : Digest → Proc α) : Proc α := do
  let key ← namespaceKey nameSpace
  let file := LockFile.nameSpace key
  let fd ← acquireAdvisoryLock config file false config.lockAttempts
  (body key).tryFinally (releaseAdvisoryLock file fd)

/-! ## Recovery -/

structure RecoveryResult where
  nameSpace : Str
  head : Option GenerationHead
  repaired : Bool
  validRecords : Nat
  ignoredTornTail : Bool

/-- The loop of `_recover_locked` over the records, with the roots published so far. -/
def verifyRecords (config : StoreConfig) (nameSpace : Str) :
    List Root → List GenerationPublicationRecord → Proc Unit
  | _, [] => pure ()
  | publishedRoots, record :: records => do
    let (manifest, published) ← verifyGeneration config record.generationRoot
    raiseIf (manifest.nameSpace.val ≠ nameSpace ∨ manifest.manifestRoot ≠ record.manifestRoot ∨
        published.receiptRoot ≠ record.publishedReceiptRoot)
      (storeFault "publication record references invalid generation" .recoveryFailure)
    raiseIf (record.action = .publish ∧ manifest.parentGenerationRoot ≠ record.previousGenerationRoot)
      (storeFault "published manifest parent breaks publication lineage" .recoveryFailure)
    if record.action = .publish then
      verifyRecords config nameSpace (record.generationRoot :: publishedRoots) records
    else if record.generationRoot ∉ publishedRoots then
      throw (storeFault "rollback record targets a generation never published" .recoveryFailure)
    else verifyRecords config nameSpace publishedRoots records

/-- The first part of `_recover_locked`: the verified records and whether the log has a torn tail. -/
def recoverRecords (config : StoreConfig) (nameSpace : Str) (key : Digest) :
    Proc (List GenerationPublicationRecord × Bool) := do
  let (records, tornTail) ← readPublicationRecords config nameSpace key true
  verifyRecords config nameSpace [] records
  return (records, tornTail)

/-- The head that `_recover_locked` expects. -/
def expectedHead (nameSpace : Str) (records : List GenerationPublicationRecord) :
    Check (Option GenerationHead) :=
  match records.getLast? with
  | none => .ok none
  | some record => (headOfRecord nameSpace record).map some

/-- The head that `_recover_locked` finds, and whether `CURRENT` is invalid: only store errors are
taken for an invalid file. -/
def existingHead (config : StoreConfig) (nameSpace : Str) (key : Digest) :
    Proc (Option GenerationHead × Bool) :=
  (readHeadUnverified config nameSpace key).attempt fun
    | .ok head => pure (head, false)
    | .error e => if e.isStoreError then pure (none, true) else throw e

/-- `_recover_locked` drops a torn tail by writing the log anew. -/
def repairLog (key : Digest) (valid : List GenerationPublicationRecord) (tornTail : Bool) :
    Proc Unit :=
  if tornTail then rewritePublicationLog key valid else pure ()

/-- `_recover_locked` puts the expected head in place. -/
def repairHead (key : Digest) (expected : Option GenerationHead) (repaired : Bool) : Proc Unit :=
  if repaired then
    match expected with
    | none => do
      let _ ← unlinkFile (.current key)
    | some head => replaceFile (.current key) (headEnvelope head)
  else pure ()

/-- Brings log and head to the last valid record. -/
def recoverLocked (config : StoreConfig) (nameSpace : Str) (key : Digest) :
    Proc RecoveryResult := do
  let (valid, tornTail) ← recoverRecords config nameSpace key
  repairLog key valid tornTail
  let expected ← expectedHead nameSpace valid
  let (existing, existingInvalid) ← existingHead config nameSpace key
  let repaired := existingInvalid || decide (existing ≠ expected)
  repairHead key expected repaired
  return ⟨nameSpace, expected, repaired, valid.length, tornTail⟩

def recover (config : StoreConfig) (nameSpace : Str) : Proc RecoveryResult := do
  hit .duringRecovery
  withNamespaceLock config nameSpace (recoverLocked config nameSpace)

/-! ## Publishing and rolling back -/

structure PublicationResult where
  head : GenerationHead
  record : GenerationPublicationRecord
  manifest : GenerationManifest
  recoveredBeforePublish : Bool

/-- The root that a caller passes, or `None`. -/
def strJson : Option Str → Json
  | some s => .str s
  | none => .null

/-- `repr` of a root or `None`. -/
def reprRoot : Option Root → Str
  | some root => lit "'" ++ rootText root ++ lit "'"
  | none => lit "None"

/-- The end of `publish` and `rollback`: the record is built on the records read under the lock,
validated, appended, and its head becomes `CURRENT`. -/
def commitRecord (nameSpace : Str) (key : Digest) (action : PublicationAction)
    (manifest : GenerationManifest) (published : GenerationLifecycleReceipt)
    (generationRoot : Root) (currentRoot : Option Root)
    (records : List GenerationPublicationRecord) :
    Proc (GenerationHead × GenerationPublicationRecord) := do
  let previous := records.getLast?
  let sequence := match previous with
    | some record => record.publicationSequence.val + 1
    | none => 1
  let record ← GenerationPublicationRecord.init (.str nameSpace) (natJson sequence) action
    (rootJson generationRoot) (rootJson manifest.manifestRoot) (rootJson published.receiptRoot)
    (optionalRootJson currentRoot) (optionalRootJson (previous.map (·.recordRoot)))
  validatePublicationRecord record previous currentRoot
  appendPublicationRecord key record
  let newHead ← headOfRecord nameSpace record
  writeHead key newHead
  return (newHead, record)

/-- The part of `publish` under the namespace lock. -/
def publishLocked (config : StoreConfig) (manifest : GenerationManifest)
    (published : GenerationLifecycleReceipt) (expectedHeadRoot : Option Root) (key : Digest) :
    Proc PublicationResult := do
  let nameSpace := manifest.nameSpace.val
  let recovery ← recoverLocked config nameSpace key
  let currentRoot := recovery.head.map (·.generationRoot)
  let currentHeadRoot := recovery.head.map (·.headRoot)
  raiseIf (currentHeadRoot ≠ expectedHeadRoot)
    (.conflict (lit "CURRENT head changed: expected " ++ reprRoot expectedHeadRoot ++
      lit ", found " ++ reprRoot currentHeadRoot))
  raiseIf (manifest.parentGenerationRoot ≠ currentRoot)
    (.conflict (lit "candidate parent root does not equal CURRENT"))
  let (records, _) ← readPublicationRecords config nameSpace key false
  raiseIf (config.limits.maxPublicationRecords.val ≤ records.length)
    (storeFault "publication record limit reached" .boundExceeded)
  let (newHead, record) ← commitRecord nameSpace key .publish manifest published
    manifest.generationRoot currentRoot records
  return ⟨newHead, record, manifest, recovery.repaired || recovery.ignoredTornTail⟩

/-- Stores the candidate and makes it current. -/
def publish (config : StoreConfig) (candidate : GenerationCandidate)
    (expectedHeadRoot : Option Str) : Proc PublicationResult := do
  let expected ← requireOptionalRoot "expected_head_root" (strJson expectedHeadRoot)
  let (manifest, published) ← materializeGeneration config candidate
  withNamespaceLock config manifest.nameSpace.val
    (publishLocked config manifest published expected)

/-- `_load_retired_receipt`, given what the file holds; `none` when it is missing and may be. -/
def loadRetiredReceipt (config : StoreConfig) (generationRoot : Root)
    (manifest : GenerationManifest) (published : GenerationLifecycleReceipt) (allowMissing : Bool)
    (contents : Option Bytes) : Check (Option GenerationLifecycleReceipt) :=
  match contents with
  | none =>
    if allowMissing then .ok none
    else .error (storeFault "retirement receipt is missing" .incompleteGeneration)
  | some data => do
    let path := config.pathText (Path.receipt generationRoot .retired).text
    let (value, data) ← canonicalLoad config path (some data)
    match value with
    | .obj fields =>
      let receipt ← match GenerationLifecycleReceipt.fromDict fields with
        | .ok receipt => pure receipt
        | .error (.contract _ _) =>
          throw (storeFault "retirement receipt contract failure" .integrityFailure)
        | .error e => throw e
      raiseIf (receipt.encode ≠ data)
        (storeFault "retirement receipt noncanonical" .integrityFailure)
      raiseIf (receipt.generationRoot ≠ generationRoot ∨
          receipt.manifestRoot ≠ manifest.manifestRoot ∨ receipt.state ≠ .retired ∨
          receipt.sequence ≠ 4 ∨ receipt.predecessorReceiptRoot ≠ some published.receiptRoot)
        (storeFault "retirement receipt breaks terminal lifecycle lineage" .integrityFailure)
      return some receipt
    | _ => throw (storeError "retirement receipt malformed")

/-- There is a valid receipt of the retirement. -/
def isRetired (config : StoreConfig) (generationRoot : Root) : Proc Bool := do
  let path := Path.receipt generationRoot .retired
  if (← readFile path).isNone then return false
  else
    let (manifest, published) ← verifyGeneration config generationRoot
    let _ ← loadRetiredReceipt config generationRoot manifest published false (← readFile path)
    return true

/-- Some record publishes it; a rollback does not count. -/
def wasPublished (records : List GenerationPublicationRecord) (generationRoot : Root) : Bool :=
  records.any fun item => item.action == .publish && item.generationRoot == generationRoot

/-- The part of `rollback` under the namespace lock. -/
def rollbackLocked (config : StoreConfig) (nameSpace : Str) (target expectedHeadRoot : Root)
    (key : Digest) : Proc PublicationResult := do
  let recovery ← recoverLocked config nameSpace key
  let currentRoot := recovery.head.map (·.generationRoot)
  raiseIf (recovery.head.map (·.headRoot) ≠ some expectedHeadRoot)
    (.conflict (lit "rollback CURRENT conflict"))
  let (manifest, published) ← verifyGeneration config target
  raiseIf (manifest.nameSpace.val ≠ nameSpace)
    (storeFault "rollback target namespace mismatch" .identityMismatch)
  raiseIf ((← isRetired config target) = true)
    (storeError "retired generation cannot be rollback target")
  let (records, _) ← readPublicationRecords config nameSpace key false
  raiseIf (wasPublished records target = false)
    (.conflict (lit "rollback target was never published in this namespace"))
  raiseIf (config.limits.maxPublicationRecords.val ≤ records.length)
    (storeFault "publication record limit reached" .boundExceeded)
  let (newHead, record) ← commitRecord nameSpace key .rollback manifest published target
    currentRoot records
  return ⟨newHead, record, manifest, false⟩

/-- Makes an older generation current again. -/
def rollback (config : StoreConfig) (nameSpace targetGenerationRoot expectedHeadRoot : Str) :
    Proc PublicationResult := do
  let target ← requireRoot "target_generation_root" (.str targetGenerationRoot)
  let expected ← requireRoot "expected_head_root" (.str expectedHeadRoot)
  withNamespaceLock config nameSpace (rollbackLocked config nameSpace target expected)

/-! ## Leases -/

/-- The shared lock of a pinned generation, taken once. -/
def acquirePinLock (config : StoreConfig) (generationRoot : Root) : Proc Nat := do
  let memory ← getMemory
  match memory.pinLocks.lookup generationRoot with
  | some (fd, references) =>
    setMemory { memory with
      pinLocks := memory.pinLocks.insert generationRoot (fd, references + 1) }
    return fd
  | none =>
    let fd ← acquireAdvisoryLock config (.pin generationRoot) true config.lockAttempts
    setMemory { memory with pinLocks := memory.pinLocks.insert generationRoot (fd, 1) }
    return fd

/-- Gives the lock back with the last reference. -/
def releasePinLock (generationRoot : Root) (pinFd : Nat) : Proc Unit := do
  let memory ← getMemory
  match memory.pinLocks.lookup generationRoot with
  | none => throw (storeError "generation pin lock identity mismatch")
  | some (fd, references) =>
    if fd ≠ pinFd then throw (storeError "generation pin lock identity mismatch")
    else if 1 < references then
      setMemory { memory with
        pinLocks := memory.pinLocks.insert generationRoot (pinFd, references - 1) }
    else do
      setMemory { memory with pinLocks := memory.pinLocks.erase generationRoot }
      releaseAdvisoryLock (.pin generationRoot) pinFd

/-- The count in `_pins`. -/
def StoreMemory.pinCount (memory : StoreMemory) (generationRoot : Root) : Nat :=
  (memory.pins.lookup generationRoot).getD 0

/-- The part of `_release_pin` after the lock: one pin less. -/
def decrementPins (generationRoot : Root) : Proc Unit := do
  let memory ← getMemory
  let count := memory.pinCount generationRoot
  if count ≤ 1 then
    setMemory { memory with pins := memory.pins.erase generationRoot }
  else setMemory { memory with pins := memory.pins.insert generationRoot (count - 1) }

def releasePin (generationRoot : Root) (pinFd : Nat) : Proc Unit :=
  (releasePinLock generationRoot pinFd).tryFinally (decrementPins generationRoot)

/-- The end of `pin`, after the pin lock was acquired: one pin more, and a lease. The answer is the
place of the lease. -/
def grantLease (config : StoreConfig) (nameSpace : Str) (generationRoot : Root)
    (manifest : GenerationManifest) (publicationSequence pinFd : Nat) : Proc Nat := do
  raiseIf ((← isRetired config generationRoot) = true)
    (storeError "retired generation cannot be pinned")
  let memory ← getMemory
  setMemory { memory with
    pins := memory.pins.insert generationRoot (memory.pinCount generationRoot + 1)
    leases := memory.leases ++ [⟨nameSpace, manifest, publicationSequence, pinFd, false⟩] }
  return memory.leases.length

/-- The generation that `pin` is asked for, and the sequence number of the current head. -/
def pinTarget (generationRoot : Option Str) (head : Option GenerationHead) : Check (Root × Nat) :=
  match generationRoot, head with
  | none, none => .error (storeError "namespace has no current generation")
  | none, some head => .ok (head.generationRoot, head.publicationSequence.val)
  | some text, head => do
    let root ← requireRoot "generation_root" (.str text)
    return (root, match head with | some head => head.publicationSequence.val | none => 0)

/-- The part of `pin` under the namespace lock. -/
def pinLocked (config : StoreConfig) (nameSpace : Str) (generationRoot : Option Str)
    (key : Digest) : Proc Nat := do
  let memory ← getMemory
  raiseIf (config.limits.maxReaderPins.val ≤ (memory.pins.entries.map (·.2)).sum)
    (storeFault "reader pin limit exceeded" .boundExceeded)
  let head ← currentHead config nameSpace key
  let (root, publicationSequence) ← pinTarget generationRoot head
  let (records, _) ← readPublicationRecords config nameSpace key false
  raiseIf (wasPublished records root = false)
    (storeFault "generation was never published in this namespace" .authorityRejected)
  let (manifest, _) ← verifyGeneration config root
  raiseIf (manifest.nameSpace.val ≠ nameSpace)
    (storeFault "pinned generation namespace mismatch" .identityMismatch)
  raiseIf ((← isRetired config root) = true) (storeError "retired generation cannot be pinned")
  let pinFd ← acquirePinLock config root
  (grantLease config nameSpace root manifest publicationSequence pinFd).onError
    (releasePinLock root pinFd)

/-- Keeps a generation from being retired. -/
def pin (config : StoreConfig) (nameSpace : Str) (generationRoot : Option Str) : Proc Nat :=
  withNamespaceLock config nameSpace (pinLocked config nameSpace generationRoot)

/-- `self._closed = True`. -/
def markClosed (lease : Nat) : Proc Unit := do
  let memory ← getMemory
  setMemory { memory with
    leases := memory.leases.modify lease fun l => { l with closed := true } }

/-- Closes a lease, at most once. -/
def close (lease : Nat) : Proc Unit := do
  let memory ← getMemory
  match memory.leases[lease]? with
  | none => return ()
  | some l =>
    if l.closed then return ()
    else (releasePin l.manifest.generationRoot l.pinFd).tryFinally (markClosed lease)

/-! ## Retirement -/

/-- The end of `retire`, with the exclusive pin lock held. -/
def writeRetirement (generationRoot : Root) (manifest : GenerationManifest)
    (published : GenerationLifecycleReceipt) : Proc GenerationLifecycleReceipt := do
  let receipt ← GenerationLifecycleReceipt.init (rootJson generationRoot)
    (rootJson manifest.manifestRoot) .retired (natJson 4) (rootJson published.receiptRoot)
  replaceFile (.receipt generationRoot .retired) receipt.encode
  return receipt

/-- The part of `retire` under the namespace lock. -/
def retireLocked (config : StoreConfig) (nameSpace : Str) (generationRoot : Root) (key : Digest) :
    Proc GenerationLifecycleReceipt := do
  let recovery ← recoverLocked config nameSpace key
  raiseIf (recovery.head.map (·.generationRoot) = some generationRoot)
    (storeError "CURRENT generation cannot be retired")
  let (manifest, published) ← verifyGeneration config generationRoot
  raiseIf (manifest.nameSpace.val ≠ nameSpace) (storeError "retirement namespace mismatch")
  let existing ← loadRetiredReceipt config generationRoot manifest published true
    (← readFile (.receipt generationRoot .retired))
  match existing with
  | some receipt => return receipt
  | none =>
    let pinFd ← (acquireAdvisoryLock config (.pin generationRoot) false 1).attempt fun
      | .ok fd => pure fd
      | .error (.conflict _) => throw (storeError "pinned generation cannot be retired")
      | .error e => throw e
    (writeRetirement generationRoot manifest published).tryFinally
      (releaseAdvisoryLock (.pin generationRoot) pinFd)

/-- Writes the receipt of the retirement. -/
def retire (config : StoreConfig) (nameSpace generationRoot : Str) :
    Proc GenerationLifecycleReceipt := do
  let root ← requireRoot "generation_root" (.str generationRoot)
  withNamespaceLock config nameSpace (retireLocked config nameSpace root)

end Store

end Generation
