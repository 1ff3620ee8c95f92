import Tds.Drivers.Bytecode

/-!
# Manifests, signatures and the registry

The registry keeps one record per driver id. What is signed is the canonical payload of the manifest of
a record.
-/

namespace Drivers

open Python FileSystem

/-! ## Manifests -/

/-- How far a driver is trusted. -/
inductive DriverSafety where
  | bounded | quarantined | experimental
deriving DecidableEq

def DriverSafety.value : DriverSafety → Str
  | bounded => lit "bounded"
  | quarantined => lit "quarantined"
  | experimental => lit "experimental"

structure DriverManifest where
  driverId : Str
  version : Int
  kind : Str
  description : Str := []
  safety : DriverSafety := .bounded
  capabilities : List Str := []
  adapters : List Str := []
  parentId : Option Str := none
  generation : Int := 0

/-- `sep.join(texts)`. -/
def joinWith (sep : Nat) : List Str → Str
  | [] => []
  | [s] => s
  | s :: t :: rest => s ++ sep :: joinWith sep (t :: rest)

/-- `",".join(sorted(texts))`. -/
def joinSorted (texts : List Str) : Str := joinWith 44 (texts.insertionSort (· ≤ ·))

/-- The text that is signed. -/
def DriverManifest.canonicalPayload (manifest : DriverManifest) : Check Bytes :=
  encodeText (joinWith 10
    [lit "driver_id=" ++ manifest.driverId,
      lit "version=" ++ printInt manifest.version,
      lit "kind=" ++ manifest.kind,
      lit "description=" ++ manifest.description,
      lit "safety=" ++ manifest.safety.value,
      lit "capabilities=" ++ joinSorted manifest.capabilities,
      lit "adapters=" ++ joinSorted manifest.adapters,
      lit "parent_id=" ++ manifest.parentId.getD [],
      lit "generation=" ++ printInt manifest.generation])

/-- Whether a capability or an adapter is empty or has a blank. -/
def isBlankToken (s : Str) : Bool := s.isEmpty || s.contains 32

def validateManifest [Interpreter] (manifest : DriverManifest) : Check Unit := do
  raiseIf (manifest.driverId = [] ∨
      Interpreter.isAlnum (manifest.driverId.filter fun c => c ≠ 95 ∧ c ≠ 45) = false) .valueError
    (lit "driver_id must be non-empty and contain only alnum, hyphen or underscore")
  raiseIf (manifest.version < 1) .valueError (lit "version must be >= 1")
  raiseIf (oneOf manifest.kind driverClasses = false) .valueError
    (lit "kind must be one of ['adapter', 'extract', 'policy', 'rank', 'search']")
  raiseIf (manifest.generation < 0) .valueError (lit "generation must be >= 0")
  raiseIf (manifest.safety = .bounded ∧ manifest.capabilities = []) .valueError
    (lit "bounded drivers must declare at least one capability")
  raiseIf (manifest.capabilities.any isBlankToken = true) .valueError
    (lit "capabilities must be non-empty dotted tokens")
  raiseIf (manifest.adapters.any isBlankToken = true) .valueError
    (lit "adapters must be non-empty dotted tokens")

/-! ## Signatures -/

inductive SignatureVerdict where
  | accept | unsigned | badSignature | unknownSigner | revoked
deriving DecidableEq

def SignatureVerdict.value : SignatureVerdict → Str
  | accept => lit "accept"
  | unsigned => lit "unsigned"
  | badSignature => lit "bad_signature"
  | unknownSigner => lit "unknown_signer"
  | revoked => lit "revoked"

section Signing

variable [Runtime]

/-- `hmac.new(key, message, hashlib.sha256).digest()`. -/
def hmacSha256 (key message : Bytes) : Digest :=
  let short := if 64 < key.length then (sha256 key).bytes else key
  let block := short ++ List.replicate (64 - short.length) 0
  sha256 (block.map (· ^^^ 0x5c) ++ (sha256 (block.map (· ^^^ 0x36) ++ message)).bytes)

/-- `tds-sig-v1:<signer>:<hex>`. -/
def signPayload (payload : Bytes) (signer : Str) (secret : Bytes) : Check Str := do
  let name ← encodeText signer
  return lit "tds-sig-v1:" ++ signer ++ 58 :: (hmacSha256 secret (name ++ 0 :: payload)).hex

/-- `hmac.compare_digest` of two strings, which have to be ASCII. -/
def compareDigest (a b : Str) : Check Bool := do
  raiseIf ((a ++ b).any (fun c => 128 ≤ c) = true) .typeError
    (lit "comparing strings with non-ASCII characters is not supported")
  return a = b

def verifySignature (payload : Bytes) (signature signer : Str) (secret : Bytes) : Check Bool := do
  let expected ← signPayload payload signer secret
  compareDigest expected signature

/-- The text before and after the first occurrence of a character. -/
def cut (sep : Nat) : Str → Option (Str × Str)
  | [] => none
  | c :: t => if c = sep then some ([], t) else (cut sep t).map fun parts => (c :: parts.1, parts.2)

/-- The signers that are trusted, and what was revoked. -/
structure SignaturePolicy where
  signerSecrets : PyDict Str Bytes := []
  revokedSignatures : List Str := []

namespace SignaturePolicy

def approveSigner (policy : SignaturePolicy) (signer : Str) (secret : Bytes) : SignaturePolicy :=
  { policy with signerSecrets := policy.signerSecrets.set signer secret }

def revoke (policy : SignaturePolicy) (signature : Str) : SignaturePolicy :=
  { policy with revokedSignatures := signature :: policy.revokedSignatures }

/-- The signer that a signature names. -/
def signerOf (signature : Str) : Option Str := do
  let (scheme, rest) ← cut 58 signature
  let (signer, _) ← cut 58 rest
  if scheme = lit "tds-sig-v1" then some signer else none

/-- The verdict on a signature of a payload. -/
def evaluate (policy : SignaturePolicy) (payload : Bytes) (signature : Option Str) :
    Check SignatureVerdict :=
  match signature with
  | none => .ok .unsigned
  | some signature =>
    if signature = [] then .ok .unsigned
    else if signature ∈ policy.revokedSignatures then .ok .revoked
    else match signerOf signature with
      | none => .ok .badSignature
      | some signer =>
        match policy.signerSecrets.get signer with
        | none => .ok .unknownSigner
        | some secret => do
          let verified ← verifySignature payload signature signer secret
          return if verified then .accept else .badSignature

end SignaturePolicy

end Signing

/-! ## The registry -/

inductive DriverState where
  | draft | candidate | quarantined | approved | signed | active | retired | revoked
deriving DecidableEq

def DriverState.value : DriverState → Str
  | draft => lit "draft"
  | candidate => lit "candidate"
  | quarantined => lit "quarantined"
  | approved => lit "approved"
  | signed => lit "signed"
  | active => lit "active"
  | retired => lit "retired"
  | revoked => lit "revoked"

structure DriverRecord where
  manifest : DriverManifest
  state : DriverState := .draft
  signature : Option Str := none
  testReportHash : Option Str := none

/-- The drivers by their ids. -/
structure DriverRegistry where
  signaturePolicy : SignaturePolicy := {}
  records : PyDict Str DriverRecord := []

/-- `raise RegistryError(message)`. -/
def registryError {α : Type} (message : Str) : Checked α := .error (.registry message)

/-- `if condition: raise RegistryError(message)`. -/
def registryErrorIf (condition : Prop) [Decidable condition] (message : Str) : Checked Unit :=
  if condition then registryError message else .ok ()

namespace DriverRegistry

def require (registry : DriverRegistry) (driverId : Str) : Checked DriverRecord :=
  match registry.records.get driverId with
  | some record => .ok record
  | none => registryError (lit "unknown driver: " ++ driverId)

def put (registry : DriverRegistry) (driverId : Str) (record : DriverRecord) : DriverRegistry :=
  { registry with records := registry.records.set driverId record }

section Calls

variable [Runtime] [Interpreter]

/-- Files a manifest as a candidate, over any record. -/
def addCandidate (registry : DriverRegistry) (manifest : DriverManifest)
    (testReportHash : Option Str) : Checked DriverRegistry := do
  plainly (validateManifest manifest)
  return registry.put manifest.driverId
    { manifest := manifest, state := .candidate, testReportHash := testReportHash }

/-- A candidate with a test report is approved. -/
def approve (registry : DriverRegistry) (driverId : Str) : Checked DriverRegistry := do
  let record ← registry.require driverId
  registryErrorIf (record.state ≠ .candidate) (lit "only candidate drivers can be approved")
  registryErrorIf (record.testReportHash.getD [] = [])
    (lit "candidate driver must have a test report before approval")
  return registry.put driverId { record with state := .approved }

/-- The check of a signature against the payload of a manifest. -/
def checkSignature (registry : DriverRegistry) (manifest : DriverManifest) (signature : Option Str) :
    Checked Unit := do
  let payload ← plainly manifest.canonicalPayload
  let verdict ← plainly (registry.signaturePolicy.evaluate payload signature)
  registryErrorIf (verdict ≠ .accept) (lit "signature rejected: " ++ verdict.value)

/-- Attaches a signature that is accepted. -/
def attachSignature (registry : DriverRegistry) (driverId signature : Str) : Checked DriverRegistry := do
  let record ← registry.require driverId
  registryErrorIf (record.state ≠ .approved) (lit "only approved drivers can be signed")
  registry.checkSignature record.manifest (some signature)
  return registry.put driverId { record with signature := some signature, state := .signed }

def activate (registry : DriverRegistry) (driverId : Str) : Checked DriverRegistry := do
  let record ← registry.require driverId
  registryErrorIf (record.state ≠ .signed) (lit "only signed drivers can be activated")
  registry.checkSignature record.manifest record.signature
  return registry.put driverId { record with state := .active }

/-- A revoked driver is not retired. -/
def retire (registry : DriverRegistry) (driverId : Str) : Checked DriverRegistry := do
  let record ← registry.require driverId
  registryErrorIf (record.state = .revoked) (lit "revoked drivers cannot be retired")
  return registry.put driverId { record with state := .retired }

/-- Revokes a driver and its signature. -/
def revoke (registry : DriverRegistry) (driverId : Str) : Checked DriverRegistry := do
  let record ← registry.require driverId
  let policy := match record.signature with
    | none => registry.signaturePolicy
    | some signature =>
      if signature = [] then registry.signaturePolicy else registry.signaturePolicy.revoke signature
  return { registry with signaturePolicy := policy }.put driverId { record with state := .revoked }

end Calls

end DriverRegistry

end Drivers
