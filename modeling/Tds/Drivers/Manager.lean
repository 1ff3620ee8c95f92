import Tds.Drivers.Registry
import Tds.Drivers.Vm

/-!
# The Runtime Manager

`DriverRuntimeManager.execute_package` lets a package through its gates and then to the virtual machine.
What the machine makes of a loaded package is a parameter here. The identifiers and hashes of the
evidence that only name it are left out, as is the comparison of the snapshot with its copy: the machine
works on a copy of its own.
-/

namespace Drivers

open Python FileSystem
open Persistence (Items itemAt pyStr pyInt field asInt isText isText_iff)

inductive RuntimeManagerStatus where
  | executed | packageRejected | policyRejected | registryRejected | signatureRejected
  | inputRejected | runtimeFaulted | internalError
deriving DecidableEq

structure RuntimeManagerFault where
  code : String
  message : Str
  recoverable : Bool := true

structure RuntimeManagerPolicy where
  maxCost : Int := 100000
  maxInstructions : Int := 1024
  maxSnapshotRecords : Int := 100000
  allowedDriverClasses : List Str := driverClasses.map lit
  allowedCapabilities : Option (List Str) := none
  deniedCapabilities : List Str :=
    ["storage.write", "python.exec", "policy.bypass", "external.io"].map lit
  requireRegistryActive : Bool := false
  requireSignatureAccept : Bool := false
  requireTraceComplete : Bool := true

inductive VMStatus where
  | notLoaded | loaded | halted | faulted | rejected | inputRejected | policyRejected
  | budgetExceeded | instructionLimitExceeded | executionDisabled | internalError
deriving DecidableEq

/-- The parts of a `DriverVMResult` that the manager reads. -/
structure DriverVMResult where
  ok : Bool
  status : VMStatus
  reason : Str
  trace : List Str
  faults : List RuntimeManagerFault

structure DriverExecutionEvidence where
  ok : Bool
  status : RuntimeManagerStatus
  reason : Str
  registryState : Option DriverState := none
  signatureVerdict : Option SignatureVerdict := none
  vmResult : Option DriverVMResult := none
  faults : List RuntimeManagerFault := []
  traceComplete : Bool := false
  recommendation : String

section Snapshot

variable [Objects]

/-- The records of `_normalize_snapshot`. -/
def snapshotItems (maxRecords : Int) (records : List Value) : Except Str (List Items) :=
  if maxRecords < records.length then .error (lit "runtime fixtures.records exceeds max_snapshot_records")
  else records.mapM fun
    | .dict items => .ok items
    | _ => .error (lit "runtime fixtures.records items must be mappings")

/-- `_normalize_snapshot(fixtures or {})`; the error is a `_SnapshotError`. -/
def normalizeSnapshot (fixtures : Value) (maxRecords : Int) : Except Str (List Items) :=
  if fixtures.truthy = false then snapshotItems maxRecords []
  else match fixtures with
    | .dict items =>
      match field items "records" with
      | none => snapshotItems maxRecords []
      | some .none => snapshotItems maxRecords []
      | some (.list records) => snapshotItems maxRecords records
      | some (.tuple records) => snapshotItems maxRecords records
      | some _ => .error (lit "runtime fixtures.records must be a sequence of mappings")
    | _ => .error (lit "runtime fixtures must be a mapping")

mutual

/-- `_normalize_json`, with the texts that `json.dumps` takes from `default=str`. -/
def reportValue : Value → Value
  | .list items => .list (reportItems items)
  | .tuple items => .list (reportItems items)
  | .dict items => .record (dictOf (sortByKey (reportFields items)))
  | .bytes b => .str (Objects.strOf (.bytes b))
  | .object id => .str (Objects.strOf (.object id))
  | value => value

def reportItems : List Value → List Value
  | [] => []
  | v :: vs => reportValue v :: reportItems vs

def reportFields : List (Value × Value) → List (Str × Value)
  | [] => []
  | (k, v) :: rest => (pyStr k, reportValue v) :: reportFields rest

end

variable [Runtime]

def snapshotHash (snapshot : List Items) : Check Str := do
  let json ← (reportValue (.record [(lit "records", .list (snapshot.map .dict))])).toJson
  let raw ← encodeText (jsonText json)
  return hashOf raw

def sessionMaterial (packageHash snapshotHash : Str) : Check Bytes :=
  encodeText (packageHash ++ 0 :: snapshotHash)

end Snapshot

/-! ## Gates -/

/-- Why a package is not executed, and what is known of it by then. -/
structure Refusal where
  status : RuntimeManagerStatus
  fault : RuntimeManagerFault
  registryState : Option DriverState := none
  signatureVerdict : Option SignatureVerdict := none
  recommendation : String := "reject"

/-- What is known of a package that is admitted. -/
structure Admission where
  snapshot : List Items
  registryState : Option DriverState
  signatureVerdict : Option SignatureVerdict

abbrev Gate := Except Refusal

/-- `return self._evidence(ok=False, ...)`. -/
def refuse {α : Type} (status : RuntimeManagerStatus) (code : String) (message : Str) : Gate α :=
  .error { status := status, fault := ⟨code, message, true⟩ }

/-- The refusal of `except Exception`. -/
def internalError {α : Type} (message : Str) : Gate α :=
  .error { status := .internalError,
           fault := ⟨"runtime.internal_error", lit "internal Runtime Manager error: " ++ message, false⟩ }

def Fault.message : Fault → Str
  | validation message => message
  | registry message => message
  | exception e => e.message

/-- An exception ends in `except Exception`. -/
def guarded {α : Type} (x : Checked α) : Gate α :=
  match x with
  | .ok a => .ok a
  | .error e => internalError e.message

/-- `isinstance(exc, ValueError)`; `TDDLValidationError` and the encoding errors are subclasses. -/
def Fault.isValueError : Fault → Bool
  | validation _ => true
  | registry _ => false
  | exception e => e.type = .valueError ∨ e.type = .unicodeEncodeError ∨ e.type = .unicodeDecodeError

section Gates

variable [Runtime] [Objects] [Interpreter]

/-- The package passes the audit. -/
def packageGate (p : BytecodePackage) : Gate Unit :=
  match auditVmContract p with
  | .ok () => .ok ()
  | .error e =>
    if e.isValueError then refuse .packageRejected "runtime.package_rejected" e.message
    else internalError e.message

/-- The class and the capabilities are allowed. -/
def capabilityGate (policy : RuntimeManagerPolicy) (p : BytecodePackage) : Gate Unit :=
  let capabilities := p.capabilities.map pyStr
  let driverClass := kindOf p (lit "None")
  let denied := capabilities.filter (policy.deniedCapabilities.contains ·)
  let outside := match policy.allowedCapabilities with
    | none => []
    | some allowed => capabilities.filter fun cap => !allowed.contains cap
  let shown := fun texts : List Str =>
    Objects.reprOf (.list ((texts.insertionSort (· ≤ ·)).map .str))
  if driverClass ∉ policy.allowedDriverClasses then
    refuse .policyRejected "runtime.policy.driver_class"
      (lit "driver class is not allowed by runtime policy: " ++ driverClass)
  else if denied ≠ [] then
    refuse .policyRejected "runtime.policy.denied_capability"
      (lit "driver declares denied capabilities: " ++ shown denied)
  else if outside ≠ [] then
    refuse .policyRejected "runtime.policy.capability_not_allowed"
      (lit "driver declares capabilities outside runtime allow-list: " ++ shown outside)
  else .ok ()

/-- A refusal that tells the state of the record. -/
def refuseRecord {α : Type} (status : RuntimeManagerStatus) (code : String) (message : Str)
    (state : Option DriverState) (verdict : Option SignatureVerdict) : Gate α :=
  .error { status := status, fault := ⟨code, message, true⟩, registryState := state,
           signatureVerdict := verdict }

/-- `int(package.header.get("driver_version", 0))`. -/
def versionOf (p : BytecodePackage) : Check Int := pyInt ((field p.header "driver_version").getD (.int 0))

/-- `str(package.header.get("driver_id"))`. -/
def idOf (p : BytecodePackage) : Str := ((field p.header "driver_id").map pyStr).getD (lit "None")

/-- The checks of `_registry_gate` for the record of the driver. -/
def recordGate (policy : RuntimeManagerPolicy) (registry : DriverRegistry) (record : DriverRecord)
    (p : BytecodePackage) : Gate (Option DriverState × Option SignatureVerdict) := do
  let version ← guarded (plainly (versionOf p))
  if record.manifest.version ≠ version then
    refuseRecord .registryRejected "runtime.registry.version_mismatch"
      (lit "registry manifest version does not match package header") (some record.state) none
  else if record.manifest.kind ≠ kindOf p (lit "None") then
    refuseRecord .registryRejected "runtime.registry.kind_mismatch"
      (lit "registry manifest kind does not match package manifest") (some record.state) none
  else if policy.requireRegistryActive ∧ record.state ≠ .active then
    refuseRecord .registryRejected "runtime.registry.not_active"
      (lit "runtime policy requires active driver state, found " ++ record.state.value)
      (some record.state) none
  else do
    let payload ← guarded (plainly record.manifest.canonicalPayload)
    let verdict ← guarded (plainly (registry.signaturePolicy.evaluate payload record.signature))
    if policy.requireSignatureAccept ∧ verdict ≠ .accept then
      refuseRecord .signatureRejected "runtime.signature.rejected"
        (lit "runtime policy requires accepted signature, found " ++ verdict.value)
        (some record.state) (some verdict)
    else return (some record.state, some verdict)

/-- The registry trusts the driver, if the policy asks for it. -/
def registryGate (policy : RuntimeManagerPolicy) (registry : Option DriverRegistry)
    (p : BytecodePackage) : Gate (Option DriverState × Option SignatureVerdict) :=
  if policy.requireRegistryActive = false ∧ policy.requireSignatureAccept = false then
    .ok (none, none)
  else match registry with
    | none => refuse .registryRejected "runtime.registry.required"
        (lit "runtime policy requires registry trust but no registry was supplied")
    | some registry =>
      match registry.records.get (idOf p) with
      | none => refuse .registryRejected "runtime.registry.unknown_driver"
          (lit "unknown driver: " ++ idOf p)
      | some record => recordGate policy registry record p

/-- The fixtures are records that can be hashed. -/
def snapshotGate (policy : RuntimeManagerPolicy) (p : BytecodePackage) (fixtures : Value) :
    Gate (List Items) :=
  match normalizeSnapshot fixtures policy.maxSnapshotRecords with
  | .error message => .error
      { status := .inputRejected, fault := ⟨"runtime.input_rejected", message, true⟩
        recommendation := "hold" }
  | .ok snapshot => do
    let hash ← guarded (plainly (snapshotHash snapshot))
    let _ ← guarded (plainly (sessionMaterial p.packageHash hash))
    return snapshot

/-- `vm.load(package)` of a new machine. -/
def loadGate (policy : RuntimeManagerPolicy) (p : BytecodePackage) : Gate Unit := do
  let vm ← guarded (DriverVM.init policy.maxInstructions policy.maxCost)
  let _ ← guarded (vm.load p).1

/-- `execute_package` up to the call of `vm.execute`. -/
def admitPackage (policy : RuntimeManagerPolicy) (p : BytecodePackage) (fixtures : Value)
    (registry : Option DriverRegistry) : Gate Admission := do
  let snapshot ← snapshotGate policy p fixtures
  packageGate p
  capabilityGate policy p
  let (state, verdict) ← registryGate policy registry p
  (loadGate policy p).mapError fun refusal =>
    { refusal with registryState := state, signatureVerdict := verdict }
  return ⟨snapshot, state, verdict⟩

def traceComplete (result : DriverVMResult) : Bool :=
  result.ok && result.status = .halted && result.trace.getLast? = some (lit "HALT")

def statusForVmResult (result : DriverVMResult) : RuntimeManagerStatus :=
  match result.status with
  | .inputRejected => .inputRejected
  | .rejected | .notLoaded | .policyRejected => .policyRejected
  | .internalError => .internalError
  | _ => .runtimeFaulted

def executionEvidence (policy : RuntimeManagerPolicy) (admission : Admission) (result : DriverVMResult) :
    DriverExecutionEvidence :=
  let complete := traceComplete result
  let faults := result.faults ++
    if policy.requireTraceComplete ∧ result.ok ∧ complete = false then
      [⟨"runtime.trace_incomplete",
        lit "successful runtime execution did not produce a complete HALT trace", false⟩]
    else []
  let ok := result.ok && faults.all (·.recoverable)
  { ok := ok
    status := if ok then .executed else statusForVmResult result
    reason := if ok then lit "managed driver execution produced approval-grade evidence"
      else result.reason
    registryState := admission.registryState
    signatureVerdict := admission.signatureVerdict
    vmResult := some result
    faults := faults
    traceComplete := complete
    recommendation := if ok then "candidate_ready" else "hold" }

/-- The evidence of a refusal. For a package that was read, it has the driver version, and so ends in the
handler of `execute_package` if that is no number. -/
def refusalEvidence (p : BytecodePackage) (refusal : Refusal) : DriverExecutionEvidence :=
  let refusal := match refusal.status, versionOf p with
    | .inputRejected, _ | .internalError, _ | _, .ok _ => refusal
    | _, .error e =>
      { refusal with
        status := .internalError
        fault := ⟨"runtime.internal_error", lit "internal Runtime Manager error: " ++ e.message, false⟩
        recommendation := "reject" }
  { ok := false
    status := refusal.status
    reason := refusal.fault.message
    registryState := refusal.registryState
    signatureVerdict := refusal.signatureVerdict
    faults := [refusal.fault]
    recommendation := refusal.recommendation }

/-- `execute_package`, for a machine that does `execute` with a loaded package. -/
def executePackage (execute : BytecodePackage → List Items → DriverVMResult)
    (policy : RuntimeManagerPolicy) (p : BytecodePackage) (fixtures : Value)
    (registry : Option DriverRegistry) : DriverExecutionEvidence :=
  match admitPackage policy p fixtures registry with
  | .ok admission => executionEvidence policy admission (execute p admission.snapshot)
  | .error refusal => refusalEvidence p refusal

end Gates

end Drivers
