import Tds.Drivers.Manager

/-!
# The Driver Foundry

`submit_candidate` files a package that was audited as a candidate of the registry. Of a result of the
Foundry, the context, the metrics and the repair hints are only displayed and are left out; the driver
version that the context reads is not, since reading it may raise.
-/

namespace Drivers

open Python FileSystem
open Persistence (Items itemAt pyStr pyInt field asInt isText isText_iff)

inductive FoundryStage where
  | propose | validate | compile | audit | test | candidate
deriving DecidableEq

inductive FoundryStatus where
  | accepted | validated | compiled | audited | tested | candidateSubmitted | sourceRejected
  | packageRejected | testFailed | inputRejected | policyRejected | internalError
deriving DecidableEq

structure FoundryFault where
  code : String
  message : Str
  stage : FoundryStage
  recoverable : Bool

structure DriverFoundryResult where
  ok : Bool
  stage : FoundryStage
  status : FoundryStatus
  reason : Str
  faults : List FoundryFault := []
  registryState : Option DriverState := none

/-- `DriverFoundryPolicy`, as far as submissions read it. -/
structure DriverFoundryPolicy where
  allowCandidateSubmission : Bool := true
  allowSigning : Bool := false
  allowActivation : Bool := false
  requireTestSuccessForCandidate : Bool := true

/-- A `DriverVMResult` with the parts that a test report is made of, and the package that it names. -/
structure DriverTest extends DriverVMResult where
  metrics : Items
  packageHash : Option Str
  driverId : Option Str
  driverVersion : Option Int

def VMStatus.value : VMStatus → Str
  | notLoaded => lit "not_loaded"
  | loaded => lit "loaded"
  | halted => lit "halted"
  | faulted => lit "faulted"
  | rejected => lit "rejected"
  | inputRejected => lit "input_rejected"
  | policyRejected => lit "policy_rejected"
  | budgetExceeded => lit "budget_exceeded"
  | instructionLimitExceeded => lit "instruction_limit_exceeded"
  | executionDisabled => lit "execution_disabled"
  | internalError => lit "internal_error"

/-- `DriverSafety(text)`. -/
def DriverSafety.ofValue [Objects] (text : Str) : Check DriverSafety :=
  if text = DriverSafety.bounded.value then .ok .bounded
  else if text = DriverSafety.quarantined.value then .ok .quarantined
  else if text = DriverSafety.experimental.value then .ok .experimental
  else raise .valueError (Objects.reprOf (.str text) ++ lit " is not a valid DriverSafety")

section Foundry

variable [Runtime] [Objects] [Interpreter]

/-- `_result`. -/
def foundryResult (p : BytecodePackage) (result : DriverFoundryResult) : Checked DriverFoundryResult := do
  let _ ← plainly (versionOf p)
  return result

def faultResult (p : BytecodePackage) (stage : FoundryStage) (status : FoundryStatus) (code : String)
    (message : Str) (recoverable : Bool) : Checked DriverFoundryResult :=
  foundryResult p
    { ok := false, stage := stage, status := status, reason := message
      faults := [⟨code, message, stage, recoverable⟩] }

def withStage (p : BytecodePackage) (result : DriverFoundryResult) (stage : FoundryStage) :
    Checked DriverFoundryResult :=
  foundryResult p
    { result with stage := stage, faults := result.faults.map ({ · with stage := stage }) }

def auditDriver (p : BytecodePackage) : Checked DriverFoundryResult :=
  match auditVmContract p with
  | .ok () => foundryResult p
      { ok := true, stage := .audit, status := .audited
        reason := lit "bytecode package passed VM contract audit" }
  | .error e =>
    if e.isValueError then
      faultResult p .audit .packageRejected "foundry.package_rejected" e.message true
    else
      faultResult p .audit .internalError "foundry.internal_error"
        (lit "internal Foundry audit error: " ++ e.message) false

/-- The manifest that a package declares. -/
def manifestFromPackage (p : BytecodePackage) : Check DriverManifest := do
  let driverId ← driverIdOf p.header
  let version ← driverVersion p.header
  let kind ← subscript (.dict p.manifest) "kind"
  let safety ← DriverSafety.ofValue (((field p.manifest "safety").map pyStr).getD (lit "bounded"))
  return { driverId := driverId
           version := version
           kind := pyStr kind
           description := ((field p.manifest "description").map pyStr).getD []
           safety := safety
           capabilities := p.capabilities.map pyStr
           adapters := p.adapters.map pyStr }

/-- The payload of `_test_report_hash`: the hash is that of the package, the rest is from the result. -/
def testReport (p : BytecodePackage) (test : Option DriverTest) : List (Str × Value) :=
  [(lit "package_hash", .str p.packageHash),
    (lit "vm_ok", (test.map fun t => .bool t.ok).getD .none),
    (lit "vm_status", (test.map fun t => .str t.status.value).getD .none),
    (lit "vm_reason", (test.map fun t => .str t.reason).getD .none),
    (lit "vm_metrics", .dict ((test.map DriverTest.metrics).getD [])),
    (lit "faults", .list ((test.map fun t =>
      t.faults.map fun fault => .str (lit fault.code)).getD []))]

def testReportHash (p : BytecodePackage) (test : Option DriverTest) : Check Str := do
  let json ← (Value.record (testReport p test)).toJson
  let raw ← encodeText (jsonText json)
  return (sha256 raw).hex

/-- The ways out of `submit_candidate` before the registry is asked; `ok` goes on. -/
def submissionGate (policy : DriverFoundryPolicy) (p : BytecodePackage) (test : Option DriverTest) :
    Except (Checked DriverFoundryResult) Unit :=
  if policy.allowCandidateSubmission = false then
    .error (faultResult p .candidate .policyRejected "foundry.policy.candidate_disabled"
      (lit "candidate submission is disabled by Foundry policy") true)
  else if policy.allowSigning = true ∨ policy.allowActivation = true then
    .error (faultResult p .candidate .policyRejected "foundry.policy.invalid_authority"
      (lit "DriverFoundry policy may not grant signing or activation authority") false)
  else if policy.requireTestSuccessForCandidate = true ∧ test.any (·.ok) = false then
    .error (faultResult p .candidate .testFailed "foundry.candidate.requires_successful_test"
      (lit "candidate submission requires a successful DriverVMResult") true)
  else
    match auditDriver p with
    | .error e => .error (.error e)
    | .ok audit => if audit.ok then .ok () else .error (withStage p audit .candidate)

/-- The manifest that is submitted, and the hash of its test report. -/
def candidateOf (p : BytecodePackage) (test : Option DriverTest) : Checked (DriverManifest × Str) := do
  let manifest ← plainly (manifestFromPackage p)
  let report ← plainly (testReportHash p test)
  return (manifest, report)

def submitCandidate (policy : DriverFoundryPolicy) (p : BytecodePackage) (registry : DriverRegistry)
    (test : Option DriverTest) : Checked DriverFoundryResult × DriverRegistry :=
  match submissionGate policy p test with
  | .error result => (result, registry)
  | .ok () =>
    let filed : Checked DriverRegistry := do
      let (manifest, report) ← candidateOf p test
      registry.addCandidate manifest (some report)
    match filed with
    | .ok registry => (foundryResult p
        { ok := true, stage := .candidate, status := .candidateSubmitted
          reason := lit
            "driver package submitted as registry candidate; approval/signing/activation remain external"
          registryState := some .candidate }, registry)
    | .error e =>
      (faultResult p .candidate .policyRejected "foundry.registry_rejected" e.message true, registry)

end Foundry

/-! ## Sequences of calls -/

/-- What can be asked of a registry. -/
inductive RegistryCall where
  | addCandidate (manifest : DriverManifest) (testReportHash : Option Str)
  | submitCandidate (policy : DriverFoundryPolicy) (p : BytecodePackage) (test : Option DriverTest)
  | approve (driverId : Str)
  | attachSignature (driverId signature : Str)
  | activate (driverId : Str)
  | retire (driverId : Str)
  | revoke (driverId : Str)
  /-- `registry.signature_policy.approve_signer`. -/
  | approveSigner (signer : Str) (secret : Bytes)
  /-- `registry.signature_policy.revoke`. -/
  | revokeSignature (signature : Str)

/-- The call may file a candidate. -/
def RegistryCall.IsSubmission : RegistryCall → Prop
  | addCandidate _ _ | submitCandidate _ _ _ => True
  | _ => False

namespace DriverRegistry

section Runs

variable [Runtime] [Objects] [Interpreter]

def orSame (registry : DriverRegistry) (result : Checked DriverRegistry) : DriverRegistry :=
  match result with
  | .ok after => after
  | .error _ => registry

def step (registry : DriverRegistry) : RegistryCall → DriverRegistry
  | .addCandidate manifest report => registry.orSame (registry.addCandidate manifest report)
  | .submitCandidate policy p test => (Drivers.submitCandidate policy p registry test).2
  | .approve driverId => registry.orSame (registry.approve driverId)
  | .attachSignature driverId signature => registry.orSame (registry.attachSignature driverId signature)
  | .activate driverId => registry.orSame (registry.activate driverId)
  | .retire driverId => registry.orSame (registry.retire driverId)
  | .revoke driverId => registry.orSame (registry.revoke driverId)
  | .approveSigner signer secret =>
    { registry with signaturePolicy := registry.signaturePolicy.approveSigner signer secret }
  | .revokeSignature signature =>
    { registry with signaturePolicy := registry.signaturePolicy.revoke signature }

def after (policy : SignaturePolicy) (calls : List RegistryCall) : DriverRegistry :=
  calls.foldl step { signaturePolicy := policy }

/-- The manifest that a call files as a candidate, if it does. -/
def filedBy : RegistryCall → Option DriverManifest
  | .addCandidate manifest _ =>
    match validateManifest manifest with
    | .ok _ => some manifest
    | .error _ => none
  | .submitCandidate policy p test =>
    match submissionGate policy p test, candidateOf p test with
    | .ok (), .ok (manifest, _) =>
      match validateManifest manifest with
      | .ok _ => some manifest
      | .error _ => none
    | _, _ => none
  | _ => none

end Runs

end DriverRegistry

/-- A driver is moved on, never back. -/
inductive DriverState.Forward : DriverState → DriverState → Prop
  | stay (s : DriverState) : Forward s s
  | approve : Forward .candidate .approved
  | sign : Forward .approved .signed
  | activate : Forward .signed .active
  | retire {s : DriverState} (h : s ≠ .revoked) : Forward s .retired
  | revoke (s : DriverState) : Forward s .revoked

/-- A driver that is no longer a candidate. -/
def DriverState.Advanced (s : DriverState) : Prop :=
  s = .approved ∨ s = .signed ∨ s = .active ∨ s = .retired ∨ s = .revoked

section Law

variable [Runtime] [Objects] [Interpreter]

open DriverRegistry

/-- What a sequence of calls on a new registry owes its drivers. -/
structure TrustLaw (policy : SignaturePolicy) (calls : List RegistryCall) : Prop where
  /-- Every call moves every driver forward, or leaves it. -/
  forward : ∀ before call rest, calls = before ++ call :: rest → ∀ driverId record,
    (after policy before).records.get driverId = some record → ∃ record',
      ((after policy before).step call).records.get driverId = some record' ∧
        record.state.Forward record'.state
  /-- A submission leaves the record of a driver alone that is no longer a candidate. -/
  submissions : ∀ before call rest, calls = before ++ call :: rest → call.IsSubmission →
    ∀ driverId record, (after policy before).records.get driverId = some record →
      record.state.Advanced → ((after policy before).step call).records.get driverId = some record
  /-- A manifest that was revoked is never active later. -/
  revoked : ∀ before between rest, calls = before ++ between ++ rest → ∀ driverId record,
    (after policy before).records.get driverId = some record → record.state = .revoked →
      ∀ driverId' record', (after policy (before ++ between)).records.get driverId' = some record' →
        record'.manifest = record.manifest → record'.state ≠ .active

/-- No call files a candidate over a driver that is no longer one. -/
def NoOverwrite (policy : SignaturePolicy) (calls : List RegistryCall) : Prop :=
  ∀ before call rest, calls = before ++ call :: rest → ∀ manifest record, filedBy call = some manifest →
    (after policy before).records.get manifest.driverId = some record → ¬record.state.Advanced

end Law

end Drivers
