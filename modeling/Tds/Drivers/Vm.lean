import Tds.Drivers.Bytecode

/-!
# Loading a package

The contract audit that a package passes before the virtual machine takes it, and the loader. The
fields of a contract that are only displayed are left out.
-/

namespace Drivers

open Python FileSystem
open Persistence (Items itemAt pyStr pyInt field asInt isText isText_iff)

structure VMInstructionContract where
  name : String
  opcode : Int
  cost : Int
  deterministic : Bool
  allowedDriverClasses : List String
  requiredCapability : Option String

def vmContracts : List VMInstructionContract :=
  [⟨"SCAN", 1, 4, true, ["search", "rank"], some "registry.scan"⟩,
    ⟨"READ", 2, 2, true, ["search", "extract", "rank", "adapter", "policy"], some "manifest.read"⟩,
    ⟨"MATCH", 3, 3, true, ["search", "extract", "rank", "policy"], none⟩,
    ⟨"EXTRACT", 4, 3, true, ["search", "extract", "rank"], none⟩,
    ⟨"SCORE", 5, 3, true, ["search", "rank"], none⟩,
    ⟨"EMIT", 6, 1, true, ["search", "extract", "rank", "adapter", "policy"], none⟩,
    ⟨"TRACE", 7, 1, true, ["search", "extract", "rank", "adapter", "policy"], some "trace.write"⟩,
    ⟨"HALT", 8, 1, true, ["search", "extract", "rank", "adapter", "policy"], none⟩]

/-- `_VM_CONTRACTS.get(name)`. -/
def contractOf (name : Str) : Option VMInstructionContract :=
  vmContracts.find? fun contract => name = lit contract.name

structure VMLoadedPackage where
  driverId : Str
  driverVersion : Int
  driverClass : Str
  instructionCount : Nat
  packageHash : Str
  costBudget : Int

inductive VMState where
  | empty | loaded | rejected | executionDisabled | executed
deriving DecidableEq

/-- A `DriverVMRuntime`. -/
structure DriverVM where
  maxInstructions : Int
  maxCost : Int
  state : VMState
  loaded : Option VMLoadedPackage
  package : Option BytecodePackage

section Load

variable [Runtime] [Objects] [Interpreter]

/-- `str(package.manifest.get("kind", default))`. -/
def kindOf (p : BytecodePackage) (default : Str) : Str := ((field p.manifest "kind").map pyStr).getD default

/-- The instruction is one for the class of the driver. -/
def auditInstruction (p : BytecodePackage) (driverClass : Str) (instr : BytecodeInstruction) :
    Checked Unit :=
  match contractOf instr.name with
  | none => reject (lit "missing VM contract for " ++ instr.name)
  | some contract => do
    rejectIf ((InstructionName.ofValue instr.name).isNone = true)
      (lit "missing grammar spec for " ++ instr.name)
    rejectIf (instr.opcode ≠ contract.opcode) (lit "VM contract opcode mismatch for " ++ instr.name)
    rejectIf (oneOf driverClass contract.allowedDriverClasses = false)
      (instr.name ++ lit " is not allowed for " ++ driverClass ++ lit " drivers")
    rejectIf (contract.requiredCapability.any (fun c => !declares p.capabilities (lit c)) = true)
      (instr.name ++ lit " requires capability " ++ lit (contract.requiredCapability.getD ""))
    rejectIf (contract.cost < 1) (instr.name ++ lit " has invalid VM cost")
    rejectIf (contract.deterministic = false)
      (instr.name ++ lit " must be deterministic in VM skeleton")

/-- The package is one that the machine may run. -/
def auditVmContract (p : BytecodePackage) : Checked Unit := do
  validateBytecodePackage p
  let driverClass := kindOf p []
  rejectIf (oneOf driverClass driverClasses = false)
    (lit "driver manifest kind is not a supported VM class")
  p.instructions.forM (auditInstruction p driverClass)

/-- `_instruction_cost`; the audit has found a contract for every instruction. -/
def instructionCost (name : Str) : Int := ((contractOf name).map (·.cost)).getD 0

/-- The package is audited and within the limits. -/
def validateLoad (p : BytecodePackage) (maxInstructions maxCost : Int) : Checked VMLoadedPackage := do
  auditVmContract p
  plainly (raiseIf (maxInstructions < p.instructions.length) .valueError
    (lit "instruction count exceeds VM limit"))
  let costBudget := (p.instructions.map fun instr => instructionCost instr.name).sum
  plainly (raiseIf (maxCost < costBudget) .valueError (lit "instruction cost exceeds VM limit"))
  let driverId ← plainly (driverIdOf p.header)
  let version ← plainly (driverVersion p.header)
  let driverClass ← plainly (subscript (.dict p.manifest) "kind")
  return ⟨driverId, version, pyStr driverClass, p.instructions.length, p.packageHash, costBudget⟩

/-- `DriverVMRuntime(max_instructions=..., max_cost=...)`. -/
def DriverVM.init (maxInstructions maxCost : Int) : Checked DriverVM := do
  plainly (raiseIf (maxInstructions < 1) .valueError (lit "max_instructions must be positive"))
  plainly (raiseIf (maxCost < 1) .valueError (lit "max_cost must be positive"))
  return ⟨maxInstructions, maxCost, .empty, none, none⟩

/-- A package that is refused leaves nothing loaded. -/
def DriverVM.load (vm : DriverVM) (p : BytecodePackage) : Checked VMLoadedPackage × DriverVM :=
  match validateLoad p vm.maxInstructions vm.maxCost with
  | .ok loaded => (.ok loaded, { vm with state := .loaded, loaded := some loaded, package := some p })
  | .error e => (.error e, { vm with state := .rejected, loaded := none, package := none })

end Load

end Drivers
