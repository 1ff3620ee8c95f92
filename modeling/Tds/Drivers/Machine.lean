import Tds.Drivers.Foundry
import Tds.Persistence.Mount

/-!
# Running a package

`DriverVMRuntime.execute` goes through the instructions of the package that is loaded. What a single
instruction does to the context is a parameter here. The context, the events and the emitted records
of a result are left out.
-/

namespace Drivers

open Python FileSystem
open Persistence (Items field)

structure RuntimeContext where
  records : List Items
  current : List Items
  readTarget : Option Str := none
  extracted : List Items := []
  traceEvents : List Items := []
  costUsed : Int := 0
  halted : Bool := false

/-- What executing an instruction may raise. -/
inductive Interruption where
  /-- `_VMRuntimeFault`. -/
  | fault (status : VMStatus) (fault : RuntimeManagerFault)
  /-- Any other exception, with its text. -/
  | exception (message : Str)

/-- `_execute_instruction`: whether it raises, and the context that it leaves. -/
abbrev InstructionSet :=
  Str → Items → RuntimeContext → Nat → Except Interruption Unit × RuntimeContext

/-- `_result`. -/
def vmResult (ok : Bool) (status : VMStatus) (reason : Str) (loaded : Option VMLoadedPackage) (maxCost : Int)
    (ctx : Option RuntimeContext) (trace : List Str) (faults : List RuntimeManagerFault)
    (incomplete : Bool) : DriverTest where
  ok := ok
  status := status
  reason := reason
  trace := trace
  faults := faults
  metrics :=
    [("cost_used", .int ((ctx.map (·.costUsed)).getD 0)), ("max_cost", .int maxCost),
      ("records_seen", .int ((ctx.map (·.records.length)).getD 0)),
      ("current_count", .int ((ctx.map (·.current.length)).getD 0)),
      ("emitted_count", .int ((ctx.map (·.extracted.length)).getD 0)),
      ("fault_count", .int faults.length), ("partial", .bool incomplete),
      ("status", .str status.value)].map fun metric => (.str (lit metric.1), metric.2)
  packageHash := loaded.map (·.packageHash)
  driverId := loaded.map (·.driverId)
  driverVersion := loaded.map (·.driverVersion)

def inputFault (code message : String) : Interruption :=
  .fault .inputRejected ⟨code, lit message, false⟩

/-- `_normalize_records((inputs or {}).get("records", ()))`. -/
def normalizeRecords (inputs : Option Items) : Except Interruption (List Items) :=
  match inputs.bind (field · "records") with
  | none => .ok []
  | some .none => .ok []
  | some (.list records) | some (.tuple records) => records.mapM fun
    | .dict items => .ok items
    | _ => .error (inputFault "vm.input.record" "VM runtime records must be mappings")
  | some _ => .error (inputFault "vm.input.records" "VM runtime inputs.records must be a sequence")

/-- `_operands_for`. -/
def operandsFor (p : BytecodePackage) (operandRef : Int) : Except Interruption Items :=
  match p.constants[operandRef.toNat]? with
  | none => .error (.exception (lit "list index out of range"))
  | some (.dict items) => .ok items
  | some _ => .error
    (.fault .faulted ⟨"vm.operand.invalid", lit "operand constant is not a mapping", false⟩)

/-- The loop of `execute` from an instruction on; the trace has the names of the instructions so far. -/
def runFrom (execute : InstructionSet) (p : BytecodePackage) (maxCost : Int) :
    Nat → List BytecodeInstruction → RuntimeContext → List Str →
      Except Interruption Unit × RuntimeContext × List Str
  | _, [], ctx, trace =>
    (.error (.fault .faulted ⟨"vm.no_halt", lit "VM runtime did not halt", false⟩), ctx, trace)
  | pointer, instr :: instrs, ctx, trace =>
    match operandsFor p instr.operandRef with
    | .error e => (.error e, ctx, trace)
    | .ok operands =>
      let ctx := { ctx with costUsed := ctx.costUsed + instructionCost instr.name }
      if maxCost < ctx.costUsed then
        (.error (.fault .budgetExceeded ⟨"vm.budget_exceeded", lit "VM runtime cost exceeded", false⟩),
          ctx, trace)
      else
        match execute instr.name operands ctx pointer with
        | (.error e, ctx) => (.error e, ctx, trace ++ [instr.name])
        | (.ok (), ctx) =>
          if ctx.halted then (.ok (), ctx, trace ++ [instr.name])
          else runFrom execute p maxCost (pointer + 1) instrs ctx (trace ++ [instr.name])

/-- The result of a run that is interrupted. -/
def interrupted (loaded : Option VMLoadedPackage) (maxCost : Int) (ctx : Option RuntimeContext) (trace : List Str) :
    Interruption → DriverTest
  | .fault status fault => vmResult false status fault.message loaded maxCost ctx
    (trace ++ [status.value]) [fault] (ctx.any fun ctx => !ctx.extracted.isEmpty)
  | .exception message =>
    let message := lit "internal VM error: " ++ message
    vmResult false .internalError message loaded maxCost ctx (trace ++ [VMStatus.internalError.value])
      [⟨"vm.internal_error", message, false⟩] (ctx.any fun ctx => !ctx.extracted.isEmpty)

/-- Runs the package that is loaded. -/
def DriverVM.execute (execute : InstructionSet) (vm : DriverVM) (inputs : Option Items) :
    DriverTest × DriverVM :=
  let trace := [lit "validate", lit "load"]
  match vm.state, vm.loaded, vm.package with
  | .loaded, some _, some p =>
    match normalizeRecords inputs with
    | .error e => (interrupted vm.loaded vm.maxCost none trace e, { vm with state := .rejected })
    | .ok records =>
      match runFrom execute p vm.maxCost 0 p.instructions { records := records, current := records }
          trace with
      | (.ok (), ctx, trace) =>
        (vmResult true .halted (lit "driver bytecode halted successfully") vm.loaded vm.maxCost (some ctx)
          trace [] false, { vm with state := .executed })
      | (.error e, ctx, trace) =>
        (interrupted vm.loaded vm.maxCost (some ctx) trace e, { vm with state := .rejected })
  | _, _, _ =>
    let reason := lit "no validated bytecode package is loaded"
    (vmResult false .notLoaded reason vm.loaded vm.maxCost none (trace ++ [VMStatus.notLoaded.value])
      [⟨"vm.not_loaded", reason, false⟩] false, { vm with state := .rejected })

/-- A new machine, with some limits, loads the package, executes it on some inputs and returns the
result. -/
def RanOn [Runtime] [Objects] [Interpreter] (execute : InstructionSet) (p : BytecodePackage)
    (test : DriverTest) : Prop :=
  ∃ maxInstructions maxCost vm loaded inputs, DriverVM.init maxInstructions maxCost = .ok vm ∧
    (vm.load p).1 = .ok loaded ∧ ((vm.load p).2.execute execute inputs).1 = test

/-! ## The instruction `SCAN`

It selects records of its input by their path. -/

open Persistence (pyStr pyInt asInt stripSlashes)

/-- What an operation of the machine may raise. -/
inductive VMError where
  /-- `_VMRuntimeFault`. -/
  | fault (code : String) (message : Str)
  | exception (e : PyException)

section Scan

variable [Objects]

/-- `int(operands.get(key, default))`. -/
def intOperand (operands : Items) (key : String) (default : Int) : Check Int :=
  match field operands key with
  | none => .ok default
  | some value => (asInt value).elim (pyInt value) .ok

/-- `bool(operands.get("recursive", False))`. -/
def isRecursive (operands : Items) : Bool := ((field operands "recursive").map Value.truthy).getD false

/-- `str(record.get("path", ""))`. -/
def recordPath (record : Items) : Str := ((field record "path").map pyStr).getD []

/-- `scope.rstrip("/")`. -/
def scanStart (scope : Str) : Str := scope.rdropWhile (· = 47)

/-- `record_depth`: how many components a path has below the start of a scan. -/
def recordDepth (start path : Str) : Nat :=
  let rel := stripSlashes (path.drop start.length)
  if rel = [] then 0 else rel.count 47 + 1

/-- The record is in the scope, and its depth is one that the scan reaches. -/
def isScanned (recursive : Bool) (depth : Int) (start : Str) (record : Items) : Bool :=
  let path := recordPath record
  (path = start || (start ++ [47]).isPrefixOf path) &&
    (if recursive then recordDepth start path ≤ depth else recordDepth start path ≤ 1)

/-- The loop over the records, which ends when there are as many as the limit. -/
def scanRecords (scanned : Items → Bool) (limit : Int) (matched : List Items) :
    List Items → List Items
  | [] => matched
  | record :: records =>
    if scanned record then
      if limit ≤ matched.length + 1 then matched ++ [record]
      else scanRecords scanned limit (matched ++ [record]) records
    else scanRecords scanned limit matched records

/-- The operands of `SCAN` that the machine does not support. -/
def unsupportedOperands : List String := ["exclude", "include", "kind"]

/-- Selects records of the input by their path. -/
def opScan (operands : Items) (records : List Items) : Except VMError (List Items) :=
  match unsupportedOperands.filter fun key => (field operands key).isSome with
  | [] => Except.mapError .exception do
    let scope ← subscript (.dict operands) "scope"
    let limit ← intOperand operands "limit" (if records = [] then 1 else records.length)
    let recursive := isRecursive operands
    let depth ← intOperand operands "depth" (if recursive then 64 else 0)
    return scanRecords (isScanned recursive depth (scanStart (pyStr scope))) limit [] records
  | unsupported => .error (.fault "vm.scan.unsupported_operand"
      (lit "SCAN operands are not runtime-supported yet: " ++
        Objects.reprOf (.list (unsupported.map fun key => .str (lit key)))))

end Scan

end Drivers
