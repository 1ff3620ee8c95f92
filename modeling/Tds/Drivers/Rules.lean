import Tds.Drivers.Bytecode

/-!
# The rules of the driver language

What a program of the driver language may be, apart from the order in which a validator looks at it.
`BytecodePackage.Lawful` says the same of the parts of a package that the load-time audit leaves open.
-/

namespace Drivers

open Python FileSystem
open Persistence (Items itemAt pyStr pyInt field asInt isText isText_iff)

/-- The operand satisfies `P` if it is there. -/
def Optionally (operands : Items) (key : String) (P : Value → Prop) : Prop :=
  ∀ value, field operands key = some value → P value

/-- The operand is there and satisfies `P`. -/
def Required (operands : Items) (key : String) (P : Value → Prop) : Prop :=
  ∃ value, field operands key = some value ∧ P value

/-- An `int` within bounds. -/
def IntIn (minimum maximum : Int) (value : Value) : Prop :=
  ∃ i, asInt value = some i ∧ minimum ≤ i ∧ i ≤ maximum

def LiteralOf (names : List String) (value : Value) : Prop := ∃ name ∈ names, value = .str (lit name)

def DottedToken (value : Value) : Prop := ∃ s, value = .str s ∧ isToken s = true ∧ 46 ∈ s

/-- A path of the `.tds` tree: it starts there and never goes up. -/
def InTree (scope : Str) : Prop :=
  (scope = lit ".tds" ∨ lit ".tds/" <+: scope) ∧ lit ".." ∉ posixParts scope

def limitValue (limits : Items) (key : String) (default : Int) : Int :=
  ((field limits key).bind asInt).getD default

section Rules

variable [Objects] [Interpreter]

def UsableAdapter (adapters : List Value) (name : Str) : Prop :=
  .str name ∈ adapters ∧ isUnsafeAdapter name = false

def LawfulAdapter (adapter : Value) : Prop :=
  DottedToken adapter ∧ isUnsafeAdapter (pyStr adapter) = false

/-- The operand `using` names an adapter. -/
def UsesAdapter (adapters : List Value) (operands : Items) : Prop :=
  Required operands "using" fun value => pyStr value ≠ [] ∧ UsableAdapter adapters (pyStr value)

def ThresholdLawful (operands : Items) : Prop := Optionally operands "threshold" (isThreshold · = true)

/-- The operands of a scan stay inside the tree and within the limits. -/
structure ScanLawful (operands : Items) (maxScan maxDepth : Int) : Prop where
  scope : Required operands "scope" fun value => InTree (pyStr value)
  limit : Optionally operands "limit" (IntIn 1 maxScan)
  depth : Optionally operands "depth" (IntIn 0 maxDepth)
  recursive : Optionally operands "recursive" (isBool · = true)

structure MatchLawful (adapters : List Value) (operands : Items) : Prop where
  pattern : Optionally operands "regex_limited" fun value => isBroadPattern (pyStr value) = false
  source : hasAny operands ["using", "field"] = true
  using' : (field operands "using").isSome = true →
    UsesAdapter adapters operands ∧ ThresholdLawful operands
  field' : Optionally operands "field" fun value =>
    isToken (pyStr value) = true ∧ hasAny operands predicateKeys = true

structure ExtractLawful (adapters : List Value) (operands : Items) : Prop where
  source : hasAny operands ["fields", "using"] = true
  using' : (field operands "using").isSome = true → UsesAdapter adapters operands
  notPickle : Optionally operands "from" fun value => isText value "raw_pickle" = false
  fields : Optionally operands "fields" fun value =>
    ∃ names, value = .list names ∧ names ≠ [] ∧ ∀ name ∈ names, isFieldName name = true
  limit : Optionally operands "limit" (IntIn 1 100000)

/-- The operands are those that the instruction must and may have, with the values it knows. -/
structure SpecLawful (name : InstructionName) (operands : Items) : Prop where
  required : ∀ key ∈ (instructionSpec name).required, (field operands key).isSome = true
  allowed : ∀ key ∈ operands.map Prod.fst, LiteralOf (instructionSpec name).allowed key
  values : ∀ entry ∈ (instructionSpec name).allowedValues,
    Optionally operands entry.1 (LiteralOf entry.2)

def OperandsLawful (adapters : List Value) (maxScan maxDepth : Int) (operands : Items) :
    InstructionName → Prop
  | .scan => ScanLawful operands maxScan maxDepth
  | .match' => MatchLawful adapters operands
  | .extract => ExtractLawful adapters operands
  | .score => UsesAdapter adapters operands ∧ ThresholdLawful operands
  | .map => UsesAdapter adapters operands ∧ ThresholdLawful operands
  | .call => Required operands "adapter" fun value => UsableAdapter adapters (pyStr value)
  | .emit => Optionally operands "limit" (IntIn 1 10000)
  | .propose => oneOf (((field operands "kind").map pyStr).getD (lit "None"))
      ["reorder", "replace", "score_policy", "predicate_policy"] = true
  | .halt => operands = []
  | .read => True
  | .branch => True
  | .trace => True

/-- The limits of a driver are integers within the bounds of the language. -/
structure LimitsLawful (limits : Items) : Prop where
  maxScan : Optionally limits "max_scan" (IntIn 1 100000)
  maxDepth : Optionally limits "max_depth" (IntIn 0 64)
  timeoutMs : Optionally limits "timeout_ms" (IntIn 1 60000)

/-- An instruction that a driver with these adapters and limits may have. -/
def InstructionLawful (adapters : List Value) (limits : Items) (name : InstructionName)
    (operands : Items) : Prop :=
  SpecLawful name operands ∧ OperandsLawful adapters (limitValue limits "max_scan" 5000)
    (limitValue limits "max_depth" 8) operands name

def LawfulRule (rule : Value) : Prop := ∃ s, rule = .str s ∧ ∃ start ∈ evolutionStarts, lit start <+: s

/-- What a driver declares: at least one capability, safe adapters, bounded limits. -/
structure DeclarationLawful (capabilities adapters : List Value) (limits : Items)
    (evolution : List Value) : Prop where
  capabilities_ne_nil : capabilities ≠ []
  capabilities : ∀ capability ∈ capabilities, DottedToken capability
  adapters : ∀ adapter ∈ adapters, LawfulAdapter adapter
  limits : LimitsLawful limits
  evolution : ∀ rule ∈ evolution, LawfulRule rule

/-- A program that obeys all rules. -/
structure Program.Lawful (program : Program) : Prop where
  version : 1 ≤ program.version
  driverId : isToken program.driverId = true
  kind : Required program.manifest "kind" fun value => oneOf (pyStr value) driverClasses = true
  declaration : DeclarationLawful program.capabilities program.adapters program.limits
    program.evolution
  halt_last : (program.instructions.map Instruction.name).getLast? = some .halt
  halt_once : (program.instructions.map Instruction.name).count .halt = 1
  instructions : ∀ instr ∈ program.instructions,
    InstructionLawful program.adapters program.limits instr.name instr.operands

/-- The operands of an instruction of a package are a `dict` that the language allows for it. -/
def CodeLawful (p : BytecodePackage) (instr : BytecodeInstruction) : Prop :=
  ∃ name operands, InstructionName.ofValue instr.name = some name ∧
    p.constants[instr.operandRef.toNat]? = some (.dict operands) ∧
    InstructionLawful p.adapters p.limits name operands

/-- A package whose program obeys all rules. -/
structure BytecodePackage.Lawful (p : BytecodePackage) : Prop where
  version : ∀ version, driverVersion p.header = .ok version → 1 ≤ version
  driverId : ∀ id, driverIdOf p.header = .ok id → isToken id = true
  declaration : DeclarationLawful p.capabilities p.adapters p.limits p.evolution
  code : ∀ instr ∈ p.instructions, CodeLawful p instr

end Rules

end Drivers
