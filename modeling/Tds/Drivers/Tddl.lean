import Tds.Persistence.Reader

/-!
# The driver language

A program of the driver language is a list of instructions with operands, together with what the
driver declares about itself. `validateTddl` is the gate that every program written as source passes.
-/

namespace Drivers

open Python FileSystem
open Persistence (Items itemAt pyStr pyInt field asInt isText isText_iff)

/-- What the drivers take from Python beyond `Objects`. An object is never an instance of a class of
numbers, texts or containers. -/
class Interpreter where
  /-- The places that `sorted` gives keys that are not all strings. -/
  sortOrder : List Value → Check (List Nat)
  /-- `dict(value)` of a value that is not a `dict`. -/
  dictOf : Value → Check Items
  /-- Whether a finite float equals an `int`. -/
  floatIs : Str → Int → Bool
  /-- Whether a finite float lies between `0.0` and `1.0`. -/
  inUnit : Str → Bool
  /-- `s.lower()`. -/
  lower : Str → Str
  /-- `s.isalnum()`. -/
  isAlnum : Str → Bool

inductive Fault where
  /-- `TDDLValidationError`. -/
  | validation (message : Str)
  /-- `RegistryError`. -/
  | registry (message : Str)
  | exception (e : PyException)
deriving DecidableEq

abbrev Checked := Except Fault

/-- `raise TDDLValidationError(message)`. -/
def reject {α : Type} (message : Str) : Checked α := .error (.validation message)

/-- `if condition: raise TDDLValidationError(message)`. -/
def rejectIf (condition : Prop) [Decidable condition] (message : Str) : Checked Unit :=
  if condition then reject message else .ok ()

def plainly {α : Type} (x : Check α) : Checked α := x.mapError .exception

section Sorting

variable [Interpreter]

/-- The items of a `dict` whose keys are all strings. -/
def textItems {α : Type} : List (Value × α) → Option (List (Str × α))
  | [] => some []
  | (.str key, a) :: items => (textItems items).map ((key, a) :: ·)
  | _ :: _ => none

/-- The items of a `dict` in the order of `sorted(keys)`. -/
def sortItems {α : Type} (items : List (Value × α)) : Check (List (Value × α)) :=
  match textItems items with
  | some fields => .ok ((sortByKey fields).map fun f => (.str f.1, f.2))
  | none => do
    let order ← Interpreter.sortOrder (items.map Prod.fst)
    return order.filterMap (items[·]?)

/-- `sorted(keys)`. -/
def sorted (keys : List Value) : Check (List Value) := do
  let items ← sortItems (keys.map fun key => (key, ()))
  return items.map Prod.fst

end Sorting

/-! ## Programs -/

/-- The instructions of the language. -/
inductive InstructionName where
  | scan | read | match' | extract | map | score | branch | call | emit | trace | propose | halt
deriving DecidableEq

namespace InstructionName

def value : InstructionName → Str
  | scan => lit "SCAN"
  | read => lit "READ"
  | match' => lit "MATCH"
  | extract => lit "EXTRACT"
  | map => lit "MAP"
  | score => lit "SCORE"
  | branch => lit "BRANCH"
  | call => lit "CALL"
  | emit => lit "EMIT"
  | trace => lit "TRACE"
  | propose => lit "PROPOSE"
  | halt => lit "HALT"

def all : List InstructionName :=
  [scan, read, match', extract, map, score, branch, call, emit, trace, propose, halt]

/-- `InstructionName(value)`. -/
def ofValue (value : Str) : Option InstructionName := all.find? fun name => name.value = value

end InstructionName

/-- `TDDLInstruction`. -/
structure Instruction where
  name : InstructionName
  operands : Items
  line : Int

/-- `TDDLProgram`. -/
structure Program where
  driverId : Str
  version : Int
  manifest : Items
  capabilities : List Value
  adapters : List Value
  limits : Items
  instructions : List Instruction
  evolution : List Value

structure InstructionSpec where
  required : List String := []
  optional : List String := []
  allowedValues : List (String × List String) := []

def InstructionSpec.allowed (spec : InstructionSpec) : List String := spec.required ++ spec.optional

/-- `_INSTRUCTION_SPECS`. -/
def instructionSpec : InstructionName → InstructionSpec
  | .scan =>
    { required := ["scope"]
      optional := ["recursive", "limit", "depth", "kind", "include", "exclude"] }
  | .read =>
    { required := ["target"]
      allowedValues := [("target", ["manifest", "payload_header", "key", "value", "schema", "trace",
        "registry", "capabilities"])] }
  | .match' =>
    { optional := ["field", "eq", "neq", "contains", "prefix", "suffix", "in", "exists",
        "regex_limited", "range", "using", "query", "threshold", "tags"] }
  | .extract =>
    { optional := ["fields", "using", "from", "as", "limit", "required"]
      allowedValues := [("from", ["manifest", "value", "schema", "trace", "payload_header",
        "registry"])] }
  | .map => { required := ["using"], optional := ["from", "as"] }
  | .score =>
    { optional := ["using", "by", "weight", "boost", "penalty", "threshold"]
      allowedValues := [("weight", ["semantic", "recency", "confidence", "safety", "balanced"])] }
  | .branch => { required := ["if", "goto"] }
  | .call => { required := ["adapter"], optional := ["mode"] }
  | .emit =>
    { optional := ["mode", "limit"]
      allowedValues := [("mode", ["ranked", "list", "first", "proposal"])] }
  | .trace => { required := ["event"], optional := ["level"] }
  | .propose => { required := ["kind"], optional := ["target", "reason"] }
  | .halt => {}

/-- `{"search", "extract", "rank", "adapter", "policy"}`. -/
def driverClasses : List String := ["search", "extract", "rank", "adapter", "policy"]

def oneOf (s : Str) (names : List String) : Bool := names.any fun name => s = lit name

/-! ## Tokens and bounds -/

/-- `[A-Za-z_]`. -/
def isTokenStart (c : Nat) : Bool := (65 ≤ c && c ≤ 90) || (97 ≤ c && c ≤ 122) || c == 95

/-- `[A-Za-z0-9_.-]`. -/
def isTokenChar (c : Nat) : Bool := isTokenStart c || isDigit c || c == 46 || c == 45

/-- `_TOKEN_RE.fullmatch(s)`, which is also `_FIELD_RE`. -/
def isToken : Str → Bool
  | [] => false
  | c :: rest => isTokenStart c && rest.all isTokenChar

/-- Letters, digits and a few other characters. -/
def validateToken (value : Str) (label : String) : Checked Unit :=
  rejectIf (isToken value = false) (lit label ++ lit " must be a token")

/-- `_validate_dotted_token`; a pattern is matched against strings only. -/
def validateDottedToken (value : Value) (label : String) : Checked Unit :=
  match value with
  | .str s => rejectIf (isToken s = false ∨ 46 ∉ s) (lit label ++ lit " must be a dotted token")
  | _ => plainly (raise .typeError (lit "expected string or bytes-like object"))

/-- An integer operand within its limits. -/
def intLimit (value : Value) (name : String) (minimum maximum : Int) : Checked Int :=
  match asInt value with
  | none => reject (lit name ++ lit " must be an integer")
  | some i =>
    if i < minimum ∨ maximum < i then
      reject (lit name ++ lit " must be between " ++ printInt minimum ++ lit " and " ++
        printInt maximum)
    else .ok i

/-- `_int_limit(limits.get(key, default), key, ...)`. -/
def limitOr (limits : Items) (key : String) (default minimum maximum : Int) : Checked Int :=
  intLimit ((field limits key).getD (.int default)) key minimum maximum

/-- `if key in operands: _int_limit(operands[key], label, ...)`. -/
def boundOperand (operands : Items) (key label : String) (minimum maximum : Int) : Checked Unit :=
  match field operands key with
  | none => .ok ()
  | some value => do
    let _ ← intLimit value label minimum maximum

mutual

def isHashable : Value → Bool
  | .list _ => false
  | .dict _ => false
  | .tuple items => allHashable items
  | _ => true

def allHashable : List Value → Bool
  | [] => true
  | v :: vs => isHashable v && allHashable vs

end

section Validation

variable [Objects] [Interpreter]

/-- `_reject_unsafe_adapter`. -/
def isUnsafeAdapter (adapter : Str) : Bool :=
  ["python.eval", "eval", "exec", "socket", "subprocess", "import"].any fun part =>
    decide (lit part <:+: Interpreter.lower adapter)

/-- `if any(...): raise TDDLValidationError("unsafe adapter is denied")`. -/
def rejectUnsafeAdapter (adapter : Str) : Checked Unit :=
  rejectIf (isUnsafeAdapter adapter = true) (lit "unsafe adapter is denied")

/-- `adapter in adapters`. -/
def declares (adapters : List Value) (adapter : Str) : Bool :=
  adapters.any fun value => match value with
    | .str s => s = adapter
    | _ => false

/-- `f"line {instr.line}: "`. -/
def Instruction.lineText (instr : Instruction) : Str := lit "line " ++ printInt instr.line ++ lit ": "

/-- An adapter is declared and safe. -/
def validateAdapterUse (program : Program) (instr : Instruction) : Checked Unit := do
  let adapter := ((field instr.operands "using").map pyStr).getD []
  rejectIf (adapter = []) (instr.lineText ++ instr.name.value ++ lit " requires using adapter")
  rejectIf (declares program.adapters adapter = false)
    (instr.lineText ++ lit "adapter must be declared in requires")
  rejectUnsafeAdapter adapter

/-- Whether a threshold is a number between `0.0` and `1.0`; `nan` passes both comparisons. -/
def isThreshold : Value → Bool
  | .int i => 0 ≤ i && i ≤ 1
  | .bool _ => true
  | .float (.finite literal) => Interpreter.inUnit literal
  | .float .nan => true
  | _ => false

/-- `if "threshold" in operands: _validate_threshold(...)`. -/
def validateThreshold (instr : Instruction) : Checked Unit :=
  match field instr.operands "threshold" with
  | none => .ok ()
  | some value => rejectIf (isThreshold value = false)
      (instr.lineText ++ lit "threshold must be between 0.0 and 1.0")

/-- The scope is a path below `.tds`. -/
def validateScope (instr : Instruction) (scope : Str) : Checked Unit := do
  rejectIf (lit "/" <+: scope ∨ lit ".." ∈ posixParts scope)
    (instr.lineText ++ lit "SCAN scope must be relative and cannot escape .tds")
  rejectIf (¬ (scope = lit ".tds" ∨ lit ".tds/" <+: scope))
    (instr.lineText ++ lit "SCAN scope must begin with .tds")

/-- `isinstance(value, bool)`. -/
def isBool : Value → Bool
  | .bool _ => true
  | _ => false

/-- The scope is below `.tds`. -/
def validateScanScope (instr : Instruction) : Checked Unit :=
  match field instr.operands "scope" with
  | none => plainly (raise .keyError (lit "scope"))
  | some scope => validateScope instr (pyStr scope)

/-- `_validate_scan`. The second comparisons with the limits repeat those of `_int_limit`. -/
def validateScan (instr : Instruction) (maxScan maxDepth : Int) : Checked Unit := do
  validateScanScope instr
  boundOperand instr.operands "limit" "SCAN.limit" 1 maxScan
  boundOperand instr.operands "depth" "SCAN.depth" 0 maxDepth
  rejectIf ((field instr.operands "recursive").any (fun value => !isBool value) = true)
    (instr.lineText ++ lit "SCAN.recursive must be boolean")

/-- A pattern that may match too much. -/
def isBroadPattern (pattern : Str) : Bool :=
  128 < pattern.length ∨ lit ".*.*" <:+: pattern ∨ lit "(?" <:+: pattern

/-- The operands with which `MATCH` compares a field. -/
def predicateKeys : List String :=
  ["eq", "neq", "contains", "prefix", "suffix", "in", "exists", "regex_limited", "range"]

def hasAny (operands : Items) (keys : List String) : Bool :=
  keys.any fun key => (field operands key).isSome

/-- `if "using" in operands: ...`. -/
def whenUsing (instr : Instruction) (check : Checked Unit) : Checked Unit :=
  if (field instr.operands "using").isSome = true then check else .ok ()

/-- The checks of `_validate_match` for a field. -/
def validateMatchField (instr : Instruction) : Checked Unit :=
  match field instr.operands "field" with
  | none => .ok ()
  | some name => do
    rejectIf (isToken (pyStr name) = false) (instr.lineText ++ lit "MATCH.field must be a dotted token")
    rejectIf (hasAny instr.operands predicateKeys = false)
      (instr.lineText ++ lit "MATCH.field requires at least one predicate operand")

def validateMatch (program : Program) (instr : Instruction) : Checked Unit := do
  rejectIf ((field instr.operands "regex_limited").any (fun value => isBroadPattern (pyStr value)) = true)
    (instr.lineText ++ lit "MATCH.regex_limited is too broad")
  rejectIf (hasAny instr.operands ["using", "field"] = false)
    (instr.lineText ++ lit "MATCH requires field or using")
  whenUsing instr do
    validateAdapterUse program instr
    validateThreshold instr
  validateMatchField instr

/-- Whether `EXTRACT.fields` holds a field name. -/
def isFieldName : Value → Bool
  | .str s => isToken s
  | _ => false

/-- The checks of `EXTRACT.fields`. -/
def validateFields (instr : Instruction) : Checked Unit :=
  match field instr.operands "fields" with
  | none => .ok ()
  | some (.list fields) => do
    rejectIf (fields.isEmpty = true) (instr.lineText ++ lit "EXTRACT.fields must be a non-empty list")
    rejectIf (fields.all isFieldName = false)
      (instr.lineText ++ lit "EXTRACT.fields must be dotted tokens")
  | some _ => reject (instr.lineText ++ lit "EXTRACT.fields must be a non-empty list")

def validateExtract (program : Program) (instr : Instruction) : Checked Unit := do
  rejectIf (hasAny instr.operands ["fields", "using"] = false)
    (instr.lineText ++ lit "EXTRACT requires fields or using")
  whenUsing instr (validateAdapterUse program instr)
  rejectIf ((field instr.operands "from").any (fun value => isText value "raw_pickle") = true)
    (instr.lineText ++ lit "EXTRACT from raw_pickle is denied")
  validateFields instr
  boundOperand instr.operands "limit" "EXTRACT.limit" 1 100000

/-- The checks of `CALL`. -/
def validateCall (program : Program) (instr : Instruction) : Checked Unit :=
  match field instr.operands "adapter" with
  | none => plainly (raise .keyError (lit "adapter"))
  | some value => do
    rejectUnsafeAdapter (pyStr value)
    rejectIf (declares program.adapters (pyStr value) = false)
      (instr.lineText ++ lit "CALL adapter must be declared in requires")

/-- The checks of `PROPOSE`. -/
def validatePropose (instr : Instruction) : Checked Unit :=
  rejectIf (oneOf (((field instr.operands "kind").map pyStr).getD (lit "None"))
      ["reorder", "replace", "score_policy", "predicate_policy"] = false)
    (instr.lineText ++ lit "PROPOSE.kind is not allowed")

def unknownOperands (operands : Items) (allowed : List String) : List Value :=
  (operands.map Prod.fst).filter fun key => !allowed.any (isText key)

/-- `if missing: ...`. -/
def rejectMissing (instr : Instruction) (required : List String) : Checked Unit :=
  let missing := required.filter fun key => (field instr.operands key).isNone
  rejectIf (missing ≠ []) (instr.lineText ++ instr.name.value ++ lit " missing operands " ++
    Objects.reprOf (.list (((missing.map lit).insertionSort (· ≤ ·)).map .str)))

/-- `if unknown: ...`. -/
def rejectUnknown (instr : Instruction) (allowed : List String) : Checked Unit :=
  match unknownOperands instr.operands allowed with
  | [] => .ok ()
  | unknown => do
    let names ← plainly (sorted unknown)
    reject (instr.lineText ++ instr.name.value ++ lit " unknown operands " ++
      Objects.reprOf (.list names))

/-- One of the operands whose values are listed; only a value with a hash is looked up in a set. -/
def validateValue (instr : Instruction) (entry : String × List String) : Checked Unit :=
  match field instr.operands entry.1 with
  | none => .ok ()
  | some value => do
    plainly (raiseIf (isHashable value = false) .typeError (lit "unhashable type"))
    rejectIf (entry.2.any (isText value) = false) (instr.lineText ++ instr.name.value ++ lit "." ++
      lit entry.1 ++ lit " has unsupported value")

/-- The specification of an instruction: the operands it must have and may have, and their values. -/
def validateSpec (instr : Instruction) : Checked Unit := do
  let spec := instructionSpec instr.name
  rejectMissing instr spec.required
  rejectUnknown instr spec.allowed
  spec.allowedValues.forM (validateValue instr)

/-- What `_validate_instruction` checks for the single instructions. -/
def validateByName (program : Program) (instr : Instruction) (maxScan maxDepth : Int) :
    Checked Unit :=
  match instr.name with
  | .scan => validateScan instr maxScan maxDepth
  | .match' => validateMatch program instr
  | .extract => validateExtract program instr
  | .score | .map => do
    validateAdapterUse program instr
    validateThreshold instr
  | .call => validateCall program instr
  | .emit => boundOperand instr.operands "limit" "EMIT.limit" 1 10000
  | .propose => validatePropose instr
  | .halt => rejectIf (instr.operands.isEmpty = false) (instr.lineText ++ lit "HALT takes no operands")
  | .read | .branch | .trace => .ok ()

def validateInstruction (program : Program) (maxScan maxDepth : Int) (instr : Instruction) :
    Checked Unit := do
  validateSpec instr
  validateByName program instr maxScan maxDepth

/-- `"kind"` is there and one of the driver classes. -/
def validateKind (manifest : Items) : Checked Unit :=
  match field manifest "kind" with
  | none => reject (lit "manifest.kind is required")
  | some kind => rejectIf (oneOf (pyStr kind) driverClasses = false)
      (lit "manifest.kind must be search, extract, rank, adapter or policy")

def validateAdapter (adapter : Value) : Checked Unit := do
  validateDottedToken adapter "adapter"
  rejectUnsafeAdapter (pyStr adapter)

/-- `_ALLOWED_EVOLUTION_PREFIXES`. -/
def evolutionStarts : List String :=
  ["allow reorder ", "allow replace ", "deny ", "max_delta ", "max_delta="]

def validateEvolution (rule : Value) : Checked Unit :=
  match rule with
  | .str s => rejectIf (evolutionStarts.any (fun start => decide (lit start <+: s)) = false)
      (lit "unsupported evolution rule: " ++ s)
  | _ => plainly (raise .attributeError (lit "object has no attribute 'startswith'"))

/-- The instructions end with the one `HALT`. -/
def validateHalt (names : List InstructionName) : Checked Unit := do
  rejectIf (names = []) (lit "program must contain at least HALT")
  rejectIf (names.getLast? ≠ some .halt) (lit "program must end with HALT")
  rejectIf (names.count .halt ≠ 1) (lit "program must contain exactly one HALT")

def validateTddl (program : Program) : Checked Unit := do
  rejectIf (program.version < 1) (lit "driver version must be >= 1")
  validateToken program.driverId "driver_id"
  validateKind program.manifest
  rejectIf (program.capabilities.isEmpty = true) (lit "requires must declare at least one capability")
  program.capabilities.forM fun capability => validateDottedToken capability "capability"
  program.adapters.forM validateAdapter
  validateHalt (program.instructions.map Instruction.name)
  let maxScan ← limitOr program.limits "max_scan" 5000 1 100000
  let maxDepth ← limitOr program.limits "max_depth" 8 0 64
  let _ ← limitOr program.limits "timeout_ms" 250 1 60000
  program.instructions.forM (validateInstruction program maxScan maxDepth)
  program.evolution.forM validateEvolution

end Validation

end Drivers
