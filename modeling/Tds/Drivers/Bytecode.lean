import Tds.Drivers.Tddl
import Tds.FileSystem.JsonCodec

/-!
# Bytecode packages

A package is a compiled driver together with the SHA-256 hash of everything else it holds.
`validateBytecodePackage` is the gate for packages, whoever made them; `decompileToIr` reads a package
back as a program of the driver language.
-/

namespace Drivers

open Python FileSystem
open Persistence (Items itemAt pyStr pyInt field asInt isText isText_iff)

/-! ## Canonical JSON -/

/-- One code point inside a string literal, without `ensure_ascii`. -/
def escapeText (c : Nat) : Str := if 127 ≤ c then [c] else escapeChar c

/-- A string literal, without `ensure_ascii`. -/
def quoteText (s : Str) : Str := 34 :: s.flatMap escapeText ++ [34]

def fieldText (field : Str × Str) : Str := quoteText field.1 ++ 58 :: field.2

section Text

variable [Runtime]

mutual

/-- `json.dumps(value, sort_keys=True, separators=(",", ":"), ensure_ascii=False)`. -/
def jsonText : Json → Str
  | .null => lit "null"
  | .bool true => lit "true"
  | .bool false => lit "false"
  | .int i => printInt i
  | .float f => printFloat f
  | .str s => quoteText s
  | .arr items => 91 :: joinComma (itemTexts items) ++ [93]
  | .obj fields => 123 :: joinComma ((sortByKey (fieldTexts fields)).map fieldText) ++ [125]

def itemTexts : List Json → List Str
  | [] => []
  | v :: vs => jsonText v :: itemTexts vs

def fieldTexts : List (Str × Json) → List (Str × Str)
  | [] => []
  | (k, v) :: fields => (k, jsonText v) :: fieldTexts fields

end

end Text

section Canonical

variable [Objects] [Interpreter]

/-- `{str(k): v for ...}` of sorted items. -/
def textDict (items : List (Value × Value)) : Value :=
  .record (items.foldl (fun (d : PyDict Str Value) item => PyDict.set d (pyStr item.1) item.2) [])

mutual

/-- `dict`s sorted and with text keys, sequences as `list`s. -/
def normalizeValue : Value → Check Value
  | .dict items => do
    let items ← sortItems (← normalizeFields items)
    return textDict items
  | .tuple items => return .list (← normalizeItems items)
  | .list items => return .list (← normalizeItems items)
  | value => return value

def normalizeItems : List Value → Check (List Value)
  | [] => return []
  | v :: vs => return (← normalizeValue v) :: (← normalizeItems vs)

/-- The values of a `dict`. -/
def normalizeFields : List (Value × Value) → Check (List (Value × Value))
  | [] => return []
  | (k, v) :: rest => return (k, ← normalizeValue v) :: (← normalizeFields rest)

end

variable [Runtime]

/-- The text that is hashed. -/
def canonicalJson (value : Value) : Check Str := do
  let value ← normalizeValue value
  let json ← value.toJson
  return jsonText json

/-- `text.encode("utf-8")`. -/
def encodeText (text : Str) : Check Bytes :=
  match encodeUtf8 text with
  | some raw => .ok raw
  | none => raise .unicodeEncodeError (lit "surrogates not allowed")

/-- `"sha256:" + hashlib.sha256(raw).hexdigest()`. -/
def hashOf (raw : Bytes) : Str := lit "sha256:" ++ (sha256 raw).hex

end Canonical

/-! ## Packages -/

/-- The members of `BytecodeOpcode`. -/
def opcodes : List (String × Int) :=
  [("SCAN", 1), ("READ", 2), ("MATCH", 3), ("EXTRACT", 4), ("SCORE", 5), ("EMIT", 6), ("TRACE", 7),
    ("HALT", 8)]

/-- `int(BytecodeOpcode[name])`, if the name is supported. -/
def opcodeOf (name : Str) : Option Int := (opcodes.find? fun op => name = lit op.1).map Prod.snd

/-- An instruction whose operands are a constant. -/
structure BytecodeInstruction where
  opcode : Int
  name : Str
  operandRef : Int
  line : Int

/-- A compiled driver with its hash. -/
structure BytecodePackage where
  header : Items
  manifest : Items
  capabilities : List Value
  adapters : List Value
  limits : Items
  instructions : List BytecodeInstruction
  constants : List Value
  evolution : List Value
  sourceHash : Str
  packageHash : Str

def BytecodeInstruction.toDict (instr : BytecodeInstruction) : Value :=
  .record [(lit "opcode", .int instr.opcode), (lit "name", .str instr.name),
    (lit "operand_ref", .int instr.operandRef), (lit "line", .int instr.line)]

namespace BytecodePackage

/-- The items of `to_unsigned_dict`. -/
def unsignedFields (p : BytecodePackage) : List (Str × Value) :=
  [(lit "header", .dict p.header), (lit "manifest", .dict p.manifest),
    (lit "capabilities", .list p.capabilities), (lit "adapters", .list p.adapters),
    (lit "limits", .dict p.limits),
    (lit "instructions", .list (p.instructions.map BytecodeInstruction.toDict)),
    (lit "constants", .list p.constants), (lit "evolution", .list p.evolution),
    (lit "source_hash", .str p.sourceHash)]

def toUnsignedDict (p : BytecodePackage) : Value := .record p.unsignedFields

variable [Runtime] [Objects] [Interpreter]

def hashedBytes (p : BytecodePackage) : Check Bytes := do
  encodeText (← canonicalJson p.toUnsignedDict)

def verifyHash (p : BytecodePackage) : Check Bool := do
  let raw ← p.hashedBytes
  return hashOf raw = p.packageHash

end BytecodePackage

section Validation

variable [Runtime] [Objects] [Interpreter]

/-- `value == n` for a number. -/
def isNumber (value : Value) (n : Int) : Bool :=
  match value with
  | .int i => i = n
  | .bool b => (if b then 1 else 0) = n
  | .float (.finite literal) => Interpreter.floatIs literal n
  | _ => false

/-- The checks of `validate_bytecode_package` for one instruction. -/
def validateCode (constants : Nat) (instr : BytecodeInstruction) : Checked Unit :=
  match opcodeOf instr.name with
  | none => reject (lit "unsupported bytecode instruction " ++ instr.name)
  | some opcode => do
    rejectIf (opcode ≠ instr.opcode) (lit "opcode mismatch for " ++ instr.name)
    rejectIf (instr.operandRef < 0 ∨ constants ≤ instr.operandRef) (lit "operand_ref out of range")

/-- The last step of `validate_bytecode_package`. -/
def checkHash (p : BytecodePackage) : Checked Unit := do
  let verified ← plainly p.verifyHash
  rejectIf (verified = false) (lit "bytecode package hash mismatch")

/-- The gate that every package passes. -/
def validateBytecodePackage (p : BytecodePackage) : Checked Unit := do
  rejectIf ((field p.header "magic").any (isText · "TDD1") = false) (lit "bytecode magic mismatch")
  rejectIf ((field p.header "bytecode_version").any (isNumber · 1) = false)
    (lit "unsupported bytecode version")
  rejectIf (p.instructions.isEmpty = true) (lit "bytecode instruction block is empty")
  rejectIf ((p.instructions.map (·.name)).getLast? ≠ some (lit "HALT"))
    (lit "bytecode must end with HALT")
  p.instructions.forM (validateCode p.constants.length)
  rejectIf ((p.instructions.map (·.name)).count (lit "HALT") ≠ 1)
    (lit "bytecode must contain exactly one HALT")
  checkHash p

/-! ## Reading packages -/

/-- `data[key]`. -/
def subscript (data : Value) (key : String) : Check Value :=
  match data with
  | .dict items =>
    match field items key with
    | some value => .ok value
    | none => raise .keyError (lit key)
  | data => raise .typeError (data.typeName ++ lit " is not a mapping")

/-- `dict(value)`. -/
def toDict (value : Value) : Check Items :=
  match value with
  | .dict items => .ok items
  | value => Interpreter.dictOf value

/-- `data.get(key, default)` of a value that was subscripted before. -/
def getOr (data : Value) (key : String) (default : Value) : Value :=
  match data with
  | .dict items => (field items key).getD default
  | _ => default

def BytecodeInstruction.fromDict (data : Value) : Check BytecodeInstruction := do
  let opcode ← pyInt (← subscript data "opcode")
  let name ← subscript data "name"
  let operandRef ← pyInt (← subscript data "operand_ref")
  let line ← pyInt (getOr data "line" (.int 0))
  return ⟨opcode, pyStr name, operandRef, line⟩

def packageOf (data : Value) : Check BytecodePackage := do
  let instructions ← (← (← subscript data "instructions").items).mapM BytecodeInstruction.fromDict
  let header ← toDict (← subscript data "header")
  let manifest ← toDict (← subscript data "manifest")
  let capabilities ← (← subscript data "capabilities").items
  let adapters ← (← subscript data "adapters").items
  let limits ← toDict (← subscript data "limits")
  let constants ← (← subscript data "constants").items
  let evolution ← (getOr data "evolution" (.tuple [])).items
  let sourceHash ← subscript data "source_hash"
  let packageHash ← subscript data "package_hash"
  return ⟨header, manifest, capabilities, adapters, limits, instructions, constants, evolution,
    pyStr sourceHash, pyStr packageHash⟩

/-- Reads a package and validates it. -/
def fromBytes (payload : Bytes) : Checked BytecodePackage := do
  let data ← plainly (loadsJson payload)
  let p ← plainly (packageOf data)
  validateBytecodePackage p
  return p

/-! ## Decompiling -/

/-- `InstructionName(instr.name)` with the operands from the constant pool. -/
def decompileInstruction (constants : List Value) (instr : BytecodeInstruction) :
    Checked Instruction :=
  match InstructionName.ofValue instr.name with
  | none => plainly (raise .valueError (instr.name ++ lit " is not a valid InstructionName"))
  | some name =>
    match constants[instr.operandRef.toNat]? with
    | some (.dict operands) => .ok ⟨name, operands, instr.line⟩
    | some _ => reject (lit "instruction operands constant is not a mapping")
    | none => plainly (raise (.other 1) (lit "tuple index out of range"))

/-- `int(header["driver_version"])`. -/
def driverVersion (header : Items) : Check Int := do pyInt (← subscript (.dict header) "driver_version")

/-- `str(header["driver_id"])`. -/
def driverIdOf (header : Items) : Check Str := do
  let id ← subscript (.dict header) "driver_id"
  return pyStr id

def BytecodePackage.program (p : BytecodePackage) (driverId : Str) (version : Int)
    (instructions : List Instruction) : Program :=
  ⟨driverId, version, p.manifest, p.capabilities, p.adapters, p.limits, instructions, p.evolution⟩

/-- The program that a package was compiled from. -/
def decompileToIr (p : BytecodePackage) : Checked Program := do
  validateBytecodePackage p
  let instructions ← p.instructions.mapM (decompileInstruction p.constants)
  let driverId ← plainly (driverIdOf p.header)
  let version ← plainly (driverVersion p.header)
  let program := p.program driverId version instructions
  validateTddl program
  return program

end Validation

end Drivers
