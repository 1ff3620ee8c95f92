import Tds.Drivers.Proofs.Tddl
import Tds.Drivers.Vm

/-!
# Loaded packages and the driver language

The audit looks at the shape of a package: its opcodes, its one `HALT`, its hash, the capabilities of
the opcodes. It does not look at the operands. A loaded package decompiles to a program of the language
exactly if the rest of the rules hold of it as well.
-/

namespace Drivers

open Python FileSystem InstructionName
open Persistence (Items itemAt pyStr pyInt field asInt isText isText_iff)

section Names

theorem InstructionName.value_injective : Function.Injective value := by
  intro a b h
  cases a <;> cases b <;> first | rfl | exact absurd h (by decide)

theorem InstructionName.value_of_ofValue {s : Str} {name : InstructionName}
    (h : ofValue s = some name) : name.value = s := by
  simpa using List.find?_some h

/-- The instructions of a program end with its one `HALT` if those of the package do. -/
theorem halt_of_values {names : List InstructionName}
    (hlast : (names.map value).getLast? = some (lit "HALT"))
    (hcount : (names.map value).count (lit "HALT") = 1) :
    names.getLast? = some .halt ∧ names.count .halt = 1 := by
  constructor
  · rw [List.getLast?_map] at hlast
    obtain ⟨name, hname, hvalue⟩ := Option.map_eq_some_iff.mp hlast
    rw [hname, value_injective (show name.value = halt.value from hvalue)]
  · rwa [show lit "HALT" = halt.value from rfl,
      List.count_map_of_injective _ _ value_injective] at hcount

end Names

section Load

variable [Runtime] [Objects] [Interpreter] {p : BytecodePackage}

theorem halt_of_validate {u : Unit} (h : validateBytecodePackage p = .ok u) :
    (p.instructions.map (·.name)).getLast? = some (lit "HALT") ∧
      (p.instructions.map (·.name)).count (lit "HALT") = 1 := by
  simp only [validateBytecodePackage, bind_eq_ok, rejectIf_eq_ok, forM_eq_ok, not_not,
    exists_const] at h
  obtain ⟨-, -, -, hlast, -, hcount, -⟩ := h
  exact ⟨hlast, hcount⟩

omit [Runtime] [Interpreter] in
theorem required_kind (h : oneOf (kindOf p []) driverClasses = true) :
    Required p.manifest "kind" fun value => oneOf (pyStr value) driverClasses = true := by
  unfold kindOf at h
  unfold Required
  cases hkind : field p.manifest "kind" with
  | none =>
    rw [hkind] at h
    exact absurd h (by decide : ¬ oneOf [] driverClasses = true)
  | some value => exact ⟨value, rfl, by rwa [hkind] at h⟩

theorem auditVmContract_eq_ok {u : Unit} : auditVmContract p = .ok u ↔
    validateBytecodePackage p = .ok () ∧ oneOf (kindOf p []) driverClasses = true ∧
      ∀ instr ∈ p.instructions, auditInstruction p (kindOf p []) instr = .ok () := by
  simp only [auditVmContract, bind_eq_ok, exists_unit, rejectIf_eq_ok, forM_eq_ok, Bool.not_eq_false]

theorem of_validateLoad {maxInstructions maxCost : Int} {loaded : VMLoadedPackage}
    (h : validateLoad p maxInstructions maxCost = .ok loaded) :
    auditVmContract p = .ok () ∧ driverIdOf p.header = .ok loaded.driverId ∧
      driverVersion p.header = .ok loaded.driverVersion := by
  simp only [validateLoad, bind_eq_ok, plainly_eq_ok, raiseIf_eq_ok, exists_unit] at h
  obtain ⟨haudit, -, -, driverId, hid, version, hversion, kind, -, hloaded⟩ := h
  cases hloaded
  exact ⟨haudit, hid, hversion⟩

omit [Runtime] [Objects] [Interpreter] in
theorem decompileInstruction_eq_ok {constants : List Value} {code : BytecodeInstruction}
    {instr : Instruction} : decompileInstruction constants code = .ok instr ↔
      ofValue code.name = some instr.name ∧
        constants[code.operandRef.toNat]? = some (.dict instr.operands) ∧ code.line = instr.line := by
  obtain ⟨name', operands', line'⟩ := instr
  unfold decompileInstruction
  cases ofValue code.name with
  | none => simp
  | some name =>
    dsimp only
    cases constants[code.operandRef.toNat]? with
    | none => simp
    | some value => cases value <;> simp

omit [Runtime] [Objects] [Interpreter] in
/-- The instructions of the program are those of the package with their operands. -/
theorem names_of_decompiled {instructions : List Instruction}
    (h : List.Forall₂ (fun code instr => decompileInstruction p.constants code = .ok instr)
      p.instructions instructions) :
    (instructions.map Instruction.name).map value = p.instructions.map (·.name) := by
  rw [List.map_map]
  refine (map_eq_map_of_forall₂ h fun code instr hcode => ?_).symm
  exact (value_of_ofValue (decompileInstruction_eq_ok.mp hcode).1).symm

omit [Runtime] in
theorem exists_decompiled (h : ∀ code ∈ p.instructions, CodeLawful p code) :
    ∃ instructions, p.instructions.mapM (decompileInstruction p.constants) = .ok instructions := by
  refine exists_mapM_eq_ok.mpr fun code hcode => ?_
  obtain ⟨name, operands, hname, hoperands, -⟩ := h code hcode
  exact ⟨⟨name, operands, code.line⟩, decompileInstruction_eq_ok.mpr ⟨hname, hoperands, rfl⟩⟩

theorem decompileToIr_eq_ok {program : Program} : decompileToIr p = .ok program ↔
    validateBytecodePackage p = .ok () ∧ ∃ instructions driverId version,
      List.Forall₂ (fun code instr => decompileInstruction p.constants code = .ok instr)
        p.instructions instructions ∧
      driverIdOf p.header = .ok driverId ∧ driverVersion p.header = .ok version ∧
      p.program driverId version instructions = program ∧ program.Lawful := by
  simp only [decompileToIr, bind_eq_ok, plainly_eq_ok, exists_unit, mapM_eq_ok, validateTddl_eq_ok,
    pure_eq_ok, Except.ok.injEq]
  constructor
  · rintro ⟨hvalid, instructions, hinstructions, driverId, hid, version, hversion, hlaw, rfl⟩
    exact ⟨hvalid, instructions, driverId, version, hinstructions, hid, hversion, rfl, hlaw⟩
  · rintro ⟨hvalid, instructions, driverId, version, hinstructions, hid, hversion, rfl, hlaw⟩
    exact ⟨hvalid, instructions, hinstructions, driverId, hid, version, hversion, hlaw, rfl⟩

/-- A package whose shape was audited decompiles to a program exactly if it is lawful. -/
theorem exists_decompileToIr_iff {driverId : Str} {version : Int} (haudit : auditVmContract p = .ok ())
    (hid : driverIdOf p.header = .ok driverId) (hversion : driverVersion p.header = .ok version) :
    (∃ program, decompileToIr p = .ok program) ↔ p.Lawful := by
  obtain ⟨hvalid, hkind, -⟩ := auditVmContract_eq_ok.mp haudit
  obtain ⟨hlast, hcount⟩ := halt_of_validate hvalid
  constructor
  · rintro ⟨program, h⟩
    obtain ⟨-, instructions, id, v, hall, hid', hv, rfl, hlaw⟩ := decompileToIr_eq_ok.mp h
    cases hid.symm.trans hid'
    cases hversion.symm.trans hv
    refine ⟨fun v' hv' => ?_, fun id' hid' => ?_, hlaw.declaration, fun code hcode => ?_⟩
    · cases hversion.symm.trans hv'
      exact hlaw.version
    · cases hid.symm.trans hid'
      exact hlaw.driverId
    · obtain ⟨instr, hinstr, hdecompiled⟩ := exists_of_forall₂_left hall hcode
      obtain ⟨hname, hoperands, -⟩ := decompileInstruction_eq_ok.mp hdecompiled
      exact ⟨_, _, hname, hoperands, hlaw.instructions instr hinstr⟩
  · intro hlaw
    obtain ⟨instructions, hinstructions⟩ := exists_decompiled hlaw.code
    have hall := mapM_eq_ok.mp hinstructions
    have hnames := names_of_decompiled hall
    obtain ⟨hlast', hcount'⟩ := halt_of_values (hnames ▸ hlast) (hnames ▸ hcount)
    have hlawful : (p.program driverId version instructions).Lawful := by
      refine ⟨hlaw.version _ hversion, hlaw.driverId _ hid, required_kind hkind, hlaw.declaration, hlast',
        hcount', fun instr hinstr => ?_⟩
      obtain ⟨code, hcode, hdecompiled⟩ := exists_of_forall₂_left hall.flip hinstr
      obtain ⟨hname, hoperands, -⟩ := decompileInstruction_eq_ok.mp hdecompiled
      obtain ⟨name, operands, hname', hoperands', hinstruction⟩ := hlaw.code code hcode
      cases hname.symm.trans hname'
      cases hoperands.symm.trans hoperands'
      exact hinstruction
    exact ⟨_, decompileToIr_eq_ok.mpr
      ⟨hvalid, instructions, driverId, version, hall, hid, hversion, rfl, hlawful⟩⟩

/-- A package that the virtual machine has loaded decompiles to a program that passes validation
exactly if its header, declarations and operands obey the rules of the language. -/
theorem loaded_decompiles_iff (vm : DriverVM) (p : BytecodePackage) (loaded : VMLoadedPackage)
    (h : (vm.load p).1 = .ok loaded) :
    (∃ program, decompileToIr p = .ok program) ↔ p.Lawful := by
  have hload : validateLoad p vm.maxInstructions vm.maxCost = .ok loaded := by
    unfold DriverVM.load at h
    split at h
    · next heq => exact heq.trans h
    · cases h
  obtain ⟨haudit, hid, hversion⟩ := of_validateLoad hload
  exact exists_decompileToIr_iff haudit hid hversion

end Load

/-! ## A package made by hand -/

/-- Python as far as the packages below need it: ASCII text, and `dict`s with string keys. -/
@[reducible] def sampleInterpreter : Interpreter where
  sortOrder _ := raise .typeError []
  dictOf _ := raise .typeError []
  floatIs _ _ := false
  inUnit _ := false
  lower s := s.map fun c => if 65 ≤ c ∧ c ≤ 90 then c + 32 else c
  isAlnum s := !s.isEmpty && s.all fun c => isDigit c || (65 ≤ c && c ≤ 90) || (97 ≤ c && c ≤ 122)

def sampleVm : DriverVM := ⟨1024, 100000, .empty, none, none⟩

/-- A package that scans the scope, with this hash. -/
def scanPackage (scope hash : String) : Str :=
  ["\x7b\"adapters\":[],", "\"capabilities\":", "[\"registry.scan\"],",
    "\"constants\":[\x7b\"scope\":\"", scope, "\"\x7d,\x7b\x7d],\"evolution\":", "[],\"header\":",
    "\x7b\"bytecode_version\":1,", "\"driver_id\":\"d\",", "\"driver_version\":1,",
    "\"magic\":\"TDD1\"\x7d,", "\"instructions\":[\x7b\"line\":", "0,\"name\":\"SCAN\",",
    "\"opcode\":1,", "\"operand_ref\":0\x7d,", "\x7b\"line\":0,\"name\":\"HALT\",",
    "\"opcode\":8,", "\"operand_ref\":1\x7d],", "\"limits\":\x7b\x7d,\"manifest\":",
    "\x7b\"kind\":\"search\"\x7d,", "\"package_hash\":\"sha256:", hash, "\",",
    "\"source_hash\":\"\"\x7d"].flatMap lit

/-- The scan leaves the tree. -/
def handMade : Str :=
  scanPackage "/etc" "22105bbcf953325d205fc1412cde1146d8c4aad5b81d6a3e136bda037885344d"

/-- The scan is one that the rules allow. -/
def lawfulScan : Str :=
  scanPackage ".tds" "f6eb3dd99af56189e1380a5e6064e012b4e6161f75632aeec2fc9e0a7b5d7a59"

def faultOf {α : Type} : Checked α → Option Fault
  | .ok _ => none
  | .error e => some e

section Outcome

variable [Runtime] [Objects] [Interpreter]

/-- What decompiling raises for the octets of a package that can be read and loaded. -/
def outcome (text : Str) : Option (Option Fault) :=
  match fromBytes (encodeAscii text) with
  | .ok p =>
    match (sampleVm.load p).1 with
    | .ok _ => some (faultOf (decompileToIr p))
    | .error _ => none
  | .error _ => none

theorem of_outcome {text : Str} {fault : Option Fault} (h : outcome text = some fault) :
    ∃ p loaded, fromBytes (encodeAscii text) = .ok p ∧ (sampleVm.load p).1 = .ok loaded ∧
      faultOf (decompileToIr p) = fault := by
  unfold outcome at h
  split at h
  · next p hp =>
    split at h
    · next loaded hload => exact ⟨p, loaded, hp, hload, Option.some.inj h⟩
    · cases h
  · cases h

end Outcome

section Sample

attribute [local instance] sampleRuntime jsonObjects sampleInterpreter

/-- A package with a scan of the tree is loaded and obeys the rules. -/
theorem loaded_decompiles_sample : ∃ p loaded, fromBytes (encodeAscii lawfulScan) = .ok p ∧
    (sampleVm.load p).1 = .ok loaded ∧ p.Lawful := by
  obtain ⟨p, loaded, hp, hload, hfault⟩ := of_outcome (show outcome lawfulScan = some none by
    rw [sampleRuntime_eq_strict]
    decide +kernel)
  refine ⟨p, loaded, hp, hload, (loaded_decompiles_iff sampleVm p loaded hload).mp ?_⟩
  cases hdecompile : decompileToIr p with
  | ok program => exact ⟨program, rfl⟩
  | error e => rw [hdecompile] at hfault; cases hfault

/-- The octets are accepted by `from_bytes` and the package is loaded, but its scan leaves the tree. -/
theorem hand_made_sample : ∃ p loaded, fromBytes (encodeAscii handMade) = .ok p ∧
    (sampleVm.load p).1 = .ok loaded ∧ decompileToIr p = .error (.validation
      (lit "line 0: SCAN scope must be relative and cannot escape .tds")) := by
  obtain ⟨p, loaded, hp, hload, hfault⟩ := of_outcome (show outcome handMade = some (some (.validation
    (lit "line 0: SCAN scope must be relative and cannot escape .tds"))) by
      rw [sampleRuntime_eq_strict]
      decide +kernel)
  refine ⟨p, loaded, hp, hload, ?_⟩
  cases hdecompile : decompileToIr p with
  | ok program => rw [hdecompile] at hfault; cases hfault
  | error e => rw [hdecompile] at hfault; rw [Option.some.inj hfault]

end Sample

end Drivers
