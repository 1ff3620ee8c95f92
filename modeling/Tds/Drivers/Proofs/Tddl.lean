import Tds.Drivers.Rules

/-!
# Validation decides the rules

One lemma per check says when it passes; `validateTddl_eq_ok` puts them together: a program is
validated exactly if it is lawful.
-/

namespace Drivers

open Python FileSystem Option
open Persistence (Items itemAt pyStr pyInt field asInt isText isText_iff)

/-! ## Checks -/

variable {message : Str} {α : Type} {value : Value} {label : String} {minimum maximum : Int} {a : α}

@[simp] theorem rejectIf_eq_ok {condition : Prop} [Decidable condition] {u : Unit} :
    rejectIf condition message = .ok u ↔ ¬ condition := by
  unfold rejectIf reject
  split <;> simp [*]

@[simp] theorem reject_ne_ok : reject message ≠ .ok a := nofun

@[simp] theorem raise_ne_ok {type : ExceptionType} :
    raise type message ≠ .ok a := nofun

@[simp] theorem raiseIf_eq_ok {condition : Prop} [Decidable condition] {type : ExceptionType}
    {u : Unit} : raiseIf condition type message = .ok u ↔ ¬ condition := by
  unfold raiseIf raise
  split <;> simp [*]

@[simp] theorem plainly_eq_ok {x : Check α} : plainly x = .ok a ↔ x = .ok a := by
  cases x <;> simp [plainly, Except.mapError]

theorem any_isText_iff {names : List String} :
    names.any (isText value) = true ↔ LiteralOf names value := by
  simp [List.any_eq_true, isText_iff, LiteralOf]

theorem declares_iff {adapters : List Value} {adapter : Str} :
    declares adapters adapter = true ↔ .str adapter ∈ adapters := by
  rw [declares, List.any_eq_true]
  constructor
  · rintro ⟨value, hmem, h⟩
    cases value <;> simp_all
  · exact fun hmem => ⟨_, hmem, by simp⟩

theorem intLimit_eq_ok {name : String} {i : Int} :
    intLimit value name minimum maximum = .ok i ↔
      asInt value = some i ∧ minimum ≤ i ∧ i ≤ maximum := by
  unfold intLimit
  cases asInt value with
  | none => simp
  | some j =>
    dsimp only
    split
    · next h => simpa using fun heq : j = i => by omega
    · next h => simpa using fun heq : j = i => by omega

theorem not_any_iff {operand : Option Value} {f : Value → Bool} :
    ¬ operand.any f = true ↔ ∀ value, operand = some value → f value = false := by
  cases operand <;> simp

theorem boundOperand_eq_ok {operands : Items} {key : String} {u : Unit} :
    boundOperand operands key label minimum maximum = .ok u ↔
      Optionally operands key (IntIn minimum maximum) := by
  unfold boundOperand Optionally
  cases field operands key with
  | none => simp
  | some value => simp [bind_eq_ok, intLimit_eq_ok, IntIn]

theorem limitOr_eq_ok {limits : Items} {key : String} {default i : Int}
    (hdefault : minimum ≤ default ∧ default ≤ maximum) :
    limitOr limits key default minimum maximum = .ok i ↔
      Optionally limits key (IntIn minimum maximum) ∧ limitValue limits key default = i := by
  rw [limitOr, intLimit_eq_ok]
  unfold Optionally limitValue IntIn
  cases field limits key with
  | none =>
    simp only [getD_none, asInt, some.injEq, reduceCtorEq, false_imp_iff, implies_true,
      true_and, bind_none]
    exact ⟨And.left, fun h => ⟨h, h ▸ hdefault⟩⟩
  | some value =>
    simp only [getD_some, some.injEq, forall_eq', bind_some]
    constructor
    · rintro ⟨hi, hbounds⟩
      exact ⟨⟨i, hi, hbounds⟩, by rw [hi, getD_some]⟩
    · rintro ⟨⟨j, hj, hbounds⟩, h⟩
      rw [hj, getD_some] at h
      exact h ▸ ⟨hj, hbounds⟩

theorem validateToken_eq_ok {value : Str} {u : Unit} :
    validateToken value label = .ok u ↔ isToken value = true := by
  simp [validateToken]

theorem validateDottedToken_eq_ok {u : Unit} :
    validateDottedToken value label = .ok u ↔ DottedToken value := by
  cases value <;> simp [validateDottedToken, DottedToken]

section Operands

variable [Objects] [Interpreter] {program : Program} {instr : Instruction} {u : Unit}

omit [Objects] in
theorem rejectUnsafeAdapter_eq_ok {adapter : Str} :
    rejectUnsafeAdapter adapter = .ok u ↔ isUnsafeAdapter adapter = false := by
  simp [rejectUnsafeAdapter]

theorem validateAdapter_eq_ok {adapter : Value} :
    validateAdapter adapter = .ok u ↔ LawfulAdapter adapter := by
  simp [validateAdapter, bind_eq_ok, validateDottedToken_eq_ok, rejectUnsafeAdapter_eq_ok,
    LawfulAdapter]

theorem validateAdapterUse_eq_ok :
    validateAdapterUse program instr = .ok u ↔ UsesAdapter program.adapters instr.operands := by
  unfold validateAdapterUse UsesAdapter Required UsableAdapter
  cases field instr.operands "using" with
  | none => simp [bind_eq_ok]
  | some value => simp [bind_eq_ok, declares_iff, rejectUnsafeAdapter_eq_ok]

omit [Objects] in
theorem validateThreshold_eq_ok :
    validateThreshold instr = .ok u ↔ ThresholdLawful instr.operands := by
  unfold validateThreshold ThresholdLawful Optionally
  cases field instr.operands "threshold" <;> simp

omit [Objects] [Interpreter] in
theorem validateScope_eq_ok {scope : Str} : validateScope instr scope = .ok u ↔ InTree scope := by
  have hroot : scope = lit ".tds" ∨ lit ".tds/" <+: scope → ¬ lit "/" <+: scope := by
    rintro (rfl | ⟨rest, rfl⟩)
    · decide
    · rintro ⟨rest', h⟩
      exact absurd (List.cons.inj h).1 (by decide)
  unfold validateScope InTree
  simp only [bind_eq_ok, rejectIf_eq_ok, not_not, exists_const]
  rw [not_or]
  exact ⟨fun ⟨⟨_, hparts⟩, hscope⟩ => ⟨hscope, hparts⟩,
    fun ⟨hscope, hparts⟩ => ⟨⟨hroot hscope, hparts⟩, hscope⟩⟩

omit [Interpreter] in
theorem validateScanScope_eq_ok : validateScanScope instr = .ok u ↔
    Required instr.operands "scope" fun value => InTree (pyStr value) := by
  unfold validateScanScope Required
  cases field instr.operands "scope" <;> simp [validateScope_eq_ok]

variable {maxScan maxDepth : Int}

omit [Interpreter] in
theorem validateScan_eq_ok :
    validateScan instr maxScan maxDepth = .ok u ↔ ScanLawful instr.operands maxScan maxDepth := by
  unfold validateScan
  simp only [bind_eq_ok, validateScanScope_eq_ok, boundOperand_eq_ok, rejectIf_eq_ok, not_any_iff,
    Bool.not_eq_false', exists_const]
  exact ⟨fun ⟨hscope, hlimit, hdepth, hrecursive⟩ => ⟨hscope, hlimit, hdepth, hrecursive⟩,
    fun h => ⟨h.scope, h.limit, h.depth, h.recursive⟩⟩

omit [Objects] [Interpreter] in
theorem whenUsing_eq_ok {check : Checked Unit} : whenUsing instr check = .ok u ↔
    ((field instr.operands "using").isSome = true → check = .ok ()) := by
  unfold whenUsing
  split <;> simp [*]

omit [Interpreter] in
theorem validateMatchField_eq_ok : validateMatchField instr = .ok u ↔
    Optionally instr.operands "field" fun value =>
      isToken (pyStr value) = true ∧ hasAny instr.operands predicateKeys = true := by
  unfold validateMatchField Optionally
  cases field instr.operands "field" <;> simp [bind_eq_ok]

theorem validateMatch_eq_ok :
    validateMatch program instr = .ok u ↔ MatchLawful program.adapters instr.operands := by
  unfold validateMatch
  simp only [bind_eq_ok, rejectIf_eq_ok, not_any_iff, Bool.not_eq_false, whenUsing_eq_ok,
    validateAdapterUse_eq_ok, validateThreshold_eq_ok, validateMatchField_eq_ok, exists_const]
  exact ⟨fun ⟨hpattern, hsource, husing, hfield⟩ => ⟨hpattern, hsource, husing, hfield⟩,
    fun h => ⟨h.pattern, h.source, h.using', h.field'⟩⟩

omit [Objects] [Interpreter] in
theorem validateFields_eq_ok : validateFields instr = .ok u ↔
    Optionally instr.operands "fields" fun value =>
      ∃ names, value = .list names ∧ names ≠ [] ∧ ∀ name ∈ names, isFieldName name = true := by
  unfold validateFields Optionally
  cases field instr.operands "fields" with
  | none => simp
  | some value => cases value <;> simp [bind_eq_ok]

theorem validateExtract_eq_ok :
    validateExtract program instr = .ok u ↔ ExtractLawful program.adapters instr.operands := by
  unfold validateExtract
  simp only [bind_eq_ok, rejectIf_eq_ok, not_any_iff, Bool.not_eq_false, whenUsing_eq_ok,
    validateAdapterUse_eq_ok, validateFields_eq_ok, boundOperand_eq_ok, exists_const]
  exact ⟨fun ⟨hsource, husing, hpickle, hfields, hlimit⟩ => ⟨hsource, husing, hpickle, hfields, hlimit⟩,
    fun h => ⟨h.source, h.using', h.notPickle, h.fields, h.limit⟩⟩

theorem validateCall_eq_ok : validateCall program instr = .ok u ↔
    Required instr.operands "adapter" fun value => UsableAdapter program.adapters (pyStr value) := by
  unfold validateCall Required UsableAdapter
  cases field instr.operands "adapter" with
  | none => simp
  | some value => simp [bind_eq_ok, declares_iff, rejectUnsafeAdapter_eq_ok, and_comm]

theorem validateByName_eq_ok :
    validateByName program instr maxScan maxDepth = .ok u ↔
      OperandsLawful program.adapters maxScan maxDepth instr.operands instr.name := by
  unfold validateByName
  cases instr.name with
  | scan => exact validateScan_eq_ok
  | match' => exact validateMatch_eq_ok
  | extract => exact validateExtract_eq_ok
  | score =>
    simp [bind_eq_ok, OperandsLawful, validateAdapterUse_eq_ok, validateThreshold_eq_ok]
  | map =>
    simp [bind_eq_ok, OperandsLawful, validateAdapterUse_eq_ok, validateThreshold_eq_ok]
  | call => exact validateCall_eq_ok
  | emit => exact boundOperand_eq_ok
  | propose => simp [validatePropose, OperandsLawful]
  | halt => simp [OperandsLawful]
  | read => simp [OperandsLawful]
  | branch => simp [OperandsLawful]
  | trace => simp [OperandsLawful]

omit [Interpreter] in
theorem rejectMissing_eq_ok {required : List String} : rejectMissing instr required = .ok u ↔
    ∀ key ∈ required, (field instr.operands key).isSome = true := by
  simp [rejectMissing, List.filter_eq_nil_iff, isSome_iff_ne_none]

theorem rejectUnknown_eq_ok {allowed : List String} : rejectUnknown instr allowed = .ok u ↔
    ∀ key ∈ instr.operands.map Prod.fst, LiteralOf allowed key := by
  have hnil : unknownOperands instr.operands allowed = [] ↔
      ∀ key ∈ instr.operands.map Prod.fst, LiteralOf allowed key := by
    simp only [unknownOperands, List.filter_eq_nil_iff, Bool.not_eq_true', Bool.not_eq_false,
      any_isText_iff]
  rw [← hnil]
  unfold rejectUnknown
  split
  · next h => simp [h]
  · next h => simpa [bind_eq_ok] using h

omit [Objects] [Interpreter] in
theorem validateValue_eq_ok {entry : String × List String} : validateValue instr entry = .ok u ↔
    Optionally instr.operands entry.1 (LiteralOf entry.2) := by
  unfold validateValue Optionally
  cases field instr.operands entry.1 with
  | none => simp
  | some value =>
    have hhash : LiteralOf entry.2 value → isHashable value = true := by
      rintro ⟨name, -, rfl⟩
      rfl
    simp only [bind_eq_ok, plainly_eq_ok, raiseIf_eq_ok, rejectIf_eq_ok, Bool.not_eq_false,
      any_isText_iff, exists_const, some.injEq, forall_eq']
    exact ⟨And.right, fun h => ⟨hhash h, h⟩⟩

theorem validateSpec_eq_ok : validateSpec instr = .ok u ↔ SpecLawful instr.name instr.operands := by
  simp only [validateSpec, bind_eq_ok, rejectMissing_eq_ok, rejectUnknown_eq_ok, forM_eq_ok,
    validateValue_eq_ok, exists_const]
  exact ⟨fun ⟨hrequired, hallowed, hvalues⟩ => ⟨hrequired, hallowed, hvalues⟩,
    fun h => ⟨h.required, h.allowed, h.values⟩⟩

/-! ## Programs -/

theorem validateInstruction_eq_ok :
    validateInstruction program maxScan maxDepth instr = .ok u ↔
      SpecLawful instr.name instr.operands ∧
        OperandsLawful program.adapters maxScan maxDepth instr.operands instr.name := by
  simp [validateInstruction, bind_eq_ok, validateSpec_eq_ok, validateByName_eq_ok]

omit [Interpreter] in
theorem validateKind_eq_ok {manifest : Items} : validateKind manifest = .ok u ↔
    Required manifest "kind" fun value => oneOf (pyStr value) driverClasses = true := by
  unfold validateKind Required
  cases field manifest "kind" <;> simp

omit [Objects] [Interpreter] in
theorem validateEvolution_eq_ok {rule : Value} : validateEvolution rule = .ok u ↔ LawfulRule rule := by
  cases rule <;> simp [validateEvolution, LawfulRule]

omit [Objects] [Interpreter] in
theorem validateHalt_eq_ok {names : List InstructionName} : validateHalt names = .ok u ↔
    names.getLast? = some .halt ∧ names.count .halt = 1 := by
  simp only [validateHalt, bind_eq_ok, rejectIf_eq_ok, not_not, exists_const]
  refine ⟨And.right, fun h => ⟨?_, h⟩⟩
  rintro rfl
  cases h.1

theorem validateTddl_eq_ok : validateTddl program = .ok u ↔ program.Lawful := by
  simp only [validateTddl, bind_eq_ok, rejectIf_eq_ok, not_lt, validateToken_eq_ok,
    validateKind_eq_ok, forM_eq_ok, validateDottedToken_eq_ok, validateAdapter_eq_ok,
    validateHalt_eq_ok, validateInstruction_eq_ok, validateEvolution_eq_ok, exists_const,
    limitOr_eq_ok (show (1 : Int) ≤ 5000 ∧ (5000 : Int) ≤ 100000 by decide),
    limitOr_eq_ok (show (0 : Int) ≤ 8 ∧ (8 : Int) ≤ 64 by decide),
    limitOr_eq_ok (show (1 : Int) ≤ 250 ∧ (250 : Int) ≤ 60000 by decide)]
  constructor
  · rintro ⟨hversion, hid, hkind, hne, hcapabilities, hadapters, hhalt, _, ⟨hscan, rfl⟩, _,
      ⟨hdepth, rfl⟩, _, ⟨htimeout, rfl⟩, hinstructions, hevolution⟩
    exact ⟨hversion, hid, hkind, ⟨by simpa using hne, hcapabilities, hadapters,
      ⟨hscan, hdepth, htimeout⟩, hevolution⟩, hhalt.1, hhalt.2, hinstructions⟩
  · rintro ⟨hversion, hid, hkind, hdecl, hlast, honce, hinstructions⟩
    exact ⟨hversion, hid, hkind, by simpa using hdecl.capabilities_ne_nil, hdecl.capabilities,
      hdecl.adapters, ⟨hlast, honce⟩, _, ⟨hdecl.limits.maxScan, rfl⟩, _, ⟨hdecl.limits.maxDepth, rfl⟩,
      _, ⟨hdecl.limits.timeoutMs, rfl⟩, hinstructions, hdecl.evolution⟩

end Operands

end Drivers
