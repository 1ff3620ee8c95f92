import Tds.Drivers.Machine
import Tds.Drivers.Proofs.Load

/-!
# What a scan selects

The limits of a driver are checked on the operands of a scan. The machine has defaults of its own for
operands that are absent, so a scan keeps to the limits only if its operands do.
-/

namespace Drivers

open Python FileSystem List
open Persistence (Items pyStr pyInt field asInt stripSlashes)

section Selection

variable {scanned : Items → Bool} {limit : Int}

theorem scanRecords_eq (matched records : List Items) :
    scanRecords scanned limit matched records = matched ++
      (records.filter scanned).take (max limit.toNat (matched.length + 1) - matched.length) := by
  induction records generalizing matched with
  | nil => simp [scanRecords]
  | cons record records ih =>
    rw [scanRecords]
    by_cases hscanned : scanned record = true
    · rw [if_pos hscanned, filter_cons_of_pos hscanned]
      by_cases hlimit : limit ≤ matched.length + 1
      · have hone : max limit.toNat (matched.length + 1) - matched.length = 1 := by omega
        rw [if_pos hlimit, hone, take_succ_cons, take_zero]
      · have hmore : max limit.toNat (matched.length + 1) - matched.length =
            max limit.toNat (matched.length + 2) - (matched.length + 1) + 1 := by omega
        rw [if_neg hlimit, ih, hmore, take_succ_cons, length_append, append_assoc]
        rfl
    · rw [if_neg hscanned, filter_cons_of_neg hscanned, ih]

end Selection

section Depth

variable (start : Str)

/-- A path with `n + 1` components below the start of a scan, all but two of them empty. -/
def deepPath (n : Nat) : Str := start ++ 47 :: 97 :: (List.replicate n 47 ++ [97])

theorem recordDepth_start : recordDepth start start = 0 := by
  simp [recordDepth, stripSlashes]

theorem recordDepth_deepPath (n : Nat) : recordDepth start (deepPath start n) = n + 1 := by
  have hrel : stripSlashes (47 :: 97 :: (replicate n 47 ++ [97])) =
      97 :: (replicate n 47 ++ [97]) := by
    rw [stripSlashes, dropWhile_cons_of_pos rfl, dropWhile_cons_of_neg (by decide),
      ← cons_append, rdropWhile_concat_neg _ _ _ (by decide)]
  rw [recordDepth, deepPath, drop_left, hrel, if_neg (cons_ne_nil _ _)]
  simp

def recordAt (path : Str) : Items := [(.str (lit "path"), .str path)]

theorem recordPath_recordAt [Objects] (path : Str) : recordPath (recordAt path) = path := by
  simp [recordPath, recordAt, field, Persistence.itemAt, pyStr]

end Depth

section Limits

variable {operands limits : Items} {maxScan maxDepth : Int} {records current : List Items}

theorem limitValue_mem (key : String) (default : Int) {minimum maximum : Int}
    (h : Optionally operands key (IntIn minimum maximum)) :
    (field operands key = none ∧ limitValue operands key default = default) ∨
      ((field operands key).isSome = true ∧ minimum ≤ limitValue operands key default ∧
        limitValue operands key default ≤ maximum) := by
  unfold limitValue
  cases hvalue : field operands key with
  | none => exact .inl ⟨rfl, rfl⟩
  | some value =>
    obtain ⟨i, hi, hmin, hmax⟩ := h value hvalue
    exact .inr ⟨rfl, by simpa [hi] using hmin, by simpa [hi] using hmax⟩

theorem unsupported_eq_nil : (unsupportedOperands.filter fun key => (field operands key).isSome) = [] ↔
    hasAny operands unsupportedOperands = false := by
  rw [hasAny, any_eq_false, filter_eq_nil_iff]

variable [Objects]

/-- How deep the records are that a scan may select. -/
def scanReach (operands : Items) : Int :=
  if isRecursive operands then limitValue operands "depth" 64 else 1

/-- The records that a scan has selected are within the limits. -/
structure WithinLimits (limits operands : Items) (current : List Items) : Prop where
  count : (current.length : Int) ≤ limitValue limits "max_scan" 5000
  depth : ∀ scope, field operands "scope" = some scope → ∀ record ∈ current,
    (recordDepth (scanStart (pyStr scope)) (recordPath record) : Int) ≤ limitValue limits "max_depth" 8

/-- The operands state how many records are selected, and reach no deeper than the limits say. -/
structure StatesLimits (limits operands : Items) : Prop where
  limit : (field operands "limit").isSome = true
  depth : scanReach operands ≤ limitValue limits "max_depth" 8

theorem intOperand_eq (key : String) (default : Int) {minimum maximum : Int}
    (h : Optionally operands key (IntIn minimum maximum)) :
    intOperand operands key default = .ok (limitValue operands key default) := by
  unfold intOperand limitValue
  cases hvalue : field operands key with
  | none => rfl
  | some value =>
    obtain ⟨i, hi, -⟩ := h value hvalue
    simp [hi]

/-- Whether a scan with these operands looks at the record. -/
def scans (operands : Items) (scope : Value) : Items → Bool :=
  isScanned (isRecursive operands) (limitValue operands "depth" (if isRecursive operands then 64 else 0))
    (scanStart (pyStr scope))

theorem scans_iff {scope : Value} {record : Items} : scans operands scope record = true ↔
    (recordPath record = scanStart (pyStr scope) ∨ scanStart (pyStr scope) ++ [47] <+: recordPath record) ∧
      (recordDepth (scanStart (pyStr scope)) (recordPath record) : Int) ≤ scanReach operands := by
  unfold scans isScanned scanReach
  cases isRecursive operands <;> simp [List.isPrefixOf_iff_prefix]

/-- The number of records that a scan may select of so many. -/
def scanLimit (operands : Items) (records : List Items) : Int :=
  limitValue operands "limit" (if records = [] then 1 else records.length)

theorem one_le_scanLimit (h : ScanLawful operands maxScan maxDepth) (records : List Items) :
    1 ≤ scanLimit operands records := by
  rcases limitValue_mem "limit" (if records = [] then 1 else records.length) h.limit with
    ⟨-, heq⟩ | ⟨-, hmin, -⟩
  · rw [scanLimit, heq]
    split
    · exact le_refl 1
    · exact_mod_cast length_pos_iff.mpr ‹_›
  · exact hmin

/-- The records that a scan selects when the validator has passed its operands. -/
theorem opScan_eq_ok (h : ScanLawful operands maxScan maxDepth) {scope : Value}
    (hscope : field operands "scope" = some scope) :
    opScan operands records = .ok current ↔ hasAny operands unsupportedOperands = false ∧
      current = (records.filter (scans operands scope)).take (scanLimit operands records).toNat := by
  have hlimit := one_le_scanLimit h records
  have hmax : max (scanLimit operands records).toNat 1 = (scanLimit operands records).toNat := by omega
  unfold opScan
  split
  · next hnil =>
    rw [and_iff_right (unsupported_eq_nil.mp hnil), ← hmax]
    simp only [subscript, hscope, ok_bind, intOperand_eq _ _ h.limit, intOperand_eq _ _ h.depth,
      pure_eq_ok, Except.mapError, scanRecords_eq, nil_append, Except.ok.injEq]
    exact eq_comm
  · next hne =>
    constructor
    · rintro ⟨⟩
    · exact fun ⟨hnone, _⟩ => absurd (unsupported_eq_nil.mpr hnone) hne

theorem withinLimits_of_states (h : ScanLawful operands (limitValue limits "max_scan" 5000) maxDepth)
    (hstates : StatesLimits limits operands) (hscan : opScan operands records = .ok current) :
    WithinLimits limits operands current := by
  obtain ⟨scope, hscope, -⟩ := h.scope
  obtain ⟨-, rfl⟩ := (opScan_eq_ok h hscope).mp hscan
  constructor
  · have hlength := length_take_le (scanLimit operands records).toNat
      (records.filter (scans operands scope))
    have hmax : scanLimit operands records ≤ limitValue limits "max_scan" 5000 := by
      rcases limitValue_mem "limit" (if records = [] then 1 else records.length) h.limit with
        ⟨hnone, -⟩ | ⟨-, -, hmax⟩
      · exact absurd hstates.limit (by simp [hnone])
      · exact hmax
    have hone := one_le_scanLimit h records
    omega
  · intro scope' hscope' record hrecord
    obtain rfl := Option.some.inj (hscope.symm.trans hscope')
    have hscanned := (mem_filter.mp (mem_of_mem_take hrecord)).2
    exact (scans_iff.mp hscanned).2.trans hstates.depth

theorem states_of_withinLimits (h : ScanLawful operands maxScan maxDepth) (hlimits : LimitsLawful limits)
    (hsupported : hasAny operands unsupportedOperands = false)
    (hwithin : ∀ records current, opScan operands records = .ok current →
      WithinLimits limits operands current) : StatesLimits limits operands := by
  obtain ⟨scope, hscope, -⟩ := h.scope
  -- of equal records that a scan looks at, as many are selected as the limit says
  have hequal : ∀ record n, scans operands scope record = true → WithinLimits limits operands
      (replicate (min (scanLimit operands (replicate n record)).toNat n) record) := by
    intro record n hscanned
    have hselected := hwithin (replicate n record) _ ((opScan_eq_ok h hscope).mpr ⟨hsupported, rfl⟩)
    rwa [filter_replicate_of_pos hscanned, take_replicate] at hselected
  constructor
  · rcases limitValue_mem "limit" 0 h.limit with ⟨hnone, -⟩ | ⟨hsome, -⟩
    · have hreach : 0 ≤ scanReach operands := by
        unfold scanReach
        rcases limitValue_mem "depth" 64 h.depth with ⟨-, heq⟩ | ⟨-, hmin, -⟩ <;> split <;> omega
      have hcount := (hequal (recordAt (scanStart (pyStr scope)))
        ((limitValue limits "max_scan" 5000).toNat + 1)
        (scans_iff.mpr (by simp [recordPath_recordAt, recordDepth_start, hreach]))).count
      have hall : ∀ n record, scanLimit operands (replicate (n + 1) record) = n + 1 := by
        simp [scanLimit, limitValue, hnone]
      rw [length_replicate, hall] at hcount
      omega
    · exact hsome
  · by_contra hdeep
    set n := (limitValue limits "max_depth" 8).toNat
    have hpos : 0 ≤ limitValue limits "max_depth" 8 := by
      rcases limitValue_mem "max_depth" 8 hlimits.maxDepth with ⟨-, heq⟩ | ⟨-, hmin, -⟩ <;> omega
    have hscanned : scans operands scope (recordAt (deepPath (scanStart (pyStr scope)) n)) = true := by
      rw [scans_iff, recordPath_recordAt, recordDepth_deepPath]
      exact ⟨.inr ⟨97 :: (replicate n 47 ++ [97]), by simp [deepPath]⟩, by omega⟩
    have hone := one_le_scanLimit h (replicate 1 (recordAt (deepPath (scanStart (pyStr scope)) n)))
    have hdepth := (hequal _ 1 hscanned).depth scope hscope _
      (mem_replicate.mpr ⟨by omega, rfl⟩)
    rw [recordPath_recordAt, recordDepth_deepPath] at hdepth
    omega

/-- A scan that the validator passes keeps to the limits just if the machine refuses it or it states
them. -/
theorem withinLimits_iff (h : ScanLawful operands (limitValue limits "max_scan" 5000) maxDepth)
    (hlimits : LimitsLawful limits) :
    (∀ records current, opScan operands records = .ok current → WithinLimits limits operands current) ↔
      (hasAny operands unsupportedOperands = true ∨ StatesLimits limits operands) := by
  constructor
  · intro hwithin
    by_cases hsupported : hasAny operands unsupportedOperands = true
    · exact .inl hsupported
    · exact .inr (states_of_withinLimits h hlimits (Bool.eq_false_of_not_eq_true hsupported) hwithin)
  · rintro (hunsupported | hstates) records current hcurrent
    · obtain ⟨scope, hscope, -⟩ := h.scope
      have hsupported := ((opScan_eq_ok h hscope).mp hcurrent).1
      rw [hunsupported] at hsupported
      cases hsupported
    · exact withinLimits_of_states h hstates hcurrent

variable [Interpreter]

theorem Program.Lawful.scan {program : Program} (h : program.Lawful) {instr : Instruction}
    (hinstr : instr ∈ program.instructions) (hscan : instr.name = .scan) :
    ScanLawful instr.operands (limitValue program.limits "max_scan" 5000)
      (limitValue program.limits "max_depth" 8) := by
  have hoperands := (h.instructions instr hinstr).2
  rwa [hscan] at hoperands

/-- **Scans.** Whatever the records are, a scan of a program that was validated keeps to the limits of
the driver just if it cannot be executed, or its operands state a limit and reach no deeper than the
limits say. The program that is recovered from a package has the operands that the machine reads. -/
theorem scan_withinLimits_iff (program : Program) (hvalid : validateTddl program = .ok ())
    (instr : Instruction) (hinstr : instr ∈ program.instructions) (hscan : instr.name = .scan) :
    (∀ records current, opScan instr.operands records = .ok current →
      WithinLimits program.limits instr.operands current) ↔
    (hasAny instr.operands unsupportedOperands = true ∨ StatesLimits program.limits instr.operands) := by
  have hlawful := validateTddl_eq_ok.mp hvalid
  exact withinLimits_iff (hlawful.scan hinstr hscan) hlawful.declaration.limits

/-- The same for a package that decompiles, and the operands that the machine reads for its scan. -/
theorem scan_of_package_iff [Runtime] {p : BytecodePackage} {program : Program}
    (h : decompileToIr p = .ok program) {code : BytecodeInstruction} (hcode : code ∈ p.instructions)
    (hscan : InstructionName.ofValue code.name = some .scan)
    (hoperands : operandsFor p code.operandRef = .ok operands) :
    (∀ records current, opScan operands records = .ok current → WithinLimits p.limits operands current) ↔
      (hasAny operands unsupportedOperands = true ∨ StatesLimits p.limits operands) := by
  obtain ⟨-, instructions, driverId, version, hall, -, -, rfl, hlawful⟩ := decompileToIr_eq_ok.mp h
  obtain ⟨instr, hinstr, hdecompiled⟩ := exists_of_forall₂_left hall hcode
  obtain ⟨hname, hconstant, -⟩ := decompileInstruction_eq_ok.mp hdecompiled
  have hread : instr.operands = operands := by
    rw [operandsFor, hconstant] at hoperands
    exact Except.ok.inj hoperands
  subst hread
  exact withinLimits_iff (hlawful.scan hinstr (Option.some.inj (hname.symm.trans hscan)))
    hlawful.declaration.limits

end Limits

section Sample

attribute [local instance] jsonObjects sampleInterpreter

def scanSample (operands limits : Items) : Program where
  driverId := lit "d"
  version := 1
  manifest := [(.str (lit "kind"), .str (lit "search"))]
  capabilities := [.str (lit "registry.scan")]
  adapters := []
  limits := limits
  instructions := [⟨.scan, (.str (lit "scope"), .str (lit ".tds")) :: operands, 1⟩, ⟨.halt, [], 2⟩]
  evolution := []

def limitedScan : Program := scanSample [(.str (lit "limit"), .int 10)] []

/-- The theorem at a scan with a limit, which selects records at most one level below its scope. -/
theorem scan_withinLimits_sample : validateTddl limitedScan = .ok () ∧
    ∃ instr ∈ limitedScan.instructions, instr.name = .scan ∧
      ∀ records current, opScan instr.operands records = .ok current →
        WithinLimits limitedScan.limits instr.operands current := by
  have hvalid : validateTddl limitedScan = .ok () := by decide
  exact ⟨hvalid, _, mem_cons_self, rfl, (scan_withinLimits_iff _ hvalid _ mem_cons_self
    rfl).mpr (.inr ⟨by decide, by decide⟩)⟩

def unlimitedScan : Program := scanSample [] [(.str (lit "max_scan"), .int 1)]

/-- A scan without a limit selects two records where the driver allows one. -/
theorem scan_beyond_limits_sample : validateTddl unlimitedScan = .ok () ∧
    ∃ instr ∈ unlimitedScan.instructions, instr.name = .scan ∧
      ∃ current, opScan instr.operands [recordAt (lit ".tds/a"), recordAt (lit ".tds/b")] =
        .ok current ∧ ¬ WithinLimits unlimitedScan.limits instr.operands current :=
  ⟨by decide, _, mem_cons_self, rfl, _, rfl, fun h => absurd h.count (by decide)⟩

end Sample

end Drivers
