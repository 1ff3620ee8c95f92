import Tds.Eaglegate.Proofs.Adapter

/-!
# What a call of the adapter leaves

The run of a runtime that is new, for all targets, scripts, injected failures, deadlines, cancel
positions and bounds of the trace: what is committed, which traces are returned, which exceptions are
raised, and whether a reservation is outstanding.
-/

namespace Eaglegate

open Python Process FakeTargetRuntimeAdapter

section

variable [Runtime] {targetTokens runtimeTokens : List Int} {epochRoot identityRoot : Root}
  {reserveFail verifyFail : Option Int} {proposer : FakeEagleAdapter} {runtime : FakeTargetRuntimeAdapter}
  {request : EaglegateAdapterRequest} {limits : EaglegateAdapterLimits} {cancelAt : Option Int}
  {passes boundary : Nat}

/-! ## Arguments -/

omit [Runtime] in
theorem FakeTargetRuntimeAdapter.init_eq_ok
    (h : init runtimeTokens epochRoot identityRoot reserveFail verifyFail
      = .ok runtime) : Normal runtime.targetTokens ∧ runtime.ledger = .init := by
  simp only [init, bind_eq_ok, exists_unit] at h
  obtain ⟨target, htarget, -, -, h⟩ := h
  cases h
  exact ⟨(normalizeTokens_eq_ok.1 htarget).2, rfl⟩

theorem checkArguments_eq_ok (hnormal : Normal runtime.targetTokens) :
    checkArguments targetTokens runtime request limits cancelAt = .ok boundary ↔
      targetTokens = runtime.targetTokens ∧ request.limitsRoot = limits.limitsRoot ∧
      checkCancel "cancel_at_position" runtime.targetTokens cancelAt = .ok boundary := by
  simp only [checkArguments, bind_eq_ok, normalizeTokens_eq_ok, raiseIf_eq_ok, exists_unit, not_not, ne_eq]
  constructor
  · rintro ⟨_, ⟨rfl, -⟩, rfl, hlimits, hcancel⟩
    exact ⟨rfl, hlimits, hcancel⟩
  · rintro ⟨rfl, hlimits, hcancel⟩
    exact ⟨runtime.targetTokens, ⟨rfl, hnormal⟩, rfl, hlimits, hcancel⟩

omit [Runtime] in
theorem checkCancel_cases {name : String} {target : List Int}
    (h : checkCancel name target cancelAt = .ok boundary) :
    (cancelAt = none ∧ boundary = target.length) ∨ cancelAt = some (boundary : Int) := by
  cases cancelAt with
  | none =>
    cases h
    exact .inl ⟨rfl, rfl⟩
  | some position =>
    simp only [checkCancel, requireInt, bind_eq_ok, raiseIf_eq_ok, exists_unit] at h
    obtain ⟨hbounds, h⟩ := h
    cases h
    right
    rw [Int.toNat_of_nonneg (by omega)]

theorem exists_checkArguments_ok (hnormal : Normal runtime.targetTokens) :
    (∃ boundary, checkArguments targetTokens runtime request limits cancelAt = .ok boundary) ↔
      targetTokens = runtime.targetTokens ∧ request.limitsRoot = limits.limitsRoot ∧
      ∀ position, cancelAt = some position → 0 ≤ position ∧ position ≤ (targetTokens.length : Int) := by
  simp only [checkArguments_eq_ok hnormal, exists_and_left]
  refine and_congr_right fun htarget => and_congr_right fun _ => ?_
  subst htarget
  constructor
  · rintro ⟨boundary, hboundary⟩ position rfl
    have hle := checkCancel_le hboundary
    rcases checkCancel_cases hboundary with ⟨hnone, -⟩ | hsome
    · cases hnone
    · cases hsome
      omega
  · intro hcancel
    cases cancelAt with
    | none => exact ⟨_, rfl⟩
    | some position =>
      obtain ⟨hmin, hmax⟩ := hcancel position rfl
      rw [checkCancel, requireInt_ok _ hmin hmax, ok_bind]
      exact ⟨_, rfl⟩

def newSession (proposer : FakeEagleAdapter) (runtime : FakeTargetRuntimeAdapter)
    (limits : EaglegateAdapterLimits) : Session := ⟨runtime, proposer, ⟨limits.deadlineBudgetTicks, 0⟩⟩

omit [Runtime] in
theorem runContext_of_checkCancel {name : String} (hnormal : Normal runtime.targetTokens)
    (h : checkCancel name runtime.targetTokens cancelAt = .ok boundary) :
    RunContext (newSession proposer runtime limits) limits boundary (cancelAt.map Int.toNat) := by
  refine ⟨hnormal, checkCancel_le h, rfl, ?_⟩
  rcases checkCancel_cases h with ⟨rfl, hend⟩ | rfl
  · exact .inl ⟨rfl, hend⟩
  · exact .inr rfl

/-! ## The run on the builder -/

def CancelsUndisturbed (proposer : FakeEagleAdapter) (runtime : FakeTargetRuntimeAdapter)
    (request : EaglegateAdapterRequest) (limits : EaglegateAdapterLimits) (boundary : Nat)
    (cancelAt : Option Int) : Prop :=
  request.epochRoot = runtime.epochRoot ∧ request.adapterIdentityRoot = runtime.adapterIdentityRoot ∧
    WillCancel (newSession proposer runtime limits) limits boundary (cancelAt.map Int.toNat) 0 1

section

variable (hnormal : Normal runtime.targetTokens) (hledger : runtime.ledger = .init)
  (hcancel : checkCancel "cancel_at_position" runtime.targetTokens cancelAt = .ok boundary)
  (hpasses : runtime.targetTokens.length < passes)
include hnormal hledger hcancel hpasses

variable (proposer request limits) in
/-- The run returns, if its events have room; else it is refused the first that has none. -/
theorem play_adapterRun {holding : Nat → Prop}
    (hholding : holding = HoldsInRun runtime proposer.script request limits (cancelAt.map Int.toNat) passes) :
    (∃ v builder count,
      (adapterRun passes proposer runtime request limits cancelAt boundary).play handleRecord
        ⟨request.requestRoot, limits.maxTraceEvents, .new, []⟩ = .finished (.ok v) builder ∧
      v.Finished holding (newSession proposer runtime limits) boundary ⟨.closed, 0, count⟩ ∧
      (v.cancelled = true ↔ CancelsUndisturbed proposer runtime request limits boundary cancelAt) ∧
      builder.Follows limits.maxTraceEvents request.requestRoot ⟨.closed, 0, count⟩ ∧
      count ≤ limits.maxTraceEvents) ∨
    ∃ r builder,
      (adapterRun passes proposer runtime request limits cancelAt boundary).play handleRecord
        ⟨request.requestRoot, limits.maxTraceEvents, .new, []⟩ = .refused r boundExceeded builder ∧
      (r.session.runtime.ledger.reservations = [] ↔ ¬ holding limits.maxTraceEvents) ∧
      limits.maxTraceEvents < ((adapterRun passes proposer runtime request limits cancelAt boundary).requests
        Protocol.handle ⟨.new, 0, 0⟩).length := by
  have hcontext : RunContext (newSession proposer runtime limits) limits boundary (cancelAt.map Int.toNat) :=
    runContext_of_checkCancel hnormal hcancel
  have hrecords : Records holding _ (adapterRun passes proposer runtime request limits cancelAt boundary)
      ⟨.new, 0, 0⟩ := records_adapterProgram hcontext request hledger rfl hpasses hholding
  have hmax := limits.events_le
  rcases Prog.Plays.bounded
      (bounded_handleRecord (show limits.maxTraceEvents ≤ maxEvents + 1 by omega) request.requestRoot) hrecords
      ⟨follows_init _ _, rfl⟩ (Nat.zero_le _) with
    ⟨r, count, p, builder, hplay, ⟨v, rfl, hv, hcancelled⟩, ⟨hfollows, rfl⟩, hcount⟩ |
    ⟨r, p, builder, hplay, hsound, ⟨-, hcount⟩, hlong⟩
  · have hp := hv.protocol
    rw [hp] at hv hfollows
    exact .inl ⟨v, builder, p.count, hplay, hv, hcancelled, hfollows, hcount⟩
  · rw [Nat.zero_add] at hlong
    exact .inr ⟨r, builder, hplay, hcount ▸ hsound.reservations, hlong⟩

end

/-! ## What follows the loop -/

omit [Runtime] in
theorem AdapterConformanceOutcome.validate_eq_ok {outcome outcome' : AdapterConformanceOutcome}
    (h : outcome.validate = .ok outcome') : outcome = outcome' := by
  simp only [AdapterConformanceOutcome.validate, bind_eq_ok, exists_unit] at h
  obtain ⟨-, -, -, -, -, -, -, h⟩ := h
  exact Except.ok.inj h

variable {execution : AdapterExecution}

theorem completeAdapter_eq_ok {v : AdapterVariables} {builder : AdapterTraceBuilder}
    (h : completeAdapter request v builder = .ok execution) :
    builder.finish = .ok execution.trace ∧
      execution.outcome.tokenCount = v.session.runtime.ledger.committed.length ∧
      execution.outcome.outstandingReservations = v.session.runtime.ledger.outstandingReservations ∧
      execution.outcome.allCommitsByTarget = v.session.runtime.ledger.allCommitsByTarget ∧
      execution.outcome.cancelled = v.cancelled := by
  simp only [completeAdapter, bind_eq_ok] at h
  obtain ⟨trace, htrace, outcome, houtcome, h⟩ := h
  cases h
  obtain rfl := AdapterConformanceOutcome.validate_eq_ok houtcome
  exact ⟨htrace, rfl, rfl, rfl, rfl⟩

theorem completeAdapter_ok {s₀ : Session} {v : AdapterVariables} {builder : AdapterTraceBuilder}
    {count : Nat} (hnormal : Normal s₀.runtime.targetTokens)
    (hdeadline : s₀.clock.deadlineTicks ≤ uint63Max) {holding : Nat → Prop}
    (hv : v.Finished holding s₀ boundary ⟨.closed, 0, count⟩)
    (hfollows : builder.Follows limits.maxTraceEvents request.requestRoot ⟨.closed, 0, count⟩)
    (hcount : count ≤ limits.maxTraceEvents)
    (hcalls : s₀.proposer.callCount + s₀.runtime.targetTokens.length < uint63Max) :
    ∃ execution, completeAdapter request v builder = .ok execution ∧
      execution.trace.validate = .ok execution.trace := by
  obtain ⟨hfinish, hvalid, hne⟩ := hfollows.finish
  have hevents := limits.events_le
  have hlength : builder.events.length = count := hfollows.length
  have hpos : 0 < builder.events.length := List.length_pos_iff.2 hne
  have hsmall : maxEvents ≤ uint63Max := by decide
  have htokens := hv.sound.position_le hnormal
  have hcalls' := hv.sound.calls_le
  have hboundary := hv.sound.holds.le
  have hticks := hv.sound.ticks_le
  have hclock := hv.sound.deadline
  have hnone : v.session.runtime.ledger.outstandingReservations = 0 := by
    rw [ReferenceKVLedger.outstandingReservations, hv.sound.reservations]
    rfl
  have hpath : requireAscii "path"
      (if v.fault = .none then "adapter_conformance" else "target_only_fallback") false = .ok () := by
    split <;> decide
  rw [completeAdapter, hfinish, ok_bind]
  simp only [AdapterConformanceOutcome.validate, hpath, hv.reason, ok_bind, hnone]
  rw [requireInt_ok _ (by omega) (show (v.session.runtime.ledger.committed.length : Int) ≤ maxTokens by
      exact Nat.cast_le.2 htokens), ok_bind, requireInt_ok _ (by omega) (by omega), ok_bind,
    requireInt_ok _ (by omega) (by decide), ok_bind, requireInt_ok _ (by omega) (by omega), ok_bind,
    requireInt_ok _ (by omega) (by omega), ok_bind]
  exact ⟨_, rfl, hvalid⟩

omit [Runtime] in
theorem Undisturbed.cancel_lt {script : Script} {cancel position ticks : Nat}
    (h : Undisturbed runtime script limits cancel position ticks) :
    cancel < runtime.targetTokens.length := by
  induction h with
  | cancelled hproposes hcancel => exact Nat.lt_of_le_of_lt hcancel hproposes.inside
  | committed _ _ _ _ _ ih => exact ih

omit [Runtime] in
theorem cancelsUndisturbed_iff
    (hcancel : checkCancel "cancel_at_position" runtime.targetTokens cancelAt = .ok boundary) :
    CancelsUndisturbed proposer runtime request limits boundary cancelAt ↔
      ∃ cancel : Nat, cancelAt = some (cancel : Int) ∧ cancel < runtime.targetTokens.length ∧
        request.epochRoot = runtime.epochRoot ∧
        request.adapterIdentityRoot = runtime.adapterIdentityRoot ∧
        Undisturbed runtime proposer.script limits cancel 0 1 := by
  rcases checkCancel_cases hcancel with ⟨rfl, -⟩ | rfl
  · constructor
    · rintro ⟨-, -, hnone, -⟩
      cases hnone
    · rintro ⟨cancel, hnone, -⟩
      cases hnone
  · constructor
    · rintro ⟨hepoch, hidentity, -, hrun⟩
      exact ⟨boundary, rfl, Undisturbed.cancel_lt hrun, hepoch, hidentity, hrun⟩
    · rintro ⟨cancel, hsome, -, hepoch, hidentity, hrun⟩
      obtain rfl : boundary = cancel := Int.ofNat_inj.1 (Option.some.inj hsome)
      exact ⟨hepoch, hidentity, rfl, hrun⟩

theorem cancelled_of_runTargetOnly {ring : Int} {expected : DecodeOutcome} {ledger : ReferenceKVLedger}
    (h : runTargetOnly targetTokens cancelAt ring = .ok (expected, ledger)) :
    expected.cancelled = cancelsBefore targetTokens cancelAt := by
  simp only [runTargetOnly, bind_eq_ok] at h
  obtain ⟨target, htarget, _, -, _, -, ⟨_, _⟩, -, outcome, hfinish, h⟩ := h
  cases h
  obtain ⟨rfl, -⟩ := normalizeTokens_eq_ok.1 htarget
  simp only [finish, DecodeOutcome.validate, bind_eq_ok, exists_unit] at hfinish
  obtain ⟨-, -, -, -, -, -, -, hfinish⟩ := hfinish
  cases hfinish
  rfl

theorem nonneg_of_runAdapter
    (hrun : (runAdapterConformanceReference passes targetTokens proposer runtime request limits
      cancelAt).1 = .ok execution) {position : Int} (hposition : cancelAt = some position) :
    0 ≤ position := by
  rw [runAdapterConformanceReference] at hrun
  rcases harguments : checkArguments targetTokens runtime request limits cancelAt with e | boundary
  · rw [harguments] at hrun
    cases hrun
  · simp only [checkArguments, bind_eq_ok, exists_unit] at harguments
    obtain ⟨_, -, -, -, hcancel⟩ := harguments
    rcases checkCancel_cases hcancel with ⟨hnone, -⟩ | hsome
    · cases hposition.symm.trans hnone
    · obtain rfl := Option.some.inj (hposition.symm.trans hsome)
      exact Int.natCast_nonneg boundary

/-! ## Results -/

section

variable (hinit : FakeTargetRuntimeAdapter.init runtimeTokens epochRoot identityRoot reserveFail verifyFail
      = .ok runtime) (hpasses : targetTokens.length < passes)
include hinit hpasses

variable (proposer request limits cancelAt) in
/-- How a call on a new runtime ends: its arguments are refused, the run finishes, or the trace has no
room for an event. -/
theorem runAdapter_cases :
    (∃ e, checkArguments targetTokens runtime request limits cancelAt = .error e ∧
      runAdapterConformanceReference passes targetTokens proposer runtime request limits cancelAt
        = (.error e, runtime)) ∨
    ∃ boundary, checkArguments targetTokens runtime request limits cancelAt = .ok boundary ∧
      ((∃ v builder count,
        runAdapterConformanceReference passes targetTokens proposer runtime request limits cancelAt
          = (completeAdapter request v builder, v.session.runtime) ∧
        v.Finished (HoldsInRun runtime proposer.script request limits (cancelAt.map Int.toNat) passes)
          (newSession proposer runtime limits) boundary ⟨.closed, 0, count⟩ ∧
        (v.cancelled = true ↔ CancelsUndisturbed proposer runtime request limits boundary cancelAt) ∧
        builder.Follows limits.maxTraceEvents request.requestRoot ⟨.closed, 0, count⟩ ∧
        count ≤ limits.maxTraceEvents) ∨
      ∃ runtime', runAdapterConformanceReference passes targetTokens proposer runtime request limits cancelAt
          = (.error boundExceeded, runtime') ∧
        (runtime'.ledger.reservations = [] ↔ ¬ HoldsInRun runtime proposer.script request limits
          (cancelAt.map Int.toNat) passes limits.maxTraceEvents) ∧
        limits.maxTraceEvents < ((adapterRun passes proposer runtime request limits cancelAt
          boundary).requests Protocol.handle ⟨.new, 0, 0⟩).length) := by
  obtain ⟨hnormal, hledger⟩ := init_eq_ok hinit
  rw [runAdapterConformanceReference]
  rcases harguments : checkArguments targetTokens runtime request limits cancelAt with e | boundary
  · exact .inl ⟨e, rfl, rfl⟩
  obtain ⟨rfl, hlimits, hcancel⟩ := (checkArguments_eq_ok hnormal).1 harguments
  refine .inr ⟨boundary, rfl, ?_⟩
  rcases play_adapterRun proposer request limits hnormal hledger hcancel hpasses rfl with
    ⟨v, builder, count, hplay, hrest⟩ | ⟨r, builder, hplay, hrest⟩
  · exact .inl ⟨v, builder, count, by simp only [hplay], hrest⟩
  · exact .inr ⟨r.session.runtime, by simp only [hplay], hrest⟩

/-- **What is committed.** When the run of a new runtime returns, the tokens of the target up to the
cancel position are committed, each by the target, and no reservation is outstanding. -/
theorem runAdapter_committed {execution : AdapterExecution}
    {runtime' : FakeTargetRuntimeAdapter}
    (hrun : runAdapterConformanceReference passes targetTokens proposer runtime request limits cancelAt
      = (.ok execution, runtime')) :
    runtime'.ledger.committed = targetTokens.take ((cancelAt.map Int.toNat).getD targetTokens.length) ∧
    runtime'.ledger.commitAuthorities = runtime'.ledger.committed.map (fun _ => targetAuthority) ∧
    runtime'.ledger.reservations = [] ∧
    execution.outcome.tokenCount = runtime'.ledger.committed.length ∧
    execution.outcome.allCommitsByTarget = true ∧
    execution.outcome.outstandingReservations = 0 := by
  obtain ⟨hnormal, -⟩ := init_eq_ok hinit
  rcases runAdapter_cases proposer request limits cancelAt hinit hpasses with
    ⟨e, -, heq⟩ | ⟨boundary, harguments, ⟨v, builder, count, heq, hv, -⟩ | ⟨_, heq, -⟩⟩
  · cases hrun.symm.trans heq
  · obtain ⟨rfl, -, hcancel⟩ := (checkArguments_eq_ok hnormal).1 harguments
    obtain ⟨hcomplete, rfl⟩ := Prod.mk.inj (hrun.symm.trans heq)
    obtain ⟨-, hcount, houtstanding, hall, -⟩ := completeAdapter_eq_ok hcomplete.symm
    have hholds := hv.sound.holds
    have hboundary : (cancelAt.map Int.toNat).getD runtime.targetTokens.length = boundary := by
      rcases checkCancel_cases hcancel with ⟨rfl, hend⟩ | rfl
      · exact hend.symm
      · rfl
    refine ⟨?_, ?_, hv.sound.reservations, hcount, hall.trans hholds.allCommitsByTarget, ?_⟩
    · rw [hboundary, ← hv.position]
      exact hholds.committed
    · rw [hholds.authorities, List.map_const', hholds.length_committed]
    · rw [houtstanding, ReferenceKVLedger.outstandingReservations, hv.sound.reservations]
      rfl
  · cases hrun.symm.trans heq

/-- **What is raised and returned.** Arguments that belong together, on a new runtime: the call returns a
trace that passes the check of traces, or the trace has no room for its events. -/
theorem runAdapter_returns
    (htarget : targetTokens = runtime.targetTokens) (hlimits : request.limitsRoot = limits.limitsRoot)
    (hcancel : ∀ position, cancelAt = some position → 0 ≤ position ∧ position ≤ (targetTokens.length : Int))
    (hcalls : proposer.callCount + targetTokens.length < uint63Max) :
    (∃ execution, (runAdapterConformanceReference passes targetTokens proposer runtime request limits
        cancelAt).1 = .ok execution ∧ execution.trace.validate = .ok execution.trace) ∨
    (runAdapterConformanceReference passes targetTokens proposer runtime request limits cancelAt).1
      = .error (.exactness "adapter trace event bound exceeded") := by
  obtain ⟨hnormal, -⟩ := init_eq_ok hinit
  rcases runAdapter_cases proposer request limits cancelAt hinit hpasses with
    ⟨e, harguments, -⟩ | ⟨boundary, -, ⟨v, builder, count, heq, hv, -, hfollows, hcount⟩ | ⟨_, heq, -⟩⟩
  · obtain ⟨boundary, hboundary⟩ := (exists_checkArguments_ok hnormal).2 ⟨htarget, hlimits, hcancel⟩
    cases hboundary.symm.trans harguments
  · obtain ⟨execution, hcomplete, hvalid⟩ := completeAdapter_ok hnormal limits.ticks_le hv
      hfollows hcount (by rw [htarget] at hcalls; exact hcalls)
    exact .inl ⟨execution, by rw [heq, hcomplete], hvalid⟩
  · exact .inr (by rw [heq]; rfl)

/-- **When a reservation is left.** After a call on a new runtime, whether it returns or raises, a
reservation is outstanding if and only if the arguments are accepted and the first event without room in the
trace is one that holds a reservation. -/
theorem runAdapter_releases_iff :
    (runAdapterConformanceReference passes targetTokens proposer runtime request limits
        cancelAt).2.ledger.reservations = [] ↔
      ¬ ((targetTokens = runtime.targetTokens ∧ request.limitsRoot = limits.limitsRoot ∧
          ∀ position, cancelAt = some position → 0 ≤ position ∧ position ≤ (targetTokens.length : Int)) ∧
        HoldsInRun runtime proposer.script request limits (cancelAt.map Int.toNat) passes
          limits.maxTraceEvents) := by
  obtain ⟨hnormal, hledger⟩ := init_eq_ok hinit
  rw [← exists_checkArguments_ok hnormal]
  rcases runAdapter_cases proposer request limits cancelAt hinit hpasses with
    ⟨e, harguments, heq⟩ | ⟨boundary, harguments, ⟨v, _, _, heq, hv, -, -, hcount⟩ | ⟨_, heq, hrefused, -⟩⟩
  · rw [heq, hledger]
    refine iff_of_true rfl ?_
    rintro ⟨⟨boundary, h⟩, -⟩
    cases harguments.symm.trans h
  · rw [heq]
    exact iff_of_true hv.sound.reservations fun h => hv.free _ hcount h.2
  · rw [heq, hrefused, and_iff_right ⟨boundary, harguments⟩]

theorem runAdapter_cancelled
    (hrun : (runAdapterConformanceReference passes targetTokens proposer runtime request limits
      cancelAt).1 = .ok execution) :
    execution.outcome.cancelled = true ↔
      ∃ cancel : Nat, cancelAt = some (cancel : Int) ∧ cancel < targetTokens.length ∧
        request.epochRoot = runtime.epochRoot ∧
        request.adapterIdentityRoot = runtime.adapterIdentityRoot ∧
        Undisturbed runtime proposer.script limits cancel 0 1 := by
  obtain ⟨hnormal, -⟩ := init_eq_ok hinit
  rcases runAdapter_cases proposer request limits cancelAt hinit hpasses with
    ⟨e, -, heq⟩ | ⟨boundary, harguments, ⟨v, builder, count, heq, -, hcancelled, -⟩ | ⟨_, heq, -⟩⟩
  · rw [heq] at hrun
    cases hrun
  · rw [heq] at hrun
    obtain ⟨rfl, -, hcancel⟩ := (checkArguments_eq_ok hnormal).1 harguments
    obtain ⟨-, -, -, -, hflag⟩ := completeAdapter_eq_ok hrun
    rw [hflag, hcancelled, cancelsUndisturbed_iff hcancel]
  · rw [heq] at hrun
    cases hrun

/-- **When the run says that it was cancelled.** For a call on a new runtime that returns, the flag says
whether a cancel position before the end was given, as that of `run_target_only` does, if and only if
such a position is reached without a mismatch, a missed deadline, a failure or an empty proposal. -/
theorem runAdapter_cancelled_iff {execution : AdapterExecution}
    (hrun : (runAdapterConformanceReference passes targetTokens proposer runtime request limits
      cancelAt).1 = .ok execution) :
    (execution.outcome.cancelled = cancelsBefore targetTokens cancelAt ↔
      ∀ cancel : Nat, cancelAt = some (cancel : Int) → cancel < targetTokens.length →
        request.epochRoot = runtime.epochRoot ∧
        request.adapterIdentityRoot = runtime.adapterIdentityRoot ∧
        Undisturbed runtime proposer.script limits cancel 0 1) ∧
    ∀ ring expected ledger, runTargetOnly targetTokens cancelAt ring = .ok (expected, ledger) →
      expected.cancelled = cancelsBefore targetTokens cancelAt := by
  refine ⟨?_, fun ring expected ledger h => cancelled_of_runTargetOnly h⟩
  have hflag := runAdapter_cancelled hinit hpasses hrun
  have hbefore : cancelsBefore targetTokens cancelAt = true ↔
      ∃ position, cancelAt = some position ∧ position < (targetTokens.length : Int) := by
    cases cancelAt <;> simp [cancelsBefore]
  rw [Bool.eq_iff_iff, hflag, hbefore]
  constructor
  · intro h cancel hsome hlt
    obtain ⟨cancel', hsome', -, hrest⟩ := h.2 ⟨cancel, hsome, by omega⟩
    obtain rfl : cancel = cancel' := Int.ofNat_inj.1 (Option.some.inj (hsome.symm.trans hsome'))
    exact hrest
  · intro h
    constructor
    · rintro ⟨cancel, hsome, hlt, -⟩
      exact ⟨cancel, hsome, by omega⟩
    · rintro ⟨position, hsome, hlt⟩
      obtain ⟨cancel, rfl⟩ := Int.eq_ofNat_of_zero_le (nonneg_of_runAdapter hrun hsome)
      have hlt' : cancel < targetTokens.length := by omega
      exact ⟨cancel, hsome, hlt', h cancel hsome hlt'⟩

end

end

/-! ## Runs of the laboratory -/

attribute [local instance] laboratoryRuntime

def zeroRoot : Root := ⟨List.replicate 32 0, rfl⟩

def sampleLimits (events : Nat) (hmin : 1 ≤ events) (hmax : events ≤ maxEvents) : EaglegateAdapterLimits :=
  ⟨8, events, 64, by decide, by decide, hmin, hmax, by decide, by decide⟩

def sampleRequest (limits : EaglegateAdapterLimits) : EaglegateAdapterRequest :=
  ⟨zeroRoot, zeroRoot, zeroRoot, zeroRoot, limits.limitsRoot⟩

def wideLimits : EaglegateAdapterLimits := sampleLimits 16 (by decide) (by decide)

def tightLimits : EaglegateAdapterLimits := sampleLimits 2 (by decide) (by decide)

def narrowLimits : EaglegateAdapterLimits := sampleLimits 1 (by decide) (by decide)

def shortScript : Script where
  proposals := [(0, [1])]
  failAtPosition := none
  normal position tokens h := by
    obtain ⟨rfl, rfl⟩ : position = 0 ∧ tokens = [1] := by
      by_cases hposition : position = 0
      · subst hposition
        cases h
        exact ⟨rfl, rfl⟩
      · simp [PyDict.get, Ne.symm hposition] at h
    exact ⟨by decide, by decide⟩

def shortProposer : FakeEagleAdapter := ⟨shortScript, 0⟩

/-- A new runtime for the target `[1, 2]`. -/
def sampleTarget : FakeTargetRuntimeAdapter := ⟨[1, 2], zeroRoot, zeroRoot, none, none, .init, 0, 0⟩

theorem init_sampleTarget :
    init [1, 2] zeroRoot zeroRoot none none = .ok sampleTarget := rfl

/-- With room for its events, the run that is cancelled at the second token returns. -/
theorem exists_execution_sample : ∃ execution,
    (runAdapterConformanceReference 3 [1, 2] shortProposer sampleTarget (sampleRequest wideLimits) wideLimits
      (some 1)).1 = .ok execution := by
  obtain ⟨hnormal, -⟩ := init_eq_ok init_sampleTarget
  have harguments' : checkArguments [1, 2] sampleTarget (sampleRequest wideLimits) wideLimits (some 1) = .ok 1 :=
    (checkArguments_eq_ok hnormal).2 ⟨rfl, rfl, rfl⟩
  rcases runAdapter_cases shortProposer (sampleRequest wideLimits) wideLimits (some 1) init_sampleTarget
      (show [1, 2].length < 3 by decide) with
    ⟨e, harguments, -⟩ | ⟨boundary, harguments, ⟨v, builder, count, heq, hv, -, hfollows, hcount⟩ |
      ⟨_, -, -, hlong⟩⟩
  · cases harguments.symm.trans harguments'
  · obtain ⟨execution, hcomplete, -⟩ := completeAdapter_ok hnormal
      wideLimits.ticks_le hv hfollows hcount (by decide)
    exact ⟨execution, by rw [heq, hcomplete]⟩
  · cases harguments.symm.trans harguments'
    exact absurd hlong (by decide +kernel)

theorem runAdapter_committed_sample : ∃ execution runtime',
    runAdapterConformanceReference 3 [1, 2] shortProposer sampleTarget (sampleRequest wideLimits) wideLimits
      (some 1) = (.ok execution, runtime') ∧
    runtime'.ledger.committed = [1] ∧ runtime'.ledger.reservations = [] := by
  obtain ⟨execution, hrun⟩ := exists_execution_sample
  generalize hcall : runAdapterConformanceReference 3 [1, 2] shortProposer sampleTarget
    (sampleRequest wideLimits) wideLimits (some 1) = call at hrun
  obtain ⟨result, runtime'⟩ := call
  obtain rfl : result = .ok execution := hrun
  obtain ⟨hcommitted, -, hreservations, -⟩ :=
    runAdapter_committed init_sampleTarget (by decide) hcall
  exact ⟨execution, runtime', rfl, hcommitted, hreservations⟩

theorem runAdapter_returns_sample :
    (∃ execution, (runAdapterConformanceReference 3 [1, 2] shortProposer sampleTarget
        (sampleRequest wideLimits) wideLimits (some 1)).1 = .ok execution ∧
      execution.trace.validate = .ok execution.trace) ∨
    (runAdapterConformanceReference 3 [1, 2] shortProposer sampleTarget (sampleRequest wideLimits) wideLimits
      (some 1)).1 = .error (.exactness "adapter trace event bound exceeded") :=
  runAdapter_returns init_sampleTarget (by decide) rfl rfl
    (by rintro _ ⟨⟩; exact ⟨by decide, by decide⟩) (by decide)

/-- The target is not that of the runtime, and the call raises another exception than that of the
bound. -/
theorem runAdapter_other_target :
    (runAdapterConformanceReference 3 [2] shortProposer sampleTarget (sampleRequest wideLimits) wideLimits
      none).1 = .error (.exactness "target input differs from runtime target") := rfl

/-- A trace of two events has no room for the proposal, and the reservation is left. -/
theorem runAdapter_releases_sample :
    (runAdapterConformanceReference 3 [1, 2] shortProposer sampleTarget (sampleRequest tightLimits) tightLimits
      (some 1)).2.ledger.reservations ≠ [] := by
  rw [ne_eq, runAdapter_releases_iff init_sampleTarget (by decide), not_not]
  refine ⟨⟨rfl, rfl, by rintro _ ⟨⟩; exact ⟨by decide, by decide⟩⟩, rfl, rfl, trivial, ?_⟩
  exact ⟨⟨by decide, by decide, by decide⟩, trivial, trivial⟩

def raisesExactness {α : Type} (message : String) : Check α → Bool
  | .error (.exactness found) => found = message
  | _ => false

theorem eq_error_of_raisesExactness {α : Type} {message : String} {r : Check α}
    (h : raisesExactness message r = true) : r = .error (.exactness message) := by
  unfold raisesExactness at h
  split at h
  · rw [of_decide_eq_true h]
  · cases h

/-- The trace has room for the first event only: the call raises when it has reserved tokens. -/
theorem reservation_outstanding_sample :
    (runAdapterConformanceReference 3 [1, 2] shortProposer sampleTarget (sampleRequest narrowLimits)
        narrowLimits (some 1)).1 = .error boundExceeded ∧
      (runAdapterConformanceReference 3 [1, 2] shortProposer sampleTarget (sampleRequest narrowLimits)
        narrowLimits (some 1)).2.ledger.reservations ≠ [] := by
  have hcall : raisesExactness "adapter trace event bound exceeded" (runAdapterConformanceReference 3 [1, 2]
        shortProposer sampleTarget (sampleRequest narrowLimits) narrowLimits (some 1)).1 = true ∧
      (runAdapterConformanceReference 3 [1, 2] shortProposer sampleTarget (sampleRequest narrowLimits)
        narrowLimits (some 1)).2.ledger.reservations ≠ [] := by
    decide +kernel
  exact ⟨eq_error_of_raisesExactness hcall.1, hcall.2⟩

theorem not_undisturbed_sample : ¬ Undisturbed sampleTarget shortScript wideLimits 1 0 1 := by
  intro h
  rw [undisturbed_iff_of_lt (by decide)] at h
  obtain ⟨-, -, -, h⟩ := h
  have hposition : 0 + (decisionAt sampleTarget shortScript wideLimits (some 1) 0).targetCommitTokens.length
      = 1 := by decide
  rw [hposition, undisturbed_iff_of_le (Nat.le_refl 1)] at h
  exact h.proposal_ne rfl

/-- The request is cancelled before the end of the target, and the outcome does not say so. -/
theorem cancelled_flag_sample : ∃ execution,
    (runAdapterConformanceReference 3 [1, 2] shortProposer sampleTarget (sampleRequest wideLimits) wideLimits
      (some 1)).1 = .ok execution ∧
    execution.outcome.cancelled = false ∧ cancelsBefore [1, 2] (some 1) = true := by
  obtain ⟨execution, hrun⟩ := exists_execution_sample
  refine ⟨execution, hrun, ?_, rfl⟩
  rw [Bool.eq_false_iff, ne_eq, runAdapter_cancelled init_sampleTarget (by decide) hrun]
  rintro ⟨cancel, hsome, -, -, -, hrest⟩
  obtain rfl : 1 = cancel := Int.ofNat_inj.1 (Option.some.inj hsome)
  exact not_undisturbed_sample hrest

theorem runAdapter_cancelled_iff_sample : ∃ execution,
    (runAdapterConformanceReference 3 [1, 2] shortProposer sampleTarget (sampleRequest wideLimits) wideLimits
      (some 1)).1 = .ok execution ∧
    (execution.outcome.cancelled = cancelsBefore [1, 2] (some 1) ↔
      ∀ cancel : Nat, some 1 = some (cancel : Int) → cancel < [1, 2].length →
        (sampleRequest wideLimits).epochRoot = sampleTarget.epochRoot ∧
        (sampleRequest wideLimits).adapterIdentityRoot = sampleTarget.adapterIdentityRoot ∧
        Undisturbed sampleTarget shortProposer.script wideLimits cancel 0 1) := by
  obtain ⟨execution, hrun⟩ := exists_execution_sample
  exact ⟨execution, hrun, (runAdapter_cancelled_iff init_sampleTarget (by decide) hrun).1⟩

end Eaglegate
