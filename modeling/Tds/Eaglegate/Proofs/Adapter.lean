import Tds.Eaglegate.AdapterRun
import Tds.Eaglegate.Proofs.Exactness
import Tds.Process.Proofs.Program

/-!
# The run of the adapter keeps the contract

A small protocol, the state of a trace, the reservation that is active in it and the number of its events,
accepts all events of a run, on every path through its faults. The builder of a trace follows the protocol until its bound is
reached, and the check of a trace passes whatever the protocol has accepted.
-/

namespace Eaglegate

open Python Process EventArgs FakeTargetRuntimeAdapter AdapterOperation VerificationDecision ReferenceKVLedger

/-! ## The protocol -/

/-- What the check of a trace keeps track of. -/
structure Protocol where
  state : AdapterState
  active : Nat
  count : Nat

/-- The check of a trace, for one event. -/
def Protocol.accept (p : Protocol) (args : EventArgs) : Check Protocol :=
  match allowedTransition p.state args.operation with
  | none => .error .diverges
  | some state => (checkReservation p.active args).map fun active => ⟨state, active, p.count + 1⟩

/-- The protocol as the handler of a program that records events. -/
def Protocol.handle (r : Record) (p : Protocol) : Check (AdapterState × Protocol) :=
  (p.accept r.args).map fun p => (p.state, p)

def AdapterOperation.holdsReservation (operation : AdapterOperation) : Bool :=
  operation ∈ [.reserve, .propose, .verify, .rewind, .commit, .cancel]

/-- An event that passes its checks; `holding` says of its number whether a reservation is held. -/
structure Record.Sound (holding : Nat → Prop) (r : Record) (p : Protocol) : Prop where
  check : r.args.check = .ok ()
  reservations : r.session.runtime.ledger.reservations = [] ↔ ¬ holding p.count

variable {args : EventArgs} {holding : Nat → Prop}

theorem Protocol.accept_eq_ok {p p' : Protocol} (h : p.accept args = .ok p') :
    allowedTransition p.state args.operation = some p'.state ∧
      checkReservation p.active args = .ok p'.active ∧ p'.count = p.count + 1 := by
  unfold Protocol.accept at h
  split at h
  · cases h
  · rename_i state hstate
    obtain ⟨active, hactive, rfl⟩ := map_eq_ok.1 h
    exact ⟨hstate, hactive, rfl⟩

section Builder

variable [Runtime]

/-- The builder of a trace has recorded what the protocol has accepted. -/
structure AdapterTraceBuilder.Follows (limit : Nat) (requestRoot : Root) (p : Protocol)
    (builder : AdapterTraceBuilder) : Prop where
  bound : builder.maxEvents = limit
  root : builder.requestRoot = requestRoot
  length : builder.events.length = p.count
  state : builder.state = p.state
  checked : builder.events.foldlM checkEvent TraceCursor.start =
    .ok ⟨p.count, builder.events.getLast?.map AdapterTraceEvent.eventRoot, p.state, p.active⟩

variable {builder : AdapterTraceBuilder} {requestRoot : Root} {limit : Nat}

/-- An event that the protocol accepts is recorded, and the check of the trace accepts it. -/
theorem AdapterTraceBuilder.Follows.record {p p' : Protocol}
    (h : builder.Follows limit requestRoot p) (hcount : p.count < limit)
    (hlimit : limit ≤ Eaglegate.maxEvents + 1) (hcheck : args.check = .ok ())
    (haccept : p.accept args = .ok p') :
    ∃ builder', builder.record args = .ok builder' ∧ builder'.Follows limit requestRoot p' := by
  obtain ⟨htransition, hreservation, hnext⟩ := Protocol.accept_eq_ok haccept
  have hmax : Eaglegate.maxEvents ≤ uint32Max := by decide
  have hroom : ¬ builder.maxEvents ≤ builder.events.length := by
    rw [h.bound, h.length]
    omega
  have hsequence : requireInt "sequence" builder.events.length 0 uint32Max = .ok () :=
    requireInt_ok _ (by omega) (by have := h.length; omega)
  refine ⟨{ builder with
    events := builder.events ++ [{ args with
      sequence := builder.events.length
      stateBefore := p.state
      stateAfter := p'.state
      previousEventRoot := builder.events.getLast?.map AdapterTraceEvent.eventRoot }]
    state := p'.state }, ?_, h.bound, h.root, ?_, rfl, ?_⟩
  · rw [AdapterTraceBuilder.record, if_neg hroom, h.state, htransition]
    simp only [AdapterTraceEvent.validate, hsequence, hcheck, ok_bind, pure_eq_ok]
  · simp [h.length, hnext]
  · rw [List.foldlM_append, h.checked, ok_bind, List.foldlM_cons, checkEvent, raiseIf_neg (by simp [h.length]),
      ok_bind, raiseIf_neg (by simp), ok_bind, raiseIf_neg (by simp), ok_bind,
      raiseIf_neg (by simp [htransition]), ok_bind]
    simp only [hreservation, ok_bind]
    simp [hnext]

theorem AdapterTraceBuilder.Follows.refuse {p : Protocol} (args : EventArgs)
    (h : builder.Follows limit requestRoot p) (hcount : p.count = limit) :
    builder.record args = .error boundExceeded := by
  rw [AdapterTraceBuilder.record, if_pos (by rw [h.bound, h.length, hcount])]

theorem bounded_handleRecord (hlimit : limit ≤ Eaglegate.maxEvents + 1) (requestRoot : Root) :
    @Bounded Record (fun _ => AdapterState) _ _ _ (Record.Sound holding) Protocol.handle handleRecord limit
      boundExceeded fun count p builder => builder.Follows limit requestRoot p ∧ p.count = count where
  step := by
    rintro r state _ p p' builder ⟨h, rfl⟩ hcount hsound hhandle
    obtain ⟨p'', haccept, heq⟩ := map_eq_ok.1 hhandle
    obtain ⟨rfl, rfl⟩ := Prod.mk.inj heq
    obtain ⟨builder', hrecord, h'⟩ := h.record hcount hlimit hsound.check haccept
    refine ⟨builder', ?_, h', (Protocol.accept_eq_ok haccept).2.2⟩
    rw [handleRecord, hrecord, map_ok, h'.state]
  refuse := by
    rintro r p builder ⟨h, hcount⟩
    rw [handleRecord, h.refuse _ hcount]
    rfl

theorem follows_init (limit : Nat) (requestRoot : Root) :
    (⟨requestRoot, limit, .new, []⟩ : AdapterTraceBuilder).Follows limit requestRoot ⟨.new, 0, 0⟩ :=
  ⟨rfl, rfl, rfl, rfl, rfl⟩

theorem AdapterTraceBuilder.Follows.finish {count : Nat}
    (h : builder.Follows limit requestRoot ⟨.closed, 0, count⟩) :
    builder.finish = .ok ⟨requestRoot, builder.events⟩ ∧
      (⟨requestRoot, builder.events⟩ : EaglegateAdapterTrace).validate
        = .ok ⟨requestRoot, builder.events⟩ ∧ builder.events ≠ [] := by
  have hne : builder.events ≠ [] := by
    intro hnil
    have hchecked := h.checked
    rw [hnil] at hchecked
    cases hchecked
  have hvalid : (⟨requestRoot, builder.events⟩ : EaglegateAdapterTrace).validate
      = .ok ⟨requestRoot, builder.events⟩ := by
    rw [EaglegateAdapterTrace.validate, raiseIf_neg hne, ok_bind]
    simp only [h.checked, ok_bind]
    rfl
  refine ⟨?_, hvalid, hne⟩
  rw [AdapterTraceBuilder.finish, raiseIf_neg (by simp [h.state]), ok_bind, h.root, hvalid]

end Builder

/-! ## The session -/

/-- What holds of the session `s` of a run that began with `s₀`, when these reservations are held. -/
structure Session.Sound (s s₀ : Session) (boundary : Nat) (held : PyDict Nat Nat) : Prop where
  tokens : s.runtime.targetTokens = s₀.runtime.targetTokens
  reserveFail : s.runtime.reserveFailAtPosition = s₀.runtime.reserveFailAtPosition
  verifyFail : s.runtime.verifyFailAtPosition = s₀.runtime.verifyFailAtPosition
  script : s.proposer.script = s₀.proposer.script
  deadline : s.clock.deadlineTicks = s₀.clock.deadlineTicks
  holds : s.runtime.ledger.Holds s₀.runtime.targetTokens s.runtime.position
  le : s.runtime.position ≤ boundary
  reservations : s.runtime.ledger.reservations = held
  one_le_next : 1 ≤ s.runtime.ledger.nextReservation
  next_le : s.runtime.ledger.nextReservation ≤ s.runtime.position + 2
  ticks_le : s.clock.ticks ≤ s.clock.deadlineTicks
  calls_le : s.proposer.callCount ≤ s₀.proposer.callCount + s.runtime.position + 1

theorem EventArgs.check_ok (hposition : args.position ≤ maxTokens)
    (htokens : args.tokenCount ≤ maxTokens) (hid : args.reservationId ≤ uint32Max)
    (hreason : requireAscii "reason" args.reason true = .ok ())
    (hauthority : args.authority = if args.operation = .commit then targetAuthority else "")
    (hfault : args.fault = .none ↔ args.operation ≠ .fallback)
    (hreservation : args.reservationId = 0 ↔ args.operation.needsReservation = false)
    (hneeds : args.operation.needsCount = true → args.tokenCount ≠ 0)
    (hexcludes : args.operation.excludesCount = true → args.tokenCount = 0) :
    args.check = .ok () := by
  have hascii : requireAscii "authority" args.authority true = .ok () := by
    rw [hauthority]
    split <;> decide
  have hcommit : args.checkAuthority = .ok () := by
    unfold checkAuthority
    split <;> simp_all
  have hfallback : args.checkFault = .ok () := by
    unfold checkFault
    split <;> simp_all
  have hneeded : args.checkReservationId = .ok () := by
    unfold checkReservationId
    split <;> simp_all
  simp only [check, requireInt_ok _ (Nat.cast_nonneg _) (Nat.cast_le.2 hposition),
    requireInt_ok _ (Nat.cast_nonneg _) (Nat.cast_le.2 htokens),
    requireInt_ok _ (Nat.cast_nonneg _) (Nat.cast_le.2 hid), hascii, hreason, ok_bind, hcommit, hfallback,
    hneeded]
  rw [raiseIf_neg (fun h => hneeds h.1 h.2), ok_bind, raiseIf_neg (fun h => h.2 (hexcludes h.1))]

namespace Session.Sound

variable {s₀ s : Session} {boundary : Nat} {held : PyDict Nat Nat}

theorem reservations_ne {id slots : Nat} (hs : s.Sound s₀ boundary [(id, slots)]) :
    s.runtime.ledger.reservations ≠ [] := by
  rw [hs.reservations]
  exact List.cons_ne_nil _ _

theorem reserve {slots : Nat} (hs : s.Sound s₀ boundary [])
    (hnext : s.runtime.ledger.nextReservation ≤ s.runtime.position + 1)
    (hfail : ¬ s₀.runtime.reserveFailAtPosition = some (s.runtime.position : Int)) (hone : 1 ≤ slots)
    (hmax : slots ≤ maxTokens) :
    ∃ runtime, s.runtime.reserve s.runtime.position slots
        = .ok (s.runtime.ledger.nextReservation, runtime) ∧
      ({ s with runtime := runtime } : Session).Sound s₀ boundary
        [(s.runtime.ledger.nextReservation, slots)] ∧
      runtime.position = s.runtime.position := by
  refine ⟨{ s.runtime with ledger := { s.runtime.ledger with
    nextReservation := s.runtime.ledger.nextReservation + 1
    reservations := s.runtime.ledger.reservations.set s.runtime.ledger.nextReservation slots } }, ?_,
    { hs with
      holds := { hs.holds with }, reservations := by rw [hs.reservations]; rfl
      one_le_next := Nat.le_add_left _ _, next_le := Nat.succ_le_succ hnext }, rfl⟩
  rw [FakeTargetRuntimeAdapter.reserve, if_neg (hs.reserveFail ▸ hfail),
    reserve_ok hone hmax, ok_bind]
  rfl

theorem release {id slots : Nat} (hs : s.Sound s₀ boundary [(id, slots)]) :
    ∃ runtime, s.runtime.release id = .ok runtime ∧
      ({ s with runtime := runtime } : Session).Sound s₀ boundary [] ∧
      runtime.position = s.runtime.position ∧
      runtime.ledger.nextReservation = s.runtime.ledger.nextReservation := by
  refine ⟨{ s.runtime with ledger := { s.runtime.ledger with reservations := [] } }, ?_,
    { hs with holds := { hs.holds with }, reservations := rfl }, rfl, rfl⟩
  rw [FakeTargetRuntimeAdapter.release, release_ok hs.reservations, ok_bind]
  rfl

variable (hs : s.Sound s₀ boundary held)
include hs

theorem position_le (hnormal : Normal s₀.runtime.targetTokens) :
    s.runtime.position ≤ maxTokens :=
  Nat.le_trans hs.holds.le hnormal.1

theorem ticked (htick : ¬ s.clock.consume.1 = false) :
    s.ticked.Sound s₀ boundary held ∧ s.ticked.clock.ticks = s.clock.ticks + 1 ∧
      s.clock.ticks + 1 ≤ s₀.clock.deadlineTicks := by
  have hlt : ¬ s.clock.deadlineTicks < s.clock.ticks + 1 := by
    intro h
    exact htick (by rw [DeterministicOperationClock.consume, if_pos h])
  have hclock : s.clock.consume.2 = { s.clock with ticks := s.clock.ticks + 1 } := by
    rw [DeterministicOperationClock.consume, if_neg hlt]
  have hticks : s.ticked.clock.ticks = s.clock.ticks + 1 := by rw [Session.ticked, hclock]
  have hdeadline : s.ticked.clock.deadlineTicks = s.clock.deadlineTicks := by rw [Session.ticked, hclock]
  have heq := hs.deadline
  exact ⟨{ hs with deadline := hdeadline.trans heq, ticks_le := by omega }, hticks, by omega⟩

theorem deadline_lt (htick : s.clock.consume.1 = false) :
    s₀.clock.deadlineTicks < s.clock.ticks + 1 := by
  rw [← hs.deadline]
  by_contra hlt
  rw [DeterministicOperationClock.consume, if_neg hlt] at htick
  cases htick

theorem commit (hnormal : Normal s₀.runtime.targetTokens)
    (hboundary : boundary ≤ s₀.runtime.targetTokens.length) {stop : Nat} (hstart : s.runtime.position ≤ stop)
    (hstop : stop ≤ boundary) :
    ∃ runtime, s.runtime.commit (sliceTokens s₀.runtime.targetTokens s.runtime.position stop)
        = .ok runtime ∧ ({ s with runtime := runtime } : Session).Sound s₀ boundary held ∧
      runtime.position = stop ∧ runtime.ledger.nextReservation = s.runtime.ledger.nextReservation := by
  obtain ⟨ledger, hcommit, hledger, hreservations, hnext⟩ :=
    hs.holds.commit hnormal hstart (Nat.le_trans hstop hboundary)
  have hnext_le : ledger.nextReservation ≤ stop + 2 := by have := hs.next_le; omega
  have hcalls_le : s.proposer.callCount ≤ s₀.proposer.callCount + stop + 1 := by
    have := hs.calls_le
    omega
  obtain rfl : ledger.committed.length = stop := hledger.length_committed
  refine ⟨{ s.runtime with ledger := ledger }, ?_, { hs with
    holds := hledger, le := hstop, reservations := hreservations.trans hs.reservations
    one_le_next := hnext ▸ hs.one_le_next, next_le := hnext_le, calls_le := hcalls_le }, rfl, hnext⟩
  rw [FakeTargetRuntimeAdapter.commit, hcommit, ok_bind]
  rfl

theorem finishTargetOnly (hnormal : Normal s₀.runtime.targetTokens)
    (hboundary : boundary ≤ s₀.runtime.targetTokens.length) :
    ∃ runtime, s.runtime.finishTargetOnly boundary = .ok runtime ∧
      ({ s with runtime := runtime } : Session).Sound s₀ boundary held ∧ runtime.position = boundary := by
  obtain ⟨runtime, hcommit, hsound, hposition, -⟩ := hs.commit hnormal hboundary hs.le (Nat.le_refl boundary)
  refine ⟨runtime, ?_, hsound, hposition⟩
  rw [FakeTargetRuntimeAdapter.finishTargetOnly,
    requireInt_ok _ (Nat.cast_le.2 hs.le) (by rw [hs.tokens]; exact Nat.cast_le.2 hboundary), ok_bind, hs.tokens,
    hcommit]

theorem cancel {id : Nat} (hid : 1 ≤ id) :
    ∃ runtime, s.runtime.cancel id = .ok runtime ∧
      ({ s with runtime := runtime } : Session).Sound s₀ boundary held ∧
      runtime.position = s.runtime.position := by
  refine ⟨{ s.runtime with cancelCount := s.runtime.cancelCount + 1 }, ?_, { hs with }, rfl⟩
  rw [FakeTargetRuntimeAdapter.cancel, raiseIf_neg (by omega), ok_bind]
  rfl

theorem rewind {id rejected : Nat} (hid : 1 ≤ id) (hmin : 1 ≤ rejected)
    (hmax : rejected ≤ maxTokens) :
    ∃ runtime, s.runtime.rewind id rejected = .ok runtime ∧
      ({ s with runtime := runtime } : Session).Sound s₀ boundary held ∧
      runtime.position = s.runtime.position := by
  refine ⟨{ s.runtime with rewindCount := s.runtime.rewindCount + rejected }, ?_, { hs with }, rfl⟩
  rw [FakeTargetRuntimeAdapter.rewind, raiseIf_neg (by omega), ok_bind, requireInt_ok _ (by omega) (by omega),
    ok_bind]
  rfl

theorem reserve_fails {slots : Nat}
    (hfail : s₀.runtime.reserveFailAtPosition = some (s.runtime.position : Int)) :
    s.runtime.reserve s.runtime.position slots
      = .error (.resourceExhausted "injected reservation exhaustion") := by
  rw [FakeTargetRuntimeAdapter.reserve, hs.reserveFail, if_pos hfail]

end Session.Sound

/-! ## Programs that record -/

/-- The protocol accepts all events of the program, and the program returns. -/
def Records {α : Type} (holding : Nat → Prop) (Q : α → Protocol → Prop) (x : Recorder α) (p : Protocol) :
    Prop :=
  x.Plays Protocol.handle (Record.Sound holding) (fun r p' => ∃ a, r = .ok a ∧ Q a p') p

variable {runtime : FakeTargetRuntimeAdapter}

namespace Records

variable {α β : Type} {Q : α → Protocol → Prop} {R : β → Protocol → Prop} {p p' : Protocol} {s : Session}

theorem pure {a : α} (h : Q a p) : Records holding Q (Pure.pure a) p := ⟨a, rfl, h⟩

theorem bind {x : Recorder α} {f : α → Recorder β} (hx : Records holding Q x p)
    (hf : ∀ a p', Q a p' → Records holding R (f a) p') : Records holding R (x >>= f) p :=
  Prog.Plays.bind hx hf

variable (p') in
theorem record {f : AdapterState → Recorder β} (hcheck : args.check = .ok ())
    (hreservations : s.runtime.ledger.reservations = [] ↔ ¬ holding p.count)
    (htransition : allowedTransition p.state args.operation = some p'.state)
    (hactive : checkReservation p.active args = .ok p'.active) (hnext : p'.count = p.count + 1) (hf : Records holding R (f p'.state) p') :
    Records holding R (Eaglegate.record s args >>= f) p := by
  have haccept : Protocol.handle ⟨s, args⟩ p = .ok (p'.state, p') := by
    rw [Protocol.handle, Protocol.accept, htransition]
    simp only [hactive, ← hnext]
    rfl
  exact Prog.Plays.call_bind ⟨hcheck, hreservations⟩ haccept hf

section Kinds

variable {f : AdapterState → Recorder β} {operation : AdapterOperation} {state state' : AdapterState}
  {position count id number : Nat} {authority reason : String} {fault : AdapterFault}

theorem recordFree (hoperation : operation.needsReservation = false)
    (hreservations : s.runtime.ledger.reservations = []) (hposition : position ≤ maxTokens)
    (hreason : ∀ name, requireAscii name reason true = .ok ())
    (hfault : fault = .none ↔ operation ≠ .fallback)
    (htransition : allowedTransition state operation = some state') (hfree : ¬ holding number)
    (hf : Records holding R (f state') ⟨state', 0, number + 1⟩) :
    Records holding R (Eaglegate.record s ⟨operation, position, 0, 0, "", reason, fault⟩ >>= f)
      ⟨state, 0, number⟩ := by
  refine record ⟨state', 0, number + 1⟩ (check_ok hposition (Nat.zero_le _) (Nat.zero_le _)
    (hreason _) ?_ hfault (iff_of_true rfl hoperation) ?_ (fun _ => rfl)) (iff_of_true hreservations hfree)
    htransition ?_ rfl hf
  · cases operation <;> first | rfl | cases hoperation
  · intro hneeds
    cases operation <;> first | exact absurd hoperation (by decide) | simp [needsCount] at hneeds
  · cases operation <;> first | rfl | cases hoperation

variable (hid : 1 ≤ id) (hmax : id ≤ uint32Max)
include hid hmax

theorem recordHeld (hoperation : operation.holdsReservation = true) (hreserve : operation ≠ .reserve)
    (hreservations : s.runtime.ledger.reservations ≠ []) (hposition : position ≤ maxTokens)
    (hcount : count ≤ maxTokens) (hreason : ∀ name, requireAscii name reason true = .ok ())
    (hauthority : authority = if operation = .commit then targetAuthority else "")
    (hneeds : operation.needsCount = true → count ≠ 0)
    (hexcludes : operation.excludesCount = true → count = 0)
    (htransition : allowedTransition state operation = some state') (hheld : holding number)
    (hf : Records holding R (f state') ⟨state', id, number + 1⟩) :
    Records holding R (Eaglegate.record s ⟨operation, position, count, id, authority, reason, .none⟩ >>= f)
      ⟨state, id, number⟩ := by
  have hne : id ≠ 0 := by omega
  have hneedsReservation : operation.needsReservation = true := by
    cases operation <;> first | rfl | cases hoperation
  refine record ⟨state', id, number + 1⟩ (check_ok hposition hcount hmax (hreason _) hauthority
    (iff_of_true rfl ?_) (iff_of_false hne (by simp [hneedsReservation])) hneeds hexcludes)
    (iff_of_false hreservations (not_not.2 hheld)) htransition ?_ rfl hf
  · rintro rfl
    cases hoperation
  · have hrelease : operation ≠ .release := by
      rintro rfl
      cases hoperation
    simp only [checkReservation, if_neg hreserve, if_pos hneedsReservation, if_neg hrelease]
    rw [raiseIf_neg (by simp [hne])]
    rfl

theorem recordReserve (hreservations : s.runtime.ledger.reservations ≠ []) (hposition : position ≤ maxTokens)
    (hcount : count ≤ maxTokens) (hpos : count ≠ 0)
    (htransition : allowedTransition state .reserve = some state') (hheld : holding number)
    (hf : Records holding R (f state') ⟨state', id, number + 1⟩) :
    Records holding R (Eaglegate.record s ⟨.reserve, position, count, id, "", "", .none⟩ >>= f)
      ⟨state, 0, number⟩ :=
  record ⟨state', id, number + 1⟩ (check_ok hposition hcount hmax rfl rfl (by simp)
    (iff_of_false (show id ≠ 0 by omega) (by simp [needsReservation]))
    (fun _ => hpos) (fun h => by simp [excludesCount] at h))
    (iff_of_false hreservations (not_not.2 hheld)) htransition rfl rfl hf

theorem recordRelease (hreservations : s.runtime.ledger.reservations = []) (hposition : position ≤ maxTokens)
    (hreason : ∀ name, requireAscii name reason true = .ok ())
    (htransition : allowedTransition state .release = some state') (hfree : ¬ holding number)
    (hf : Records holding R (f state') ⟨state', 0, number + 1⟩) :
    Records holding R (Eaglegate.record s ⟨.release, position, 0, id, "", reason, .none⟩ >>= f)
      ⟨state, id, number⟩ := by
  have hne : id ≠ 0 := by omega
  refine record ⟨state', 0, number + 1⟩ (check_ok hposition (Nat.zero_le _) hmax (hreason _) rfl
    (by simp) (iff_of_false hne (by simp [needsReservation]))
    (fun h => by simp [needsCount] at h) (fun _ => rfl))
    (iff_of_true hreservations hfree) htransition ?_ rfl hf
  simp only [checkReservation, reduceCtorEq, if_false]
  rw [if_pos (by simp [needsReservation]), raiseIf_neg (by simp [hne])]
  rfl

end Kinds

theorem attempting {a : α} {f : α → Recorder β} (hf : Records holding R (f a) p) :
    Records holding R (Eaglegate.attempting s (.ok a) >>= f) p :=
  hf

theorem onRuntime {call : FakeTargetRuntimeAdapter → Check FakeTargetRuntimeAdapter}
    {f : Session → Recorder β} (hcall : call s.runtime = .ok runtime)
    (hf : Records holding R (f { s with runtime := runtime }) p) :
    Records holding R (Eaglegate.onRuntime s call >>= f) p := by
  rw [Eaglegate.onRuntime, hcall]
  exact hf

end Records

/-- What holds at the end of a run: all is committed and closed, and no more events hold a reservation. -/
structure AdapterVariables.Finished (holding : Nat → Prop) (s₀ : Session) (boundary : Nat)
    (v : AdapterVariables) (p : Protocol) : Prop where
  protocol : p = ⟨.closed, 0, p.count⟩
  free : ∀ n, p.count ≤ n → ¬ holding n
  sound : v.session.Sound s₀ boundary []
  position : v.session.runtime.position = boundary
  state : v.state = .closed
  reason : ∀ name, requireAscii name v.fallbackReason true = .ok ()

section Fallback

variable {s₀ s : Session} {boundary : Nat} (hnormal : Normal s₀.runtime.targetTokens)
  (hboundary : boundary ≤ s₀.runtime.targetTokens.length)

/-- What a fallback can begin with: no reservation, or one that can be cancelled. -/
inductive Protocol.CanFallBack (holding : Nat → Prop) (p : Protocol) (s s₀ : Session) (boundary : Nat) :
    Nat → Prop where
  | free (hactive : p.active = 0) (hstate : allowedTransition p.state .fallback = some .fallback)
      (hs : s.Sound s₀ boundary []) (hfree : ∀ n, p.count ≤ n → ¬ holding n) :
      p.CanFallBack holding s s₀ boundary 0
  | held {id slots : Nat} (hid : 1 ≤ id) (hmax : id ≤ uint32Max) (hactive : p.active = id)
      (hstate : allowedTransition p.state .cancel = some .cancelled)
      (hs : s.Sound s₀ boundary [(id, slots)]) (hheld : holding p.count)
      (hfree : ∀ n, p.count < n → ¬ holding n) : p.CanFallBack holding s s₀ boundary id

include hnormal in
theorem records_cancelReservation {p : Protocol} {id : Nat} {reason : String}
    (hreason : ∀ name, requireAscii name reason true = .ok ()) (h : p.CanFallBack holding s s₀ boundary id) :
    Records holding (fun s' p' => p'.active = 0 ∧ allowedTransition p'.state .fallback = some .fallback ∧
        s'.Sound s₀ boundary [] ∧ s'.runtime.position = s.runtime.position ∧
        ∀ n, p'.count ≤ n → ¬ holding n)
      (cancelReservation reason id s) p := by
  cases h with
  | free hactive hstate hs hfree => exact .pure ⟨hactive, hstate, hs, rfl, hfree⟩
  | @held id slots hid hmax hactive hstate hs hheld hfree =>
    obtain ⟨runtime₁, hcancel, hs₁, hposition₁⟩ := hs.cancel hid
    obtain ⟨runtime₂, hrelease, hs₂, hposition₂, -⟩ := hs₁.release
    obtain ⟨state, active, number⟩ := p
    obtain rfl : active = id := hactive
    rw [cancelReservation, if_neg (by omega)]
    refine .onRuntime hcancel (.recordHeld hid hmax rfl (by simp) hs₁.reservations_ne
      (hs₁.position_le hnormal) (Nat.zero_le _) hreason rfl (fun h => absurd h (by decide)) (fun _ => rfl) hstate hheld
      (.onRuntime hrelease (.recordRelease hid hmax hs₂.reservations (hs₂.position_le hnormal)
        (fun _ => rfl) rfl (hfree _ (Nat.lt_succ_self _)) (.pure ⟨rfl, rfl, hs₂,
          hposition₂.trans hposition₁, fun n hn => hfree n (Nat.lt_of_succ_lt hn)⟩))))

include hnormal hboundary in
/-- **A fallback** ends the run at the boundary; the run is cancelled only there. -/
theorem records_finishFallback {p : Protocol} {id : Nat} {reason : String} {fault : AdapterFault}
    {continueTargetOnly : Bool} (hreason : ∀ name, requireAscii name reason true = .ok ())
    (hfault : fault ≠ .none) (h : p.CanFallBack holding s s₀ boundary id)
    (hcancel : continueTargetOnly = false → s.runtime.position = boundary) :
    Records holding (fun v p' => v.Finished holding s₀ boundary p' ∧ v.cancelled = !continueTargetOnly)
      (finishFallback boundary reason fault id continueTargetOnly s) p := by
  refine (records_cancelReservation hnormal hreason h).bind ?_
  rintro s' ⟨state, active, number⟩ ⟨hactive, hstate, hs, hposition, hfree⟩
  have hclosed : ∀ n, number + 1 + 1 ≤ n → ¬ holding n :=
    fun n hn => hfree n (Nat.le_of_succ_le (Nat.le_of_succ_le hn))
  obtain rfl : active = 0 := hactive
  refine .recordFree rfl hs.reservations (hs.position_le hnormal) hreason
    (iff_of_false hfault (by simp)) hstate (hfree _ (Nat.le_refl _)) ?_
  cases continueTargetOnly with
  | true =>
    obtain ⟨runtime, hfinish, hs', hposition'⟩ := hs.finishTargetOnly hnormal hboundary
    rw [continueOrCancel, if_pos rfl]
    exact .onRuntime hfinish (.recordFree rfl hs'.reservations (hs'.position_le hnormal) (fun _ => rfl)
      (by simp) rfl (hfree _ (Nat.le_succ _)) (.pure ⟨⟨rfl, hclosed, hs', hposition', rfl, hreason⟩, rfl⟩))
  | false =>
    exact .recordFree rfl hs.reservations (hs.position_le hnormal) (fun _ => rfl) (by simp) rfl
      (hfree _ (Nat.le_succ _))
      (.pure ⟨⟨rfl, hclosed, hs, hposition.trans (hcancel rfl), rfl, hreason⟩, rfl⟩)

end Fallback

namespace VerificationDecision

variable {target candidate : List Int} {position : Nat}

theorem of_acceptedPrefix_le : (of target position candidate).acceptedPrefix
    ≤ candidate.length :=
  (matchedLength_le _ _).1

theorem of_rejectedTokens_le : (of target position candidate).rejectedTokens
    ≤ candidate.length :=
  Nat.sub_le _ _

/-- The tokens that are committed are the next ones of the target, and there is at least one. -/
theorem of_targetCommitTokens (hcandidate : candidate ≠ [])
    (hlength : position + candidate.length ≤ target.length) :
    ∃ count, 1 ≤ count ∧ count ≤ candidate.length ∧
      (of target position candidate).targetCommitTokens
        = sliceTokens target position (position + count) ∧
      (of target position candidate).targetCommitTokens.length = count := by
  have hpos : 0 < candidate.length := List.length_pos_iff.2 hcandidate
  have hmatched := (matchedLength_le candidate (target.drop position)).1
  refine ⟨_, ?_, ?_, rfl, ?_⟩
  · split <;> omega
  · split <;> omega
  · simp only [of, sliceTokens, List.length_drop, List.length_take]
    split <;> omega

theorem validate_of (hnormal : Normal target) (hcandidate : candidate ≠ [])
    (hlength : position + candidate.length ≤ target.length) :
    (of target position candidate).validate = .ok (.of target position candidate) := by
  obtain ⟨count, hone, -, htokens, hcount⟩ := of_targetCommitTokens hcandidate hlength
  have hmax := hnormal.1
  have haccepted := @of_acceptedPrefix_le target candidate position
  have hrejected := @of_rejectedTokens_le target candidate position
  have hne : (of target position candidate).targetCommitTokens ≠ [] := by
    intro hnil
    rw [hnil] at hcount
    simp at hcount
    omega
  have htokens' : normalizeTokens (of target position candidate).targetCommitTokens
      = .ok (of target position candidate).targetCommitTokens := by
    rw [htokens]
    exact normalizeTokens_ok (hnormal.slice _ _)
  rw [validate, requireInt_ok _ (by omega) (by omega), ok_bind,
    requireInt_ok _ (by omega) (by omega), ok_bind, htokens', ok_bind, raiseIf_neg hne, ok_bind]
  rfl

end VerificationDecision

/-! ## The way to the cancel position -/

/-- At this position a run asks for a proposal and gets one: neither the clock nor an injected failure
is in the way. -/
structure Proposes (runtime : FakeTargetRuntimeAdapter) (script : Script) (limits : EaglegateAdapterLimits)
    (position ticks : Nat) : Prop where
  inside : position < runtime.targetTokens.length
  reserves : runtime.reserveFailAtPosition ≠ some (position : Int)
  ticks_le : ticks + 2 ≤ limits.deadlineBudgetTicks
  answers : script.failAtPosition ≠ some position
  proposal_ne : script.proposal position ≠ []

def decisionAt (runtime : FakeTargetRuntimeAdapter) (script : Script) (limits : EaglegateAdapterLimits)
    (cancelAt : Option Nat) (position : Nat) : VerificationDecision :=
  .of runtime.targetTokens position ((script.proposal position).take
    (candidateSlots runtime.targetTokens cancelAt limits.maxCandidateTokens position))

/-- The ticks that a verified proposal takes: to rewind rejected tokens, and to commit. -/
def VerificationDecision.ticks (decision : VerificationDecision) : Nat :=
  if decision.rejectedTokens = 0 then 1 else 2

/-! ## Events that hold a reservation

Predicates on the numbers of the events from a stage on. Each stage that holds a reservation records at
least one event with it, if only the one that cancels it. -/

/-- Whether the next event holds a reservation, and those after it, if they are reached. -/
def eventThen (held reached : Prop) (rest : Nat → Prop) : Nat → Prop
  | 0 => held
  | event + 1 => reached ∧ rest event

/-- A commit, then the release. -/
def commitEvents (limits : EaglegateAdapterLimits) (ticks : Nat) (next : Nat → Nat → Prop) : Nat → Prop :=
  eventThen True (ticks + 1 ≤ limits.deadlineBudgetTicks) (eventThen False True (next (ticks + 1)))

/-- A rewind where tokens were rejected, then a commit. -/
def rewindEvents (limits : EaglegateAdapterLimits) (decision : VerificationDecision) (ticks : Nat)
    (next : Nat → Nat → Prop) : Nat → Prop :=
  if decision.rejectedTokens = 0 then commitEvents limits ticks next
  else eventThen True (ticks + 1 ≤ limits.deadlineBudgetTicks) (commitEvents limits (ticks + 1) next)

/-- A verified proposal is rewound or committed. -/
def verifyEvents (runtime : FakeTargetRuntimeAdapter) (limits : EaglegateAdapterLimits)
    (cancelAt : Option Nat) (position : Nat) (decision : VerificationDecision) (ticks : Nat)
    (next : Nat → Nat → Prop) : Nat → Prop :=
  eventThen True (cancelAt.any (· ≤ position) = false ∧
      runtime.verifyFailAtPosition ≠ some (position : Int) ∧ ticks + 1 ≤ limits.deadlineBudgetTicks)
    (rewindEvents limits decision (ticks + 1) next)

/-- A proposal is verified, if there is one. -/
def proposeEvents (runtime : FakeTargetRuntimeAdapter) (script : Script) (limits : EaglegateAdapterLimits)
    (cancelAt : Option Nat) (position ticks : Nat) (next : Nat → Nat → Prop) : Nat → Prop :=
  eventThen True (script.failAtPosition ≠ some position ∧ script.proposal position ≠ [] ∧
      ticks + 1 ≤ limits.deadlineBudgetTicks)
    (verifyEvents runtime limits cancelAt position (decisionAt runtime script limits cancelAt position)
      (ticks + 1) next)

/-- The events that hold a reservation, in a run that has come to a position with these ticks used and has
so many passes left. -/
def HeldEvents (runtime : FakeTargetRuntimeAdapter) (script : Script) (limits : EaglegateAdapterLimits)
    (cancelAt : Option Nat) : Nat → Nat → Nat → Nat → Prop
  | 0, _, _ => fun _ => False
  | passes + 1, start, ticks => fun event =>
    (start < runtime.targetTokens.length ∧ runtime.reserveFailAtPosition ≠ some (start : Int) ∧
      ticks + 1 ≤ limits.deadlineBudgetTicks) ∧
    eventThen True True (proposeEvents runtime script limits cancelAt start (ticks + 1)
      (HeldEvents runtime script limits cancelAt passes (start +
        (decisionAt runtime script limits cancelAt start).targetCommitTokens.length))) event

/-- The events from a number on hold a reservation as the predicate says of their distance. -/
def HoldsFrom (holding : Nat → Prop) (number : Nat) (events : Nat → Prop) : Prop :=
  ∀ event, holding (number + event) ↔ events event

namespace HoldsFrom

variable {number : Nat} {held reached : Prop} {rest : Nat → Prop}
  (h : HoldsFrom holding number (eventThen held reached rest))
include h

theorem here : holding number ↔ held := h 0

theorem next (hreached : reached) : HoldsFrom holding (number + 1) rest := by
  intro event
  rw [Nat.add_assoc, Nat.add_comm 1, h]
  exact and_iff_right hreached

theorem none (hreached : ¬ reached) : ∀ n, number < n → ¬ holding n := by
  intro n hn
  obtain ⟨event, rfl⟩ := Nat.exists_eq_add_of_lt hn
  rw [Nat.add_assoc, h]
  exact fun hevent => hreached hevent.1

end HoldsFrom

/-! ## Cancelled runs -/

/-- A run that has come to a position with these ticks used reaches its cancel position without a
fault. -/
inductive Undisturbed (runtime : FakeTargetRuntimeAdapter) (script : Script)
    (limits : EaglegateAdapterLimits) (cancel : Nat) : Nat → Nat → Prop where
  | cancelled {position ticks : Nat} (hproposes : Proposes runtime script limits position ticks)
      (hcancel : cancel ≤ position) : Undisturbed runtime script limits cancel position ticks
  | committed {position ticks : Nat} (hproposes : Proposes runtime script limits position ticks)
      (hcancel : position < cancel) (hverifies : runtime.verifyFailAtPosition ≠ some (position : Int))
      (hticks : ticks + 3 + (decisionAt runtime script limits (some cancel) position).ticks
        ≤ limits.deadlineBudgetTicks)
      (hrest : Undisturbed runtime script limits cancel
        (position + (decisionAt runtime script limits (some cancel) position).targetCommitTokens.length)
        (ticks + 3 + (decisionAt runtime script limits (some cancel) position).ticks)) :
      Undisturbed runtime script limits cancel position ticks

variable {ticks : Nat}

theorem undisturbed_iff_of_le {script : Script} {limits : EaglegateAdapterLimits}
    {cancel position : Nat} (hcancel : cancel ≤ position) :
    Undisturbed runtime script limits cancel position ticks ↔ Proposes runtime script limits position ticks := by
  constructor
  · intro h
    cases h with
    | cancelled hproposes => exact hproposes
    | committed _ hlt => omega
  · exact fun hproposes => .cancelled hproposes hcancel

theorem undisturbed_iff_of_lt {script : Script} {limits : EaglegateAdapterLimits}
    {cancel position : Nat} (hcancel : position < cancel) :
    Undisturbed runtime script limits cancel position ticks ↔
      Proposes runtime script limits position ticks ∧
      runtime.verifyFailAtPosition ≠ some (position : Int) ∧
      ticks + 3 + (decisionAt runtime script limits (some cancel) position).ticks
        ≤ limits.deadlineBudgetTicks ∧
      Undisturbed runtime script limits cancel
        (position + (decisionAt runtime script limits (some cancel) position).targetCommitTokens.length)
        (ticks + 3 + (decisionAt runtime script limits (some cancel) position).ticks) := by
  constructor
  · intro h
    cases h with
    | cancelled _ hle => omega
    | committed hproposes _ hverifies hticks hrest => exact ⟨hproposes, hverifies, hticks, hrest⟩
  · rintro ⟨hproposes, hverifies, hticks, hrest⟩
    exact .committed hproposes hcancel hverifies hticks hrest

/-! ## The loop -/

structure RunContext (s₀ : Session) (limits : EaglegateAdapterLimits) (boundary : Nat)
    (cancelAt : Option Nat) : Prop where
  normal : Normal s₀.runtime.targetTokens
  boundary_le : boundary ≤ s₀.runtime.targetTokens.length
  deadline : s₀.clock.deadlineTicks = limits.deadlineBudgetTicks
  cancel : (cancelAt = none ∧ boundary = s₀.runtime.targetTokens.length) ∨ cancelAt = some boundary

def WillCancel (s₀ : Session) (limits : EaglegateAdapterLimits) (boundary : Nat) (cancelAt : Option Nat)
    (position ticks : Nat) : Prop :=
  cancelAt = some boundary ∧
    Undisturbed s₀.runtime s₀.proposer.script limits boundary position ticks

/-- No reservation is open. -/
structure Session.Idle (s s₀ : Session) (boundary : Nat) : Prop where
  sound : s.Sound s₀ boundary []
  next_le : s.runtime.ledger.nextReservation ≤ s.runtime.position + 1
  calls_le : s.proposer.callCount ≤ s₀.proposer.callCount + s.runtime.position

/-- What a pass ends with, if `U` says whether the run is cancelled, and `next` which events of the next
pass hold a reservation. -/
def Pass.Ends (holding : Nat → Prop) (next : Nat → Nat → Nat → Prop) (s₀ : Session)
    (limits : EaglegateAdapterLimits) (boundary : Nat) (cancelAt : Option Nat) (position : Nat) (U : Prop) :
    Pass → Protocol → Prop
  | .leave v, p => v.Finished holding s₀ boundary p ∧ (v.cancelled = true ↔ U)
  | .again v, p => p = ⟨.released, 0, p.count⟩ ∧
      HoldsFrom holding p.count (next v.session.runtime.position v.session.clock.ticks) ∧ v.state = .released ∧ v.session.Idle s₀ boundary ∧
      position < v.session.runtime.position ∧
      (WillCancel s₀ limits boundary cancelAt v.session.runtime.position v.session.clock.ticks ↔ U)

section Passes

variable {s₀ s : Session} {limits : EaglegateAdapterLimits} {boundary : Nat} {cancelAt : Option Nat}
  (hcontext : RunContext s₀ limits boundary cancelAt) {p : Protocol} {position id slots number : Nat}
  {U : Prop} {next : Nat → Nat → Nat → Prop}

include hcontext

section

variable {reason : String} {fault : AdapterFault} (hreason : ∀ name, requireAscii name reason true = .ok ())
include hreason

theorem records_leaveWith {continueTargetOnly : Bool} (hfault : fault ≠ .none)
    (h : p.CanFallBack holding s s₀ boundary id) (hcancel : continueTargetOnly = false → s.runtime.position = boundary)
    (hU : U ↔ continueTargetOnly = false) :
    Records holding (Pass.Ends holding next s₀ limits boundary cancelAt position U)
      (leaveWith boundary reason fault id continueTargetOnly s) p := by
  refine (records_finishFallback hcontext.normal hcontext.boundary_le hreason hfault h hcancel).bind ?_
  rintro v p' ⟨hv, hcancelled⟩
  exact .pure ⟨hv, by simp [hcancelled, hU]⟩

theorem records_leave (hfault : fault ≠ .none) (h : p.CanFallBack holding s s₀ boundary id) (hU : ¬ U) :
    Records holding (Pass.Ends holding next s₀ limits boundary cancelAt position U) (leaveWith boundary reason fault id true s)
      p :=
  records_leaveWith hcontext hreason hfault h (fun h => absurd h (by simp)) (by simp [hU])

/-- A stage that begins with a tick of the clock leaves the loop if the deadline is exceeded. -/
theorem records_tick {held : PyDict Nat Nat} {stage : Recorder Pass} (hs : s.Sound s₀ boundary held)
    (h : ¬ s.clock.ticks + 1 ≤ limits.deadlineBudgetTicks → p.CanFallBack holding s s₀ boundary id)
    (hU : U → s.clock.ticks + 1 ≤ limits.deadlineBudgetTicks)
    (hstage : s.ticked.Sound s₀ boundary held → s.ticked.clock.ticks = s.clock.ticks + 1 →
      s.clock.ticks + 1 ≤ limits.deadlineBudgetTicks →
      Records holding (Pass.Ends holding next s₀ limits boundary cancelAt position U) stage p) :
    Records holding (Pass.Ends holding next s₀ limits boundary cancelAt position U)
      (if s.clock.consume.1 = false then leaveWith boundary reason .deadlineExceeded id true s else stage)
      p := by
  rw [← hcontext.deadline] at hU hstage h
  split
  · rename_i htick
    have hlate := (hs.deadline_lt htick).not_ge
    exact records_leave hcontext hreason (by simp) (h hlate) fun hu => hlate (hU hu)
  · rename_i htick
    obtain ⟨hs₁, hticks, hdeadline⟩ := hs.ticked htick
    exact hstage hs₁ hticks hdeadline

end

variable (hid : 1 ≤ id) (hidle : id ≤ uint32Max) (hs : s.Sound s₀ boundary [(id, slots)])
  (hposition : s.runtime.position = position)
include hid hidle hs hposition

theorem records_commitStage {state : AdapterState} {decision : VerificationDecision} {count : Nat}
    (hstate : allowedTransition state .commit = some .committed)
    (hcancel : allowedTransition state .cancel = some .cancelled)
    (htokens : decision.targetCommitTokens
      = sliceTokens s₀.runtime.targetTokens position (position + count))
    (hlength : decision.targetCommitTokens.length = count) (hone : 1 ≤ count)
    (hcount : position + count ≤ boundary)
    (hU : U ↔ s.clock.ticks + 1 ≤ limits.deadlineBudgetTicks ∧
      WillCancel s₀ limits boundary cancelAt (position + count) (s.clock.ticks + 1))
    (hevents : HoldsFrom holding number (commitEvents limits s.clock.ticks (next (position + count)))) :
    Records holding (Pass.Ends holding next s₀ limits boundary cancelAt position U)
      (commitStage boundary position id decision s) ⟨state, id, number⟩ := by
  have hmax := hcontext.normal.1
  have hle := hcontext.boundary_le
  have hheld := hevents.here.2 trivial
  refine records_tick hcontext (fun _ => rfl) hs
    (fun hlate => .held hid hidle rfl hcancel hs hheld (hevents.none hlate)) (fun h => (hU.1 h).1)
    fun hs₁ hticks hdeadline => ?_
  have hreleased := hevents.next hdeadline
  have hticked : s.ticked.runtime.position = position := hposition
  obtain ⟨runtime₂, hcommit, hs₂, hposition₂, hnext₂⟩ :=
    hs₁.commit hcontext.normal hcontext.boundary_le (by omega : _ ≤ position + count) hcount
  obtain ⟨runtime₃, hrelease, hs₃, hposition₃, hnext₃⟩ := hs₂.release
  simp only at hposition₃ hnext₃
  rw [hticked, ← htokens] at hcommit
  refine .onRuntime hcommit (.recordHeld hid hidle rfl (by simp) hs₂.reservations_ne
    (by omega) (by omega) (fun _ => rfl) rfl (fun _ => by omega) (fun h => absurd h (by decide)) hstate hheld
    (.onRuntime hrelease (.recordRelease hid hidle hs₃.reservations (hs₃.position_le hcontext.normal)
      (fun _ => rfl) rfl hreleased.here.1 (.pure ⟨rfl, ?_, rfl, ⟨hs₃, ?_, ?_⟩, ?_, ?_⟩))))
  · show HoldsFrom holding (number + 1 + 1) (next runtime₃.position s.ticked.clock.ticks)
    rw [hposition₃, hposition₂, hticks]
    exact hreleased.next trivial
  · show runtime₃.ledger.nextReservation ≤ runtime₃.position + 1
    have hnext : s.ticked.runtime.ledger.nextReservation = s.runtime.ledger.nextReservation := rfl
    have := hs.next_le
    omega
  · show s.proposer.callCount ≤ s₀.proposer.callCount + runtime₃.position
    have := hs.calls_le
    omega
  · show position < runtime₃.position
    omega
  · show WillCancel s₀ limits boundary cancelAt runtime₃.position s.ticked.clock.ticks ↔ _
    rw [hposition₃, hposition₂, hticks, hU]
    exact ⟨fun h => ⟨hdeadline, h⟩, fun h => h.2⟩

theorem records_rewindStage {decision : VerificationDecision} {count : Nat}
    (htokens : decision.targetCommitTokens
      = sliceTokens s₀.runtime.targetTokens position (position + count))
    (hlength : decision.targetCommitTokens.length = count) (hone : 1 ≤ count)
    (hcount : position + count ≤ boundary) (hrejected : decision.rejectedTokens ≤ maxTokens)
    (hU : U ↔ s.clock.ticks + decision.ticks ≤ limits.deadlineBudgetTicks ∧
      WillCancel s₀ limits boundary cancelAt (position + count) (s.clock.ticks + decision.ticks))
    (hevents : HoldsFrom holding number
      (rewindEvents limits decision s.clock.ticks (next (position + count)))) :
    Records holding (Pass.Ends holding next s₀ limits boundary cancelAt position U)
      (rewindStage boundary position id decision s) ⟨.verified, id, number⟩ := by
  have hmax := hcontext.normal.1
  have hle := hcontext.boundary_le
  rw [rewindStage]
  split
  · rename_i hnone
    rw [ticks, if_pos hnone] at hU
    rw [rewindEvents, if_pos hnone] at hevents
    exact records_commitStage hcontext hid hidle hs hposition rfl rfl htokens hlength hone hcount hU hevents
  · rename_i hsome
    rw [ticks, if_neg hsome] at hU
    rw [rewindEvents, if_neg hsome] at hevents
    have hheld := hevents.here.2 trivial
    refine records_tick hcontext (fun _ => rfl) hs
      (fun hlate => .held hid hidle rfl rfl hs hheld (hevents.none hlate))
      (fun h => Nat.le_of_succ_le (hU.1 h).1) fun hs₁ hticks hdeadline => ?_
    obtain ⟨runtime₂, hrewind, hs₂, hposition₂⟩ := hs₁.rewind hid (by omega) hrejected
    refine .onRuntime hrewind (.recordHeld hid hidle rfl (by simp) hs₂.reservations_ne (by omega) hrejected
      (fun _ => rfl) rfl (fun _ => hsome) (fun h => absurd h (by decide)) rfl hheld ?_)
    refine records_commitStage hcontext hid hidle hs₂ (hposition₂.trans hposition) rfl rfl htokens hlength hone
      hcount ?_ (hticks ▸ hevents.next hdeadline)
    show U ↔ s.ticked.clock.ticks + 1 ≤ limits.deadlineBudgetTicks ∧
      WillCancel s₀ limits boundary cancelAt (position + count) (s.ticked.clock.ticks + 1)
    rw [hU, hticks]

theorem records_verifyStage {proposal : List Int} (hproposal : Normal proposal) (hne : proposal ≠ [])
    (hlength : position < boundary → position + proposal.length ≤ boundary)
    (hcancelled : cancelAt = some boundary → boundary ≤ position → U)
    (hU : position < boundary → (U ↔ s₀.runtime.verifyFailAtPosition ≠ some (position : Int) ∧
      s.clock.ticks + 1 + (of s₀.runtime.targetTokens position proposal).ticks
        ≤ limits.deadlineBudgetTicks ∧
      WillCancel s₀ limits boundary cancelAt
        (position +
          (of s₀.runtime.targetTokens position proposal).targetCommitTokens.length)
        (s.clock.ticks + 1 + (of s₀.runtime.targetTokens position proposal).ticks)))
    (hinside : position < s₀.runtime.targetTokens.length)
    (hevents : HoldsFrom holding number (verifyEvents s₀.runtime limits cancelAt position
      (of s₀.runtime.targetTokens position proposal) s.clock.ticks
      (next (position +
        (of s₀.runtime.targetTokens position proposal).targetCommitTokens.length)))) :
    Records holding (Pass.Ends holding next s₀ limits boundary cancelAt position U)
      (verifyStage boundary cancelAt position id proposal s) ⟨.proposed, id, number⟩ := by
  have hmax := hcontext.normal.1
  have hle := hcontext.boundary_le
  have hposition_le := hs.le
  have hheld := hevents.here.2 trivial
  rw [verifyStage]
  by_cases hreached : cancelAt.any (· ≤ position) = true
  · rw [if_pos hreached]
    -- the cancel position is the boundary, which the position has not passed
    rcases hcontext.cancel with ⟨hnone, -⟩ | hsome
    · simp [hnone] at hreached
    · have hge : boundary ≤ position := by simpa [hsome] using hreached
      exact records_leaveWith hcontext (fun _ => rfl) (by simp)
        (.held hid hidle rfl rfl hs hheld (hevents.none fun h => by simp [hreached] at h))
        (fun _ => by omega) (iff_of_true (hcancelled hsome hge) rfl)
  rw [if_neg hreached]
  have hlt : position < boundary := by
    rcases hcontext.cancel with ⟨-, hend⟩ | hsome
    · omega
    · simpa [hsome] using hreached
  have hextent : position + proposal.length ≤ s₀.runtime.targetTokens.length := by
    have := hlength hlt
    omega
  have hU := hU hlt
  refine records_tick hcontext (fun _ => rfl) hs
    (fun hlate => .held hid hidle rfl rfl hs hheld (hevents.none fun h => hlate h.2.2))
    (fun h => Nat.le_of_add_right_le (hU.1 h).2.1) fun hs₁ hticks hdeadline => ?_
  rw [FakeTargetRuntimeAdapter.verify, hs.verifyFail]
  by_cases hfail : s₀.runtime.verifyFailAtPosition = some (position : Int)
  · rw [if_pos hfail]
    exact records_leave hcontext (fun _ => rfl) (by simp)
      (.held hid hidle rfl rfl hs₁ hheld (hevents.none fun h => h.2.1 hfail))
      fun h => absurd hfail (hU.1 h).1
  · have hposition' : ¬ position ≠ s.runtime.position := by omega
    rw [if_neg hfail, normalizeTokens_ok hproposal, ok_bind, raiseIf_neg hne, ok_bind,
      raiseIf_neg hposition', ok_bind, hs.tokens, raiseIf_neg (by omega), ok_bind,
      VerificationDecision.validate_of hcontext.normal hne hextent]
    obtain ⟨count, hone, hcount, htokens, hcommitted⟩ :=
      VerificationDecision.of_targetCommitTokens hne hextent
    have haccepted := @VerificationDecision.of_acceptedPrefix_le s₀.runtime.targetTokens proposal position
    have hrejected := @VerificationDecision.of_rejectedTokens_le s₀.runtime.targetTokens proposal position
    refine .attempting (.recordHeld hid hidle rfl (by simp) hs₁.reservations_ne (by omega) (by omega)
      (fun _ => rfl) rfl (fun h => absurd h (by decide)) (fun h => absurd h (by decide)) rfl hheld ?_)
    have hrewind := hevents.next ⟨Bool.eq_false_iff.2 hreached, hfail, hdeadline⟩
    rw [hcommitted, ← hticks] at hrewind
    refine records_rewindStage hcontext hid hidle hs₁ hposition htokens hcommitted hone
      (by have := hlength hlt; omega) (by omega) ?_ hrewind
    rw [hticks, hU, hcommitted]
    exact ⟨fun h => h.2, fun h => ⟨hfail, h⟩⟩

omit hid hidle hs hposition in
theorem candidateSlots_bounds (hposition : position ≤ boundary)
    (hinside : position < s₀.runtime.targetTokens.length) :
    1 ≤ candidateSlots s₀.runtime.targetTokens cancelAt limits.maxCandidateTokens position ∧
    candidateSlots s₀.runtime.targetTokens cancelAt limits.maxCandidateTokens position ≤ maxTokens ∧
    (position < boundary →
      position + candidateSlots s₀.runtime.targetTokens cancelAt limits.maxCandidateTokens position
        ≤ boundary) := by
  have hone := limits.one_le_candidate
  have hmax := limits.candidate_le
  unfold candidateSlots
  rcases hcontext.cancel with ⟨rfl, hend⟩ | rfl
  · simp only
    omega
  · simp only
    split <;> omega

omit hcontext hid hidle hs hposition in
theorem WillCancel.proposes (h : WillCancel s₀ limits boundary cancelAt position ticks) :
    Proposes s₀.runtime s₀.proposer.script limits position ticks := by
  rcases h.2 with ⟨hproposes, -⟩ | ⟨hproposes⟩ <;> exact hproposes

theorem records_proposeStage (hticks : s.clock.ticks = ticks + 1)
    (hcalls : s.proposer.callCount ≤ s₀.proposer.callCount + position)
    (hinside : position < s₀.runtime.targetTokens.length)
    (hreserves : s₀.runtime.reserveFailAtPosition ≠ some (position : Int))
    (hslots : slots = candidateSlots s₀.runtime.targetTokens cancelAt limits.maxCandidateTokens position)
    (hevents : HoldsFrom holding number (proposeEvents s₀.runtime s₀.proposer.script limits cancelAt position
      s.clock.ticks (next (position + (decisionAt s₀.runtime s₀.proposer.script limits cancelAt
        position).targetCommitTokens.length)))) :
    Records holding (Pass.Ends holding next s₀ limits boundary cancelAt position
        (WillCancel s₀ limits boundary cancelAt position ticks))
      (proposeStage boundary cancelAt position id slots s) ⟨.reserved, id, number⟩ := by
  have hmax := hcontext.normal.1
  have hle := hcontext.boundary_le
  have hposition_le := hs.le
  obtain ⟨hone, hslotsMax, hextent⟩ :=
    candidateSlots_bounds hcontext (show position ≤ boundary by omega) hinside
  rw [← hslots] at hone hslotsMax hextent
  have hheld := hevents.here.2 trivial
  rw [proposeStage]
  refine records_tick hcontext (fun _ => rfl) hs
    (fun hlate => .held hid hidle rfl rfl hs hheld (hevents.none fun h => hlate h.2.2))
    (fun h => hticks ▸ h.proposes.ticks_le) fun hs₁ hticks₁ hdeadline => ?_
  have huint : uint32Max ≤ uint63Max := by decide
  have hpropose : s.proposer.propose position id slots =
      ((s₀.proposer.script.answer position).map (List.take slots),
        { s.proposer with callCount := s.proposer.callCount + 1 }) := by
    rw [FakeEagleAdapter.propose, requireInt_ok _ (by omega) (by omega), ok_bind,
      requireInt_ok _ (by omega) (by omega), ok_bind, requireInt_ok _ (by omega) (by omega), ← hs.script]
  have hs₂ : ({ s.ticked with proposer := { s.proposer with callCount := s.proposer.callCount + 1 } } :
      Session).Sound s₀ boundary [(id, slots)] :=
    { hs₁ with script := hs.script, calls_le := Nat.succ_le_succ (hposition ▸ hcalls) }
  rw [hpropose, Script.answer]
  by_cases hfail : s₀.proposer.script.failAtPosition = some position
  · rw [if_pos hfail]
    exact records_leave hcontext (fun _ => rfl) (by simp)
      (.held hid hidle rfl rfl hs₂ hheld (hevents.none fun h => h.1 hfail))
      fun h => absurd hfail h.proposes.answers
  rw [if_neg hfail, map_ok]
  rcases hproposal : (s₀.proposer.script.proposal position).take slots with _ | ⟨token, tokens⟩
  · have hnil : s₀.proposer.script.proposal position = [] :=
      (List.take_eq_nil_iff.1 hproposal).resolve_left (by omega)
    exact records_leave hcontext (fun _ => rfl) (by simp)
      (.held hid hidle rfl rfl hs₂ hheld (hevents.none fun h => h.2.1 hnil))
      fun h => h.proposes.proposal_ne hnil
  have hproposes : Proposes s₀.runtime s₀.proposer.script limits position ticks := by
    refine ⟨hinside, hreserves, by omega, hfail, fun hnil => ?_⟩
    rw [hnil, List.take_nil] at hproposal
    cases hproposal
  have hlength : (token :: tokens).length ≤ slots := by
    rw [← hproposal]
    exact List.length_take_le _ _
  have hnormal : Normal (token :: tokens) := by
    rw [← hproposal]
    exact (s₀.proposer.script.normal_proposal position).slice 0 slots
  refine .attempting (.recordHeld hid hidle rfl (by simp) hs₂.reservations_ne (by omega) (by omega)
    (fun _ => rfl) rfl (fun _ => by simp) (fun h => absurd h (by decide)) rfl hheld ?_)
  have hverify := hevents.next ⟨hfail, hproposes.proposal_ne, hdeadline⟩
  rw [decisionAt, ← hslots, hproposal, ← hticks₁] at hverify
  refine records_verifyStage hcontext hid hidle hs₂ hposition hnormal (List.cons_ne_nil _ _) ?_ ?_ ?_ hinside
    hverify
  · intro hlt
    have := hextent hlt
    omega
  · exact fun hsome hge => ⟨hsome, (undisturbed_iff_of_le hge).2 hproposes⟩
  · intro hlt
    show _ ↔ _ ∧ s.ticked.clock.ticks + 1 + _ ≤ _ ∧ WillCancel _ _ _ _ _ (s.ticked.clock.ticks + 1 + _)
    rw [hticks₁, hticks, WillCancel, WillCancel, undisturbed_iff_of_lt hlt]
    constructor
    · rintro ⟨rfl, -, hverifies, hticks', hrest⟩
      rw [decisionAt, ← hslots, hproposal] at hticks' hrest
      exact ⟨hverifies, hticks', rfl, hrest⟩
    · rintro ⟨hverifies, hticks', rfl, hrest⟩
      rw [decisionAt, ← hslots, hproposal]
      exact ⟨rfl, hproposes, hverifies, hticks', hrest⟩

omit hid hidle hs hposition in
/-- **A pass of the loop** leaves it at the boundary, or commits tokens and releases its reservation. -/
theorem records_adapterPass {state : AdapterState} (hstate : state = .pinned ∨ state = .released)
    (hs : s.Idle s₀ boundary) {passes : Nat}
    (hevents : HoldsFrom holding number (HeldEvents s₀.runtime s₀.proposer.script limits cancelAt (passes + 1)
      s.runtime.position s.clock.ticks)) :
    Records holding (Pass.Ends holding (HeldEvents s₀.runtime s₀.proposer.script limits cancelAt passes) s₀
        limits boundary cancelAt s.runtime.position
        (WillCancel s₀ limits boundary cancelAt s.runtime.position s.clock.ticks))
      (adapterPass s₀.runtime.targetTokens boundary cancelAt limits.maxCandidateTokens s) ⟨state, 0, number⟩ := by
  have hmax := hcontext.normal.1
  have hle := hcontext.boundary_le
  obtain ⟨hs, hnext, hcalls⟩ := hs
  have hposition_le := hs.le
  have hfallback : allowedTransition state .fallback = some .fallback := by
    rcases hstate with rfl | rfl <;> rfl
  have hclose : allowedTransition state .close = some .closed := by rcases hstate with rfl | rfl <;> rfl
  have hreserve : allowedTransition state .reserve = some .reserved := by
    rcases hstate with rfl | rfl <;> rfl
  -- a pass that reserves nothing records no event that holds a reservation
  have hfree : ∀ {n}, ¬ (s.runtime.position < s₀.runtime.targetTokens.length ∧
      s₀.runtime.reserveFailAtPosition ≠ some (s.runtime.position : Int) ∧
      s.clock.ticks + 1 ≤ limits.deadlineBudgetTicks) → number ≤ n → ¬ holding n := by
    intro n hnot hn hheld
    obtain ⟨event, rfl⟩ := Nat.exists_eq_add_of_le hn
    exact hnot ((hevents event).1 hheld).1
  simp only [adapterPass]
  split
  · rename_i hend
    refine .recordFree rfl hs.reservations (hs.position_le hcontext.normal) (fun _ => rfl) (by simp) hclose
      (hfree (fun h => by omega) (Nat.le_refl _))
      (.pure ⟨⟨rfl, fun n hn => hfree (fun h => by omega) (Nat.le_of_succ_le hn), hs, by simp only; omega,
        rfl, fun _ => rfl⟩, iff_of_false (by simp) ?_⟩)
    intro h
    have := h.proposes.inside
    omega
  rename_i hend
  have hinside : s.runtime.position < s₀.runtime.targetTokens.length := by omega
  refine records_tick hcontext (fun _ => rfl) hs
    (fun hlate => .free rfl hfallback hs fun _ => hfree fun h => hlate h.2.2)
    (fun h => Nat.le_of_succ_le h.proposes.ticks_le) fun hs₁ hticks₁ hdeadline => ?_
  by_cases hfail : s₀.runtime.reserveFailAtPosition = some (s.runtime.position : Int)
  · rw [hs.reserve_fails hfail]
    exact records_leave hcontext (fun _ => rfl) (by simp)
      (.free rfl hfallback hs₁ fun _ => hfree fun h => h.2.1 hfail) fun h => h.proposes.reserves hfail
  obtain ⟨hone, hslotsMax, hextent⟩ := candidateSlots_bounds hcontext hposition_le hinside
  have huint : maxTokens + 1 ≤ uint32Max := by decide
  have hid := hs.one_le_next
  have hidle : s.runtime.ledger.nextReservation ≤ uint32Max := by omega
  obtain ⟨runtime, hslots, hs₂, hposition₂⟩ := hs₁.reserve hnext hfail hone hslotsMax
  rw [show s.runtime.reserve s.runtime.position _ = _ from hslots]
  have hreserved : HoldsFrom holding number (eventThen True True _) :=
    fun event => (hevents event).trans (and_iff_right ⟨hinside, hfail, hdeadline⟩)
  refine .attempting (.recordReserve hid hidle hs₂.reservations_ne (by omega) hslotsMax (by omega) hreserve
    (hreserved.here.2 trivial) ?_)
  exact records_proposeStage hcontext hid hidle hs₂ hposition₂ hticks₁ hcalls hinside hfail rfl
    (hticks₁ ▸ hreserved.next trivial)

omit hid hidle hs hposition in
/-- **The loop** ends at the boundary, and the run is cancelled if nothing disturbs it. -/
theorem records_adapterLoop {passes : Nat} {v : AdapterVariables}
    (hstate : v.state = .pinned ∨ v.state = .released) (hs : v.session.Idle s₀ boundary)
    (hpasses : s₀.runtime.targetTokens.length < passes + v.session.runtime.position)
    (hevents : HoldsFrom holding number (HeldEvents s₀.runtime s₀.proposer.script limits cancelAt passes
      v.session.runtime.position v.session.clock.ticks)) :
    Records holding (fun v' p' => v'.Finished holding s₀ boundary p' ∧ (v'.cancelled = true ↔
        WillCancel s₀ limits boundary cancelAt v.session.runtime.position v.session.clock.ticks))
      (adapterLoop s₀.runtime.targetTokens boundary cancelAt limits.maxCandidateTokens passes v)
      ⟨v.state, 0, number⟩ := by
  have hentered : ¬ (v.state = .closed ∨ v.state = .fallback) := by
    rcases hstate with hstate | hstate <;> simp [hstate]
  induction passes generalizing v number with
  | zero =>
    have := hs.sound.holds.le
    omega
  | succ passes ih =>
    rw [adapterLoop, if_neg hentered]
    refine (records_adapterPass hcontext hstate hs hevents).bind ?_
    rintro (v' | v') p' hends
    · exact .pure hends
    · obtain ⟨hp, hevents', hstate', hs', hlt, hU⟩ := hends
      have h := ih (.inr hstate') hs' (by omega) hevents' (by simp [hstate'])
      rw [hstate', hU, ← hp] at h
      exact h

end Passes

/-- The events of a run that hold a reservation; the first one pins the runtime. -/
def HoldsInRun (runtime : FakeTargetRuntimeAdapter) (script : Script) (request : EaglegateAdapterRequest)
    (limits : EaglegateAdapterLimits) (cancelAt : Option Nat) (passes event : Nat) : Prop :=
  request.epochRoot = runtime.epochRoot ∧ request.adapterIdentityRoot = runtime.adapterIdentityRoot ∧
    eventThen False True (HeldEvents runtime script limits cancelAt passes 0 1) event

/-- **The program of a run.** Every event is one that the protocol accepts, and the run returns with the
tokens up to the boundary committed. -/
theorem records_adapterProgram {s₀ : Session} {limits : EaglegateAdapterLimits} {boundary passes : Nat}
    {cancelAt : Option Nat} (hcontext : RunContext s₀ limits boundary cancelAt)
    (request : EaglegateAdapterRequest) (hledger : s₀.runtime.ledger = .init) (hticks : s₀.clock.ticks = 0)
    (hpasses : s₀.runtime.targetTokens.length < passes) {holding : Nat → Prop}
    (hholding : holding = HoldsInRun s₀.runtime s₀.proposer.script request limits cancelAt passes) :
    Records holding (fun v p' => v.Finished holding s₀ boundary p' ∧ (v.cancelled = true ↔
        request.epochRoot = s₀.runtime.epochRoot ∧
        request.adapterIdentityRoot = s₀.runtime.adapterIdentityRoot ∧
        WillCancel s₀ limits boundary cancelAt 0 1))
      (adapterProgram s₀.runtime.targetTokens boundary cancelAt limits.maxCandidateTokens passes request s₀)
      ⟨.new, 0, 0⟩ := by
  have hposition : s₀.runtime.position = 0 := by
    rw [FakeTargetRuntimeAdapter.position, hledger]
    rfl
  have hs₀ : s₀.Sound s₀ boundary [] := by
    have hnext : s₀.runtime.ledger.nextReservation = 1 := by rw [hledger]; rfl
    refine ⟨rfl, rfl, rfl, rfl, rfl, ?_, by omega, by rw [hledger]; rfl, by omega, by omega, by omega, by omega⟩
    rw [hposition, hledger]
    exact holds_init _
  have hfallback {reason : String} {fault : AdapterFault}
      (hreason : ∀ name, requireAscii name reason true = .ok ()) (hfault : fault ≠ .none) {U : Prop}
      (hU : ¬ U) (hfree : ∀ n, ¬ holding n) :
      Records holding (fun v p' => v.Finished holding s₀ boundary p' ∧ (v.cancelled = true ↔ U))
        (finishFallback boundary reason fault 0 true s₀ >>=
          adapterLoop s₀.runtime.targetTokens boundary cancelAt limits.maxCandidateTokens passes)
        ⟨.new, 0, 0⟩ := by
    refine (records_finishFallback hcontext.normal hcontext.boundary_le hreason hfault
      (.free rfl rfl hs₀ fun n _ => hfree n) (fun h => absurd h (by simp))).bind ?_
    rintro v p' ⟨hv, hcancelled⟩
    have hleft : adapterLoop s₀.runtime.targetTokens boundary cancelAt limits.maxCandidateTokens passes v
        = pure v := by
      cases passes <;> rw [adapterLoop, if_pos (.inl hv.state)]
    rw [hleft]
    exact .pure ⟨hv, by simp [hcancelled, hU]⟩
  rw [adapterProgram, pinStage]
  have hruns := fun n => iff_of_eq (congrFun hholding n)
  by_cases hepoch : request.epochRoot = s₀.runtime.epochRoot
  case neg =>
    rw [if_pos hepoch]
    exact hfallback (fun _ => rfl) (by simp) (fun h => hepoch h.1) fun n h => hepoch ((hruns n).1 h).1
  by_cases hidentity : request.adapterIdentityRoot = s₀.runtime.adapterIdentityRoot
  case neg =>
    rw [if_neg (not_not.2 hepoch), if_pos hidentity]
    exact hfallback (fun _ => rfl) (by simp) (fun h => hidentity h.2.1) fun n h =>
      hidentity ((hruns n).1 h).2.1
  have htick : ¬ s₀.clock.consume.1 = false := by
    intro htick
    have := hs₀.deadline_lt htick
    have := limits.one_le_ticks
    have := hcontext.deadline
    omega
  obtain ⟨hs₁, hticks₁, -⟩ := hs₀.ticked htick
  rw [if_neg (not_not.2 hepoch), if_neg (not_not.2 hidentity), if_neg htick]
  refine .recordFree rfl hs₁.reservations (Nat.zero_le _) (fun _ => rfl) (by simp) rfl
    (fun h => ((hruns 0).1 h).2.2) ?_
  have hidle : s₀.ticked.Idle s₀ boundary := by
    refine ⟨hs₁, ?_, Nat.le_add_right _ _⟩
    show s₀.runtime.ledger.nextReservation ≤ s₀.runtime.position + 1
    rw [hledger]
    exact Nat.le_add_left 1 _
  have hevents : HoldsFrom holding 1 (HeldEvents s₀.runtime s₀.proposer.script limits cancelAt passes
      s₀.runtime.position s₀.ticked.clock.ticks) := by
    rw [hholding, hposition, hticks₁, hticks]
    intro event
    rw [Nat.add_comm]
    exact ⟨fun h => h.2.2.2, fun h => ⟨hepoch, hidentity, trivial, h⟩⟩
  have hloop := records_adapterLoop hcontext (v := ⟨s₀.ticked, .pinned, "", .none, false⟩) (.inl rfl) hidle
    (show s₀.runtime.targetTokens.length < passes + s₀.runtime.position by omega) hevents
  rw [show (⟨s₀.ticked, .pinned, "", .none, false⟩ : AdapterVariables).session.runtime.position = 0
      from hposition,
    show (⟨s₀.ticked, .pinned, "", .none, false⟩ : AdapterVariables).session.clock.ticks = 1
      from hticks₁.trans (by rw [hticks])] at hloop
  simp only [hepoch, hidentity, true_and]
  exact hloop

end Eaglegate
