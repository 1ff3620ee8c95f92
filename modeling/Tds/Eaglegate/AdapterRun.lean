import Tds.Eaglegate.Adapter
import Tds.Process.Refusal

/-!
# The run of the adapter

`adapter_runtime.py`: the runtime of the target, the proposer, the clock of operations, and
`run_adapter_conformance_reference`.

What the function does to the trace is to record events, and what it reads of the trace is its state. So
it is a program whose only operation is to record an event, and the answer is the state of the trace
after that event. The runtime, the proposer and the clock are passed along. An event comes with a copy of
them, and so does an exception, because they outlive a call that raises.
-/

namespace Eaglegate

open Python Process

/-! ## The clock and the proposer -/

/-- Time is counted in operations. -/
structure DeterministicOperationClock where
  deadlineTicks : Nat
  ticks : Nat

/-- One tick, unless the deadline is reached. -/
def DeterministicOperationClock.consume (clock : DeterministicOperationClock) :
    Bool × DeterministicOperationClock :=
  if clock.deadlineTicks < clock.ticks + 1 then (false, clock)
  else (true, { clock with ticks := clock.ticks + 1 })

/-- A proposer that follows a script. -/
structure FakeEagleAdapter where
  script : Script
  callCount : Nat

/-- A proposal, at most as long as the reservation. -/
def FakeEagleAdapter.propose (proposer : FakeEagleAdapter) (position reservationId slots : Nat) :
    Check (List Int) × FakeEagleAdapter :=
  match (do
    requireInt "position" position 0 maxTokens
    requireInt "reservation_id" reservationId 1 uint63Max
    requireInt "max_candidate_tokens" slots 1 maxTokens : Check Unit) with
  | .error e => (.error e, proposer)
  | .ok () =>
    ((proposer.script.answer position).map (List.take slots),
      { proposer with callCount := proposer.callCount + 1 })

/-! ## The runtime of the target -/

/-- What the target makes of a proposal. -/
structure VerificationDecision where
  acceptedPrefix : Nat
  rejectedTokens : Nat
  targetCommitTokens : List Int

/-- The decision on a candidate: the tokens that match, and the target's token where they end. -/
def VerificationDecision.of (target : List Int) (position : Nat) (candidate : List Int) :
    VerificationDecision :=
  let accepted := matchedLength candidate (target.drop position)
  let rejected := candidate.length - accepted
  let commitLength := accepted + if rejected = 0 then 0 else 1
  ⟨accepted, rejected, sliceTokens target position (position + commitLength)⟩

/-- `VerificationDecision.__post_init__`. -/
def VerificationDecision.validate (decision : VerificationDecision) : Check VerificationDecision := do
  requireInt "accepted_prefix" decision.acceptedPrefix 0 maxTokens
  requireInt "rejected_tokens" decision.rejectedTokens 0 maxTokens
  let _ ← normalizeTokens decision.targetCommitTokens
  raiseIf (decision.targetCommitTokens = []) "verification must produce target commit tokens"
  return decision

/-- A target runtime with a ledger and injected failures. -/
structure FakeTargetRuntimeAdapter where
  targetTokens : List Int
  epochRoot : Root
  adapterIdentityRoot : Root
  reserveFailAtPosition : Option Int
  verifyFailAtPosition : Option Int
  ledger : ReferenceKVLedger
  rewindCount : Nat
  cancelCount : Nat

namespace FakeTargetRuntimeAdapter

/-- An injected failure is at a position of the target. -/
def checkFailure (name : String) (failAt : Option Int) (count : Nat) : Check Unit :=
  match failAt with
  | none => return
  | some position => requireInt name position 0 count

def init (targetTokens : List Int) (epochRoot adapterIdentityRoot : Root)
    (reserveFailAtPosition verifyFailAtPosition : Option Int) : Check FakeTargetRuntimeAdapter := do
  let target ← normalizeTokens targetTokens
  checkFailure "reserve_fail_at_position" reserveFailAtPosition target.length
  checkFailure "verify_fail_at_position" verifyFailAtPosition target.length
  return ⟨target, epochRoot, adapterIdentityRoot, reserveFailAtPosition, verifyFailAtPosition, .init, 0, 0⟩

def position (runtime : FakeTargetRuntimeAdapter) : Nat := runtime.ledger.committed.length

/-- Reserves slots, or fails as injected. -/
def reserve (runtime : FakeTargetRuntimeAdapter) (position slots : Nat) :
    Check (Nat × FakeTargetRuntimeAdapter) :=
  if runtime.reserveFailAtPosition = some (position : Int) then
    .error (.resourceExhausted "injected reservation exhaustion")
  else do
    let (reservationId, ledger) ← runtime.ledger.reserve slots
    return (reservationId, { runtime with ledger := ledger })

/-- Compares a proposal with the target. -/
def verify (runtime : FakeTargetRuntimeAdapter) (position : Nat) (proposal : List Int) :
    Check VerificationDecision :=
  if runtime.verifyFailAtPosition = some (position : Int) then
    .error (.verifierFailure "injected verifier failure")
  else do
    let candidate ← normalizeTokens proposal
    raiseIf (candidate = []) "verification proposal cannot be empty"
    raiseIf (position ≠ runtime.position) "verification position is not committed position"
    raiseIf (runtime.targetTokens.length < position + candidate.length) "proposal exceeds target extent"
    VerificationDecision.validate (.of runtime.targetTokens position candidate)

/-- Counts the tokens that were rejected. -/
def rewind (runtime : FakeTargetRuntimeAdapter) (reservationId rejectedTokens : Nat) :
    Check FakeTargetRuntimeAdapter := do
  raiseIf (reservationId ≤ 0) "rewind requires an active reservation"
  requireInt "rejected_tokens" rejectedTokens 1 maxTokens
  return { runtime with rewindCount := runtime.rewindCount + rejectedTokens }

def commit (runtime : FakeTargetRuntimeAdapter) (tokens : List Int) : Check FakeTargetRuntimeAdapter := do
  let ledger ← runtime.ledger.commit tokens targetAuthority
  return { runtime with ledger := ledger }

def cancel (runtime : FakeTargetRuntimeAdapter) (reservationId : Nat) : Check FakeTargetRuntimeAdapter := do
  raiseIf (reservationId ≤ 0) "cancel requires an active reservation"
  return { runtime with cancelCount := runtime.cancelCount + 1 }

def release (runtime : FakeTargetRuntimeAdapter) (reservationId : Nat) : Check FakeTargetRuntimeAdapter := do
  let ledger ← runtime.ledger.release reservationId
  return { runtime with ledger := ledger }

/-- Commits the target up to the boundary. -/
def finishTargetOnly (runtime : FakeTargetRuntimeAdapter) (boundary : Nat) :
    Check FakeTargetRuntimeAdapter := do
  requireInt "boundary" boundary runtime.position runtime.targetTokens.length
  runtime.commit (sliceTokens runtime.targetTokens runtime.position boundary)

end FakeTargetRuntimeAdapter

/-! ## The program -/

structure Session where
  runtime : FakeTargetRuntimeAdapter
  proposer : FakeEagleAdapter
  clock : DeterministicOperationClock

def Session.ticked (s : Session) : Session := { s with clock := s.clock.consume.2 }

/-- `trace.record(...)`, with a copy of the session. -/
structure Record where
  session : Session
  args : EventArgs

/-- A program that records events and is told the state of the trace after each. -/
abbrev Recorder := Prog Record (fun _ => AdapterState) (EaglegateError × Session)

/-- `trace.record(...)`. -/
def record (s : Session) (args : EventArgs) : Recorder AdapterState := .call ⟨s, args⟩

/-- A result that may raise in the middle of a run. -/
def attempting {α : Type} (s : Session) (result : Check α) : Recorder α :=
  .done (result.mapError fun e => (e, s))

def onRuntime (s : Session) (f : FakeTargetRuntimeAdapter → Check FakeTargetRuntimeAdapter) :
    Recorder Session :=
  attempting s ((f s.runtime).map fun runtime => { s with runtime := runtime })

structure AdapterVariables where
  session : Session
  state : AdapterState
  fallbackReason : String
  fault : AdapterFault
  cancelled : Bool

/-- How one pass of the loop ends. -/
inductive Pass where
  /-- `break`. -/
  | leave (v : AdapterVariables)
  /-- The end of the body. -/
  | again (v : AdapterVariables)

/-- The reservation, if there is one, is cancelled and released. -/
def cancelReservation (reason : String) (reservationId : Nat) (s : Session) : Recorder Session :=
  if reservationId = 0 then pure s
  else do
    let s ← onRuntime s (·.cancel reservationId)
    let _ ← record s {
      operation := .cancel, position := s.runtime.position, reservationId := reservationId
      reason := reason }
    let s ← onRuntime s (·.release reservationId)
    let _ ← record s {
      operation := .release, position := s.runtime.position, reservationId := reservationId
      reason := "safety_release" }
    return s

/-- Commits the rest, unless the run is cancelled. -/
def continueOrCancel (boundary : Nat) (continueTargetOnly : Bool) (s : Session) : Recorder Session :=
  if continueTargetOnly then onRuntime s (·.finishTargetOnly boundary) else pure s

/-- Gives the reservation back, falls back and closes. -/
def finishFallback (boundary : Nat) (reason : String) (fault : AdapterFault) (reservationId : Nat)
    (continueTargetOnly : Bool) (s : Session) : Recorder AdapterVariables := do
  let s ← cancelReservation reason reservationId s
  let _ ← record s {
    operation := .fallback, position := s.runtime.position, reason := reason, fault := fault }
  let s ← continueOrCancel boundary continueTargetOnly s
  let state ← record s {
    operation := .close, position := s.runtime.position
    reason := if continueTargetOnly then "target_only_complete" else "cancelled" }
  return ⟨s, state, reason, fault, !continueTargetOnly⟩

def leaveWith (boundary : Nat) (reason : String) (fault : AdapterFault) (reservationId : Nat)
    (continueTargetOnly : Bool) (s : Session) : Recorder Pass := do
  let v ← finishFallback boundary reason fault reservationId continueTargetOnly s
  return .leave v

section Passes

variable (target : List Int) (boundary : Nat) (cancelAt : Option Nat) (maxCandidateTokens : Nat)

/-- The last part of the body of the loop: the tokens are committed, and the reservation is released. -/
def commitStage (position reservationId : Nat) (decision : VerificationDecision) (s : Session) :
    Recorder Pass :=
  if s.clock.consume.1 = false then
    leaveWith boundary "deadline_before_commit" .deadlineExceeded reservationId true s
  else do
    let s ← onRuntime s.ticked (·.commit decision.targetCommitTokens)
    let _ ← record s {
      operation := .commit, position := position, tokenCount := decision.targetCommitTokens.length
      reservationId := reservationId, authority := targetAuthority }
    let s ← onRuntime s (·.release reservationId)
    let state ← record s {
      operation := .release, position := s.runtime.position, reservationId := reservationId }
    return .again ⟨s, state, "", .none, false⟩

/-- Rewinds what was rejected, then commits. -/
def rewindStage (position reservationId : Nat) (decision : VerificationDecision) (s : Session) :
    Recorder Pass :=
  if decision.rejectedTokens = 0 then commitStage boundary position reservationId decision s
  else if s.clock.consume.1 = false then
    leaveWith boundary "deadline_before_rewind" .deadlineExceeded reservationId true s
  else do
    let s ← onRuntime s.ticked (·.rewind reservationId decision.rejectedTokens)
    let _ ← record s {
      operation := .rewind, position := position, tokenCount := decision.rejectedTokens
      reservationId := reservationId }
    commitStage boundary position reservationId decision s

/-- Before it, the proposal is verified, unless the request is cancelled. -/
def verifyStage (position reservationId : Nat) (proposal : List Int) (s : Session) : Recorder Pass :=
  if cancelAt.any (· ≤ position) then
    leaveWith boundary "request_cancelled" .requestCancelled reservationId false s
  else if s.clock.consume.1 = false then
    leaveWith boundary "deadline_before_verify" .deadlineExceeded reservationId true s
  else
    match s.runtime.verify position proposal with
    | .error (.verifierFailure _) =>
      leaveWith boundary "verifier_failure" .verifierFailure reservationId true s.ticked
    | decision => do
      let decision ← attempting s.ticked decision
      let _ ← record s.ticked {
        operation := .verify, position := position, tokenCount := decision.acceptedPrefix
        reservationId := reservationId }
      rewindStage boundary position reservationId decision s.ticked

/-- Asks for a proposal, then verifies it. -/
def proposeStage (position reservationId slots : Nat) (s : Session) : Recorder Pass :=
  if s.clock.consume.1 = false then
    leaveWith boundary "deadline_before_propose" .deadlineExceeded reservationId true s
  else
    match s.proposer.propose position reservationId slots with
    | (.error (.proposerFailure _), proposer) =>
      leaveWith boundary "proposer_failure" .proposerFailure reservationId true
        { s.ticked with proposer := proposer }
    | (.ok [], proposer) =>
      leaveWith boundary "empty_proposal" .proposerFailure reservationId true
        { s.ticked with proposer := proposer }
    | (proposal, proposer) => do
      let s := { s.ticked with proposer := proposer }
      let proposal ← attempting s proposal
      let _ ← record s {
        operation := .propose, position := position, tokenCount := proposal.length
        reservationId := reservationId }
      verifyStage boundary cancelAt position reservationId proposal s

/-- How many tokens are reserved. -/
def candidateSlots (position : Nat) : Nat :=
  let extent := target.length - position
  min maxCandidateTokens <|
    match cancelAt with
    | some cancel => if position < cancel then min extent (cancel - position) else extent
    | none => extent

def adapterPass (s : Session) : Recorder Pass :=
  let position := s.runtime.position
  if target.length ≤ position then do
    let state ← record s { operation := .close, position := position, reason := "complete" }
    return .leave ⟨s, state, "", .none, false⟩
  else if s.clock.consume.1 = false then
    leaveWith boundary "deadline_before_reserve" .deadlineExceeded 0 true s
  else
    let slots := candidateSlots target cancelAt maxCandidateTokens position
    match s.runtime.reserve position slots with
    | .error (.resourceExhausted _) =>
      leaveWith boundary "resource_exhausted" .resourceExhausted 0 true s.ticked
    | reserved => do
      let (reservationId, runtime) ← attempting s.ticked reserved
      let s := { s.ticked with runtime := runtime }
      let _ ← record s {
        operation := .reserve, position := position, tokenCount := slots
        reservationId := reservationId }
      proposeStage boundary cancelAt position reservationId slots s

def adapterLoop : Nat → AdapterVariables → Recorder AdapterVariables
  | 0, v =>
    if v.state = .closed ∨ v.state = .fallback then pure v else .done (.error (.diverges, v.session))
  | passes + 1, v =>
    if v.state = .closed ∨ v.state = .fallback then pure v
    else do
      match ← adapterPass target boundary cancelAt maxCandidateTokens v.session with
      | .leave v => pure v
      | .again v => adapterLoop passes v

/-- Compares the roots and pins the runtime. -/
def pinStage (request : EaglegateAdapterRequest) (s : Session) : Recorder AdapterVariables :=
  if request.epochRoot ≠ s.runtime.epochRoot then
    finishFallback boundary "epoch_mismatch" .epochMismatch 0 true s
  else if request.adapterIdentityRoot ≠ s.runtime.adapterIdentityRoot then
    finishFallback boundary "identity_mismatch" .identityMismatch 0 true s
  else if s.clock.consume.1 = false then
    finishFallback boundary "deadline_before_pin" .deadlineExceeded 0 true s
  else do
    let state ← record s.ticked { operation := .pin, position := 0, reason := "identity_pinned" }
    return ⟨s.ticked, state, "", .none, false⟩

def adapterProgram (passes : Nat) (request : EaglegateAdapterRequest) (s : Session) :
    Recorder AdapterVariables := do
  let v ← pinStage boundary request s
  adapterLoop target boundary cancelAt maxCandidateTokens passes v

end Passes

/-! ## The function -/

structure AdapterConformanceOutcome where
  requestRoot : Root
  path : String
  fallbackReason : String
  fault : AdapterFault
  tokenCount : Nat
  tokenSequenceRoot : Root
  committedStateRoot : Root
  traceRoot : Root
  traceEventCount : Nat
  outstandingReservations : Nat
  proposerCalls : Nat
  operationTicks : Nat
  allCommitsByTarget : Bool
  cancelled : Bool

/-- `AdapterConformanceOutcome.__post_init__`. -/
def AdapterConformanceOutcome.validate (outcome : AdapterConformanceOutcome) :
    Check AdapterConformanceOutcome := do
  requireAscii "path" outcome.path false
  requireAscii "fallback_reason" outcome.fallbackReason true
  requireInt "token_count" outcome.tokenCount 0 maxTokens
  requireInt "trace_event_count" outcome.traceEventCount 1 uint63Max
  requireInt "outstanding_reservations" outcome.outstandingReservations 0 uint63Max
  requireInt "proposer_calls" outcome.proposerCalls 0 uint63Max
  requireInt "operation_ticks" outcome.operationTicks 0 uint63Max
  return outcome

structure AdapterExecution where
  outcome : AdapterConformanceOutcome
  trace : EaglegateAdapterTrace

section Function

variable [Runtime]

def checkArguments (targetTokens : List Int) (runtime : FakeTargetRuntimeAdapter)
    (request : EaglegateAdapterRequest) (limits : EaglegateAdapterLimits) (cancelAt : Option Int) :
    Check Nat := do
  let target ← normalizeTokens targetTokens
  raiseIf (target ≠ runtime.targetTokens) "target input differs from runtime target"
  raiseIf (request.limitsRoot ≠ limits.limitsRoot) "request limits root mismatch"
  checkCancel "cancel_at_position" target cancelAt

def completeAdapter (request : EaglegateAdapterRequest) (v : AdapterVariables)
    (builder : AdapterTraceBuilder) : Check AdapterExecution := do
  let trace ← builder.finish
  let ledger := v.session.runtime.ledger
  let outcome ← AdapterConformanceOutcome.validate {
    requestRoot := request.requestRoot
    path := if v.fault = .none then "adapter_conformance" else "target_only_fallback"
    fallbackReason := v.fallbackReason
    fault := v.fault
    tokenCount := ledger.committed.length
    tokenSequenceRoot := tokenSequenceRoot ledger.committed
    committedStateRoot := committedStateRoot ledger.committed
    traceRoot := trace.traceRoot
    traceEventCount := trace.events.length
    outstandingReservations := ledger.outstandingReservations
    proposerCalls := v.session.proposer.callCount
    operationTicks := v.session.clock.ticks
    allCommitsByTarget := ledger.allCommitsByTarget
    cancelled := v.cancelled }
  return ⟨outcome, trace⟩

/-- The builder as the handler of a program that records events. -/
def handleRecord (r : Record) (builder : AdapterTraceBuilder) :
    Check (AdapterState × AdapterTraceBuilder) :=
  (builder.record r.args).map fun builder => (builder.state, builder)

/-- The program of a run whose arguments are as they should be. -/
def adapterRun (passes : Nat) (proposer : FakeEagleAdapter) (runtime : FakeTargetRuntimeAdapter)
    (request : EaglegateAdapterRequest) (limits : EaglegateAdapterLimits) (cancelAt : Option Int)
    (boundary : Nat) : Recorder AdapterVariables :=
  adapterProgram runtime.targetTokens boundary (cancelAt.map Int.toNat) limits.maxCandidateTokens passes
    request ⟨runtime, proposer, ⟨limits.deadlineBudgetTicks, 0⟩⟩

/-- `run_adapter_conformance_reference`: what it returns or raises, and the runtime after it. The loop is
given this number of passes. -/
def runAdapterConformanceReference (passes : Nat) (targetTokens : List Int) (proposer : FakeEagleAdapter)
    (runtime : FakeTargetRuntimeAdapter) (request : EaglegateAdapterRequest)
    (limits : EaglegateAdapterLimits) (cancelAt : Option Int) :
    Check AdapterExecution × FakeTargetRuntimeAdapter :=
  match checkArguments targetTokens runtime request limits cancelAt with
  | .error e => (.error e, runtime)
  | .ok boundary =>
    match (adapterRun passes proposer runtime request limits cancelAt boundary).play handleRecord
        ⟨request.requestRoot, limits.maxTraceEvents, .new, []⟩ with
    | .refused r e _ => (.error e, r.session.runtime)
    | .finished (.error (e, s)) _ => (.error e, s.runtime)
    | .finished (.ok v) builder => (completeAdapter request v builder, v.session.runtime)

end Function

end Eaglegate
