import Tds.Eaglegate.Exactness

/-!
# The contract of the adapter

`adapter_contract.py`: the operations of an adapter and the order in which they may follow each other,
the events of a trace, each with the root of its predecessor, and the check of a whole trace. Then the
builder of `adapter_runtime.py`, which records the events one by one.
-/

namespace Eaglegate

open Python

/-- `EAGLEGATE_ADAPTER_CONTRACT_ID`. -/
def adapterContractId : String := "tds-eaglegate-adapter-conformance-v1"

/-- `EAGLEGATE_ADAPTER_ABI_VERSION`. -/
def adapterAbiVersion : Nat := 1

/-- `EAGLEGATE_ADAPTER_SEQUENCE_ID`. -/
def adapterSequenceId : String := "pin-reserve-propose-verify-rewind-commit-cancel-release-v1"

/-- The steps of a run, as the trace names them. -/
inductive AdapterOperation where
  | pin | reserve | propose | verify | rewind | commit | cancel | release | fallback | close
deriving DecidableEq

def AdapterOperation.value : AdapterOperation → String
  | pin => "pin"
  | reserve => "reserve"
  | propose => "propose"
  | verify => "verify"
  | rewind => "rewind"
  | commit => "commit"
  | cancel => "cancel"
  | release => "release"
  | fallback => "fallback"
  | close => "close"

inductive AdapterState where
  | new | pinned | reserved | proposed | verified | rewound | committed | cancelled | released | fallback
  | closed
deriving DecidableEq

def AdapterState.value : AdapterState → String
  | new => "new"
  | pinned => "pinned"
  | reserved => "reserved"
  | proposed => "proposed"
  | verified => "verified"
  | rewound => "rewound"
  | committed => "committed"
  | cancelled => "cancelled"
  | released => "released"
  | fallback => "fallback"
  | closed => "closed"

/-- Why a run falls back to the target. -/
inductive AdapterFault where
  | none | identityMismatch | epochMismatch | deadlineExceeded | resourceExhausted | proposerFailure
  | verifierFailure | invalidSequence | requestCancelled | authorityRejected
deriving DecidableEq

def AdapterFault.value : AdapterFault → String
  | none => "none"
  | identityMismatch => "identity_mismatch"
  | epochMismatch => "epoch_mismatch"
  | deadlineExceeded => "deadline_exceeded"
  | resourceExhausted => "resource_exhausted"
  | proposerFailure => "proposer_failure"
  | verifierFailure => "verifier_failure"
  | invalidSequence => "invalid_sequence"
  | requestCancelled => "request_cancelled"
  | authorityRejected => "authority_rejected"

/-- `ADAPTER_ALLOWED_TRANSITIONS`. -/
def allowedTransition : AdapterState → AdapterOperation → Option AdapterState
  | .new, .pin => some .pinned
  | .new, .fallback => some .fallback
  | .pinned, .reserve => some .reserved
  | .pinned, .fallback => some .fallback
  | .pinned, .close => some .closed
  | .reserved, .propose => some .proposed
  | .reserved, .cancel => some .cancelled
  | .proposed, .verify => some .verified
  | .proposed, .cancel => some .cancelled
  | .verified, .rewind => some .rewound
  | .verified, .commit => some .committed
  | .verified, .cancel => some .cancelled
  | .rewound, .commit => some .committed
  | .rewound, .cancel => some .cancelled
  | .committed, .release => some .released
  | .cancelled, .release => some .released
  | .released, .reserve => some .reserved
  | .released, .fallback => some .fallback
  | .released, .close => some .closed
  | .fallback, .close => some .closed
  | _, _ => none

/-! ## Limits and requests -/

/-- `EaglegateAdapterLimits`; its `max_outstanding_reservations` is always 1. -/
structure EaglegateAdapterLimits where
  maxCandidateTokens : Nat
  maxTraceEvents : Nat
  deadlineBudgetTicks : Nat
  one_le_candidate : 1 ≤ maxCandidateTokens
  candidate_le : maxCandidateTokens ≤ maxTokens
  one_le_events : 1 ≤ maxTraceEvents
  events_le : maxTraceEvents ≤ maxEvents
  one_le_ticks : 1 ≤ deadlineBudgetTicks
  ticks_le : deadlineBudgetTicks ≤ uint63Max

/-- The roots that a run is bound to. -/
structure EaglegateAdapterRequest where
  epochRoot : Root
  adapterIdentityRoot : Root
  planRoot : Root
  requestClassRoot : Root
  limitsRoot : Root

/-! ## Events -/

structure EventArgs where
  operation : AdapterOperation
  position : Nat
  tokenCount : Nat := 0
  reservationId : Nat := 0
  authority : String := ""
  reason : String := ""
  fault : AdapterFault := .none

/-- `reservation_operations`. -/
def AdapterOperation.needsReservation (operation : AdapterOperation) : Bool :=
  operation ∈ [.reserve, .propose, .verify, .rewind, .commit, .cancel, .release]

/-- `positive_count_operations`. -/
def AdapterOperation.needsCount (operation : AdapterOperation) : Bool :=
  operation ∈ [.reserve, .propose, .rewind, .commit]

/-- The event has no tokens. -/
def AdapterOperation.excludesCount (operation : AdapterOperation) : Bool :=
  operation ∈ [.pin, .cancel, .release, .fallback, .close]

/-- Only the target commits. -/
def EventArgs.checkAuthority (args : EventArgs) : Check Unit :=
  if args.operation = .commit then
    raiseIf (args.authority ≠ targetAuthority) "adapter commit must be owned by target-runtime"
  else
    raiseIf (args.authority ≠ "") "only commit events may carry an authority"

/-- A fault comes with a fallback, and only with it. -/
def EventArgs.checkFault (args : EventArgs) : Check Unit :=
  if args.operation = .fallback then
    raiseIf (args.fault = .none) "fallback requires a stable fault"
  else
    raiseIf (args.fault ≠ .none) "only fallback events may carry a fault"

/-- A reservation id comes with the events that need one. -/
def EventArgs.checkReservationId (args : EventArgs) : Check Unit :=
  if args.operation.needsReservation then
    raiseIf (args.reservationId = 0) "reservation operation requires a reservation id"
  else
    raiseIf (args.reservationId ≠ 0) "non-reservation operation cannot carry a reservation id"

/-- What `AdapterTraceEvent.__post_init__` checks after the number of the event. -/
def EventArgs.check (args : EventArgs) : Check Unit := do
  requireInt "position" args.position 0 maxTokens
  requireInt "token_count" args.tokenCount 0 maxTokens
  requireInt "reservation_id" args.reservationId 0 uint32Max
  requireAscii "authority" args.authority true
  requireAscii "reason" args.reason true
  args.checkAuthority
  args.checkFault
  args.checkReservationId
  raiseIf (args.operation.needsCount ∧ args.tokenCount = 0) "operation requires a positive token count"
  raiseIf (args.operation.excludesCount ∧ args.tokenCount ≠ 0) "operation cannot carry a token count"

/-- `AdapterTraceEvent`; `None` is the root before the first event, which is the empty string. -/
structure AdapterTraceEvent extends EventArgs where
  sequence : Nat
  stateBefore : AdapterState
  stateAfter : AdapterState
  previousEventRoot : Option Root

/-- `AdapterTraceEvent.__post_init__`. -/
def AdapterTraceEvent.validate (event : AdapterTraceEvent) : Check AdapterTraceEvent := do
  requireInt "sequence" event.sequence 0 uint32Max
  event.toEventArgs.check
  return event

section Roots

variable [Runtime]

/-- `limits_root`; the keys of canonical JSON are sorted. -/
def EaglegateAdapterLimits.limitsRoot (limits : EaglegateAdapterLimits) : Root :=
  canonicalRoot "adapter-limits" (dictJson [
    ("adapter_abi_version", natJson adapterAbiVersion),
    ("adapter_contract_id", textJson adapterContractId),
    ("deadline_budget_ticks", natJson limits.deadlineBudgetTicks),
    ("max_candidate_tokens", natJson limits.maxCandidateTokens),
    ("max_outstanding_reservations", natJson 1),
    ("max_trace_events", natJson limits.maxTraceEvents)])

def EaglegateAdapterRequest.requestRoot (request : EaglegateAdapterRequest) : Root :=
  canonicalRoot "adapter-request" (dictJson [
    ("adapter_abi_version", natJson adapterAbiVersion),
    ("adapter_contract_id", textJson adapterContractId),
    ("adapter_identity_root", rootJson request.adapterIdentityRoot),
    ("epoch_root", rootJson request.epochRoot),
    ("limits_root", rootJson request.limitsRoot),
    ("plan_root", rootJson request.planRoot),
    ("request_class_root", rootJson request.requestClassRoot),
    ("sequence_id", textJson adapterSequenceId)])

def AdapterTraceEvent.canonicalDict (event : AdapterTraceEvent) : Json :=
  dictJson [
    ("adapter_abi_version", natJson adapterAbiVersion),
    ("adapter_contract_id", textJson adapterContractId),
    ("authority", textJson event.authority),
    ("fault", textJson event.fault.value),
    ("operation", textJson event.operation.value),
    ("position", natJson event.position),
    ("previous_event_root", (event.previousEventRoot.map rootJson).getD (textJson "")),
    ("reason", textJson event.reason),
    ("reservation_id", natJson event.reservationId),
    ("sequence", natJson event.sequence),
    ("sequence_id", textJson adapterSequenceId),
    ("state_after", textJson event.stateAfter.value),
    ("state_before", textJson event.stateBefore.value),
    ("token_count", natJson event.tokenCount)]

/-- Each event is hashed with the root before it. -/
def AdapterTraceEvent.eventRoot (event : AdapterTraceEvent) : Root :=
  canonicalRoot "adapter-trace-event" event.canonicalDict

/-! ## Traces -/

/-- The events of a run, in a chain of roots. -/
structure EaglegateAdapterTrace where
  requestRoot : Root
  events : List AdapterTraceEvent

def EaglegateAdapterTrace.traceRoot (trace : EaglegateAdapterTrace) : Root :=
  canonicalRoot "adapter-trace" (dictJson [
    ("adapter_abi_version", natJson adapterAbiVersion),
    ("adapter_contract_id", textJson adapterContractId),
    ("event_count", natJson trace.events.length),
    ("events", .arr (trace.events.map AdapterTraceEvent.canonicalDict)),
    ("request_root", rootJson trace.requestRoot),
    ("sequence_id", textJson adapterSequenceId)])

/-- What `validate` keeps between events. -/
structure TraceCursor where
  sequence : Nat
  previousRoot : Option Root
  state : AdapterState
  activeReservation : Nat

def TraceCursor.start : TraceCursor := ⟨0, none, .new, 0⟩

/-- The reservation that is active after an event. -/
def checkReservation (active : Nat) (args : EventArgs) : Check Nat :=
  if args.operation = .reserve then do
    raiseIf (active ≠ 0) "adapter trace overlaps reservations"
    return args.reservationId
  else if args.operation.needsReservation then do
    raiseIf (active = 0 ∨ args.reservationId ≠ active) "adapter trace reservation identity mismatch"
    return if args.operation = .release then 0 else active
  else do
    raiseIf (active ≠ 0) "adapter trace leaves a reservation active"
    return active

/-- One event of a trace is checked. -/
def checkEvent (cursor : TraceCursor) (event : AdapterTraceEvent) : Check TraceCursor := do
  raiseIf (event.sequence ≠ cursor.sequence) "adapter trace sequence is not contiguous"
  raiseIf (event.previousEventRoot ≠ cursor.previousRoot) "adapter trace predecessor root mismatch"
  raiseIf (event.stateBefore ≠ cursor.state) "adapter trace state chain is not contiguous"
  raiseIf (allowedTransition cursor.state event.operation ≠ some event.stateAfter)
    "adapter trace contains an illegal transition"
  let active ← checkReservation cursor.activeReservation event.toEventArgs
  return ⟨cursor.sequence + 1, some event.eventRoot, event.stateAfter, active⟩

/-- `EaglegateAdapterTrace.__post_init__`. -/
def EaglegateAdapterTrace.validate (trace : EaglegateAdapterTrace) : Check EaglegateAdapterTrace := do
  raiseIf (trace.events = []) "adapter trace requires events"
  let cursor ← trace.events.foldlM checkEvent TraceCursor.start
  raiseIf (cursor.state ≠ .closed) "adapter trace must end closed"
  raiseIf (cursor.activeReservation ≠ 0) "adapter trace ends with an active reservation"
  return trace

/-! ## The builder -/

/-- The trace of a run so far. -/
structure AdapterTraceBuilder where
  requestRoot : Root
  maxEvents : Nat
  state : AdapterState
  events : List AdapterTraceEvent

/-- What `record` raises when there is no room for another event. -/
def boundExceeded : EaglegateError := .exactness "adapter trace event bound exceeded"

/-- Adds an event, if there is room and it may come next. -/
def AdapterTraceBuilder.record (builder : AdapterTraceBuilder) (args : EventArgs) :
    Check AdapterTraceBuilder := do
  if builder.maxEvents ≤ builder.events.length then .error boundExceeded
  else
    match allowedTransition builder.state args.operation with
    | none => .error (.exactness
        ("invalid adapter transition " ++ builder.state.value ++ "->" ++ args.operation.value))
    | some stateAfter =>
      let event ← AdapterTraceEvent.validate { args with
        sequence := builder.events.length
        stateBefore := builder.state
        stateAfter := stateAfter
        previousEventRoot := builder.events.getLast?.map AdapterTraceEvent.eventRoot }
      return { builder with events := builder.events ++ [event], state := stateAfter }

def AdapterTraceBuilder.finish (builder : AdapterTraceBuilder) : Check EaglegateAdapterTrace := do
  raiseIf (builder.state ≠ .closed) "adapter trace is not closed"
  EaglegateAdapterTrace.validate ⟨builder.requestRoot, builder.events⟩

end Roots

end Eaglegate
