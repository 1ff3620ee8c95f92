import Tds.Python.Json
import Tds.Python.PyDict

/-!
# Decoding with and without proposals

`exactness_common.py`: the validators that every Eaglegate class calls, and the roots of token sequences
and committed states. Arguments of another type than the source asks for are left out; a root is a
digest, so that no text has to be matched. `exactness_runtime.py`: the ledger that holds committed tokens
and reservations, the scripted proposer, and the two reference decoders. All of it is local to one call,
so that after an exception nothing of it is left to be seen.
-/

namespace Eaglegate

open Python

/-- What the laboratory raises. -/
inductive EaglegateError where
  /-- `EaglegateExactnessError`. -/
  | exactness (message : String)
  /-- `EaglegateProposerFailure`. -/
  | proposerFailure (message : String)
  /-- `EaglegateVerifierFailure`. -/
  | verifierFailure (message : String)
  /-- `EaglegateResourceExhausted`. -/
  | resourceExhausted (message : String)
  /-- Not an exception: a loop that has not ended. -/
  | diverges
deriving DecidableEq

abbrev Check := Except EaglegateError

/-- `raise EaglegateExactnessError(message)` if the condition holds. -/
def raiseIf (condition : Prop) [Decidable condition] (message : String) : Check Unit :=
  if condition then .error (.exactness message) else .ok ()

def maxTokens : Nat := 2 ^ 20

def maxEvents : Nat := 2 ^ 16

def uint32Max : Nat := 2 ^ 32 - 1

def uint63Max : Nat := 2 ^ 63 - 1

/-- `require_int` of an `int`. -/
def requireInt (name : String) (value : Int) (minimum maximum : Nat) : Check Unit :=
  raiseIf (value < minimum ∨ (maximum : Int) < value)
    (name ++ " must be between " ++ toString minimum ++ " and " ++ toString maximum)

/-- `require_ascii` of a `str`, without spaces. -/
def requireAscii (name value : String) (allowEmpty : Bool) : Check Unit := do
  raiseIf (value = "" ∧ allowEmpty = false) (name ++ " must be a string")
  raiseIf (value.toList.any (fun c => 0x7F < c.toNat)) (name ++ " must be ASCII")
  raiseIf (256 < value.toList.length ∨ value.toList.any (fun c => c.toNat < 0x21 ∨ 0x7E < c.toNat))
    (name ++ " must be printable ASCII")

/-- The tokens are within the bounds of the laboratory. -/
def checkTokens : List Int → Nat → Check Unit
  | [], _ => .ok ()
  | token :: tokens, index => do
    requireInt ("tokens[" ++ toString index ++ "]") token 0 uint32Max
    checkTokens tokens (index + 1)

/-- Tokens that are few and in range. -/
def normalizeTokens (tokens : List Int) : Check (List Int) := do
  raiseIf (maxTokens < tokens.length) "token count exceeds the laboratory bound"
  checkTokens tokens 0
  return tokens

/-! ## Roots -/

/-- A root; its text is `sha256:` and 64 hexadecimal digits. -/
abbrev Root := Digest

def rootText (root : Root) : Str := lit "sha256:" ++ root.hex

/-- A `str` in JSON. -/
def textJson (s : String) : Json := .str (lit s)

def rootJson (root : Root) : Json := .str (rootText root)

/-- An `int` in JSON. -/
def natJson (n : Nat) : Json := .int n

def dictJson (fields : List (String × Json)) : Json := .obj (fields.map fun f => (lit f.1, f.2))

/-- The octets of an unsigned number, the least significant one first. -/
def leBytes : Nat → Nat → Bytes
  | 0, _ => []
  | width + 1, n => UInt8.ofNat n :: leBytes width (n / 256)

section Roots

variable [Runtime]

/-- `EAGLEGATE_EXACTNESS_CONTRACT_ID`. -/
def exactnessContractId : String := "tds-eaglegate-exactness-v1"

def canonicalRoot (domain : String) (value : Json) : Root :=
  sha256 (encodeAscii (lit "STAQTAPP-TDS\x00EAGLEGATE-EXACTNESS\x00V1\x00") ++
    encodeAscii (lit domain) ++ [0] ++ encodeAscii value.print)

/-- `token_sequence_root` of normalized tokens. -/
def tokenSequenceRoot (tokens : List Int) : Root :=
  sha256 (encodeAscii (lit "STAQTAPP-TDS\x00EAGLEGATE-TOKENS\x00V1\x00") ++
    leBytes 8 tokens.length ++ tokens.flatMap fun token => leBytes 4 token.toNat)

/-- `committed_state_root` of normalized tokens. -/
def committedStateRoot (tokens : List Int) : Root :=
  canonicalRoot "committed-state" (dictJson [
    ("contract_id", textJson exactnessContractId),
    ("token_count", natJson tokens.length),
    ("token_sequence_root", rootJson (tokenSequenceRoot tokens))])

end Roots

def targetAuthority : String := "target-runtime"

/-! ## The observer ring -/

structure BoundedEvidenceRing where
  capacity : Nat
  events : List (String × Nat)
  published : Nat
  dropped : Nat

namespace BoundedEvidenceRing

def init (capacity : Int) : Check BoundedEvidenceRing := do
  requireInt "capacity" capacity 0 maxEvents
  return ⟨capacity.toNat, [], 0, 0⟩

/-- A full ring drops the new event. -/
def publish (ring : BoundedEvidenceRing) (kind : String) (count : Nat) : Check BoundedEvidenceRing := do
  requireAscii "event kind" kind false
  requireInt "event count" count 0 maxTokens
  if ring.capacity ≤ ring.events.length then
    return { ring with published := ring.published + 1, dropped := ring.dropped + 1 }
  else
    return { ring with published := ring.published + 1, events := ring.events ++ [(kind, count)] }

end BoundedEvidenceRing

/-! ## The ledger -/

/-- Committed tokens and open reservations. -/
structure ReferenceKVLedger where
  committed : List Int
  reservations : PyDict Nat Nat
  nextReservation : Nat
  commitAuthorities : List String

namespace ReferenceKVLedger

def init : ReferenceKVLedger := ⟨[], [], 1, []⟩

def outstandingReservations (ledger : ReferenceKVLedger) : Nat := ledger.reservations.length

def reserve (ledger : ReferenceKVLedger) (tokenSlots : Nat) : Check (Nat × ReferenceKVLedger) := do
  requireInt "token_slots" tokenSlots 1 maxTokens
  return (ledger.nextReservation, { ledger with
    nextReservation := ledger.nextReservation + 1
    reservations := ledger.reservations.set ledger.nextReservation tokenSlots })

/-- Gives a reservation back. -/
def release (ledger : ReferenceKVLedger) (reservationId : Nat) : Check ReferenceKVLedger := do
  raiseIf (ledger.reservations.get reservationId = none) "unknown speculative reservation"
  return { ledger with reservations := ledger.reservations.pop reservationId }

/-- Tokens are committed by the target only. -/
def commit (ledger : ReferenceKVLedger) (tokens : List Int) (authority : String) :
    Check ReferenceKVLedger := do
  let normalized ← normalizeTokens tokens
  raiseIf (authority ≠ targetAuthority) "only target-runtime may commit state"
  raiseIf (maxTokens < ledger.committed.length + normalized.length)
    "committed token count exceeds bound"
  return { ledger with
    committed := ledger.committed ++ normalized
    commitAuthorities := ledger.commitAuthorities ++ normalized.map fun _ => authority }

def allCommitsByTarget (ledger : ReferenceKVLedger) : Bool :=
  ledger.commitAuthorities.all (· = targetAuthority)

end ReferenceKVLedger

/-! ## Proposals -/

/-- The tokens are within the bounds of the laboratory. -/
def Normal (tokens : List Int) : Prop :=
  tokens.length ≤ maxTokens ∧ ∀ token ∈ tokens, 0 ≤ token ∧ token ≤ (uint32Max : Int)

/-- What a proposer is made of: its proposals were normalized when it was constructed. -/
structure Script where
  proposals : PyDict Nat (List Int)
  failAtPosition : Option Nat
  normal : ∀ position tokens, proposals.get position = some tokens → Normal tokens

/-- `self._proposals.get(position, ())`. -/
def Script.proposal (script : Script) (position : Nat) : List Int :=
  (script.proposals.get position).getD []

def Script.answer (script : Script) (position : Nat) : Check (List Int) :=
  if script.failAtPosition = some position then .error (.proposerFailure "injected proposer failure")
  else .ok (script.proposal position)

/-- `ScriptedProposer.propose`: its answer, and the number of its calls. -/
def Script.propose (script : Script) (callCount position : Nat) : Check (List Int) × Nat :=
  match requireInt "position" position 0 maxTokens with
  | .error e => (.error e, callCount)
  | .ok () => (script.answer position, callCount + 1)

/-- `tokens[start:stop]`. -/
def sliceTokens (tokens : List Int) (start stop : Nat) : List Int := (tokens.take stop).drop start

/-- How many tokens agree. -/
def matchedLength : List Int → List Int → Nat
  | proposed :: candidate, token :: target =>
    if proposed = token then matchedLength candidate target + 1 else 0
  | _, _ => 0

/-! ## The decoders -/

structure DecodeOutcome where
  path : String
  fallbackReason : String
  tokenCount : Nat
  tokenSequenceRoot : Root
  committedStateRoot : Root
  outstandingReservations : Nat
  proposerCalls : Nat
  observerEventsPublished : Nat
  observerEventsDropped : Nat
  targetOnlyContinuation : Bool
  cancelled : Bool
  allCommitsByTarget : Bool

/-- `DecodeOutcome.__post_init__`. -/
def DecodeOutcome.validate (outcome : DecodeOutcome) : Check DecodeOutcome := do
  requireAscii "path" outcome.path false
  requireAscii "fallback_reason" outcome.fallbackReason true
  requireInt "token_count" outcome.tokenCount 0 maxTokens
  requireInt "outstanding_reservations" outcome.outstandingReservations 0 uint63Max
  requireInt "proposer_calls" outcome.proposerCalls 0 uint63Max
  requireInt "observer_events_published" outcome.observerEventsPublished 0 uint63Max
  requireInt "observer_events_dropped" outcome.observerEventsDropped 0 uint63Max
  return outcome

/-- The boundary of a run, and whether its cancel position lies before the end. -/
def checkCancel (name : String) (target : List Int) (cancel : Option Int) : Check Nat := do
  match cancel with
  | none => return target.length
  | some position =>
    requireInt name position 0 target.length
    return position.toNat

/-- `cancel_after is not None and cancel_after < len(target)`. -/
def cancelsBefore (target : List Int) (cancel : Option Int) : Bool :=
  match cancel with
  | none => false
  | some position => position < target.length

section Decoders

variable [Runtime]

def finish (path fallbackReason : String) (ledger : ReferenceKVLedger) (proposerCalls : Nat)
    (ring : BoundedEvidenceRing) (targetOnlyContinuation cancelled : Bool) : Check DecodeOutcome :=
  DecodeOutcome.validate {
    path := path
    fallbackReason := fallbackReason
    tokenCount := ledger.committed.length
    tokenSequenceRoot := tokenSequenceRoot ledger.committed
    committedStateRoot := committedStateRoot ledger.committed
    outstandingReservations := ledger.outstandingReservations
    proposerCalls := proposerCalls
    observerEventsPublished := ring.published
    observerEventsDropped := ring.dropped
    targetOnlyContinuation := targetOnlyContinuation
    cancelled := cancelled
    allCommitsByTarget := ledger.allCommitsByTarget }

/-- The loop of `run_target_only`. -/
def commitEach : List Int → ReferenceKVLedger → BoundedEvidenceRing →
    Check (ReferenceKVLedger × BoundedEvidenceRing)
  | [], ledger, ring => .ok (ledger, ring)
  | token :: tokens, ledger, ring => do
    let ledger ← ledger.commit [token] targetAuthority
    let ring ← ring.publish "target_commit" 1
    commitEach tokens ledger ring

/-- `run_target_only`, and the ledger that it leaves. -/
def runTargetOnly (targetTokens : List Int) (cancelAfter : Option Int) (ringCapacity : Int) :
    Check (DecodeOutcome × ReferenceKVLedger) := do
  let target ← normalizeTokens targetTokens
  let boundary ← checkCancel "cancel_after" target cancelAfter
  let ring ← BoundedEvidenceRing.init ringCapacity
  let (ledger, ring) ← commitEach (target.take boundary) .init ring
  let outcome ← finish "target_only" "" ledger 0 ring false (cancelsBefore target cancelAfter)
  return (outcome, ledger)

/-- The variables of the loop of `run_speculative_reference`. -/
structure SpeculativeState where
  ledger : ReferenceKVLedger
  ring : BoundedEvidenceRing
  callCount : Nat
  position : Nat
  fallbackReason : String
  targetOnly : Bool

/-- Commits the tokens of the target that agree. -/
def commitMatched (target : List Int) (matched : Nat) (s : SpeculativeState) : Check SpeculativeState :=
  if matched = 0 then .ok s
  else do
    let ledger ← s.ledger.commit (sliceTokens target s.position (s.position + matched)) targetAuthority
    let ring ← s.ring.publish "verified_prefix" matched
    return { s with ledger := ledger, ring := ring, position := s.position + matched }

/-- The token of the target at the position is committed, which is before the end of the target. -/
def commitNext (target : List Int) (kind : String) (s : SpeculativeState) : Check SpeculativeState := do
  let ledger ← s.ledger.commit (sliceTokens target s.position (s.position + 1)) targetAuthority
  let ring ← s.ring.publish kind 1
  return { s with ledger := ledger, ring := ring, position := s.position + 1 }

/-- The `try` block: the part of the candidate that matches, and the token of the target where they
differ. -/
def verifyCandidate (target : List Int) (boundary : Nat) (candidate : List Int)
    (s : SpeculativeState) : Check SpeculativeState := do
  let ring ← s.ring.publish "proposal" candidate.length
  let matched := matchedLength candidate (target.drop s.position)
  let s ← commitMatched target matched { s with ring := ring }
  if s.position < boundary ∧ matched < candidate.length then commitNext target "target_correction" s
  else return s

/-- One pass of the loop of `run_speculative_reference`. -/
def speculativePass (target : List Int) (boundary : Nat) (script : Script) (s : SpeculativeState) :
    Check SpeculativeState :=
  if s.targetOnly then commitNext target "target_fallback_commit" s
  else
    match script.propose s.callCount s.position with
    | (.error _, callCount) => do
      let ring ← s.ring.publish "proposer_failure" 1
      return { s with
        ring := ring, callCount := callCount, fallbackReason := "proposer_failure", targetOnly := true }
    | (.ok [], callCount) =>
      .ok { s with callCount := callCount, fallbackReason := "empty_proposal", targetOnly := true }
    | (.ok candidate, callCount) => do
      let candidate := candidate.take (boundary - s.position)
      let (reservation, ledger) ← s.ledger.reserve candidate.length
      -- the reservation is released whatever happens, and an exception is raised again
      let s ← verifyCandidate target boundary candidate { s with ledger := ledger, callCount := callCount }
      let ledger ← s.ledger.release reservation
      let ring ← s.ring.publish "reservation_release" 1
      return { s with ledger := ledger, ring := ring }

/-- The loop of `run_speculative_reference`, for a number of passes. -/
def speculativeLoop (target : List Int) (boundary : Nat) (script : Script) :
    Nat → SpeculativeState → Check SpeculativeState
  | 0, s => if s.position < boundary then .error .diverges else .ok s
  | passes + 1, s =>
    if s.position < boundary then do
      let s ← speculativePass target boundary script s
      speculativeLoop target boundary script passes s
    else .ok s

/-- `run_speculative_reference`, and the ledger that it leaves, where the loop is given this number of
passes. -/
def runSpeculativeReference (passes : Nat) (targetTokens : List Int) (script : Script)
    (pinnedEpochRoot runtimeEpochRoot : Root) (cancelAfter : Option Int) (ringCapacity : Int) :
    Check (DecodeOutcome × ReferenceKVLedger) := do
  let target ← normalizeTokens targetTokens
  let boundary ← checkCancel "cancel_after" target cancelAfter
  let ring ← BoundedEvidenceRing.init ringCapacity
  let targetOnly := decide (pinnedEpochRoot ≠ runtimeEpochRoot)
  let s ← speculativeLoop target boundary script passes
    ⟨.init, ring, 0, 0, if targetOnly then "epoch_mismatch" else "", targetOnly⟩
  let outcome ← finish "speculative_reference" s.fallbackReason s.ledger s.callCount s.ring s.targetOnly
    (cancelsBefore target cancelAfter)
  return (outcome, s.ledger)

end Decoders

end Eaglegate
