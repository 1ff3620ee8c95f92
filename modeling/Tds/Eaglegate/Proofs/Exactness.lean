import Tds.Eaglegate.Exactness
import Tds.Python.Sha256
import Tds.Python.Raise

/-!
# Proposals do not change what is committed

The ledger of either decoder holds an initial part of the target. Every pass of the speculative loop
commits a token or gives up the proposer for good, so the loop ends with the tokens up to the boundary,
which are those of `run_target_only`.
-/

namespace Eaglegate

open Python List ReferenceKVLedger SpeculativeState

/-! ## Checks that pass -/

theorem raiseIf_neg {condition : Prop} [Decidable condition] (h : ¬ condition) (message : String) :
    raiseIf condition message = .ok () := if_neg h

theorem requireInt_ok (name : String) {value : Int} {minimum maximum : Nat}
    (hmin : (minimum : Int) ≤ value) (hmax : value ≤ (maximum : Int)) :
    requireInt name value minimum maximum = .ok () :=
  raiseIf_neg (by omega) _

variable {tokens : List Int}

theorem checkTokens_eq_ok_iff {index : Nat} :
    checkTokens tokens index = .ok () ↔ ∀ token ∈ tokens, 0 ≤ token ∧ token ≤ (uint32Max : Int) := by
  induction tokens generalizing index with
  | nil => simp [checkTokens]
  | cons token tokens ih =>
    have ih := @ih (index + 1)
    rw [checkTokens, forall_mem_cons, ← ih]
    unfold requireInt raiseIf
    split
    · next h => exact iff_of_false nofun fun h' => by omega
    · next h => rw [ok_bind]; exact (and_iff_right (by omega)).symm

theorem normalizeTokens_ok (h : Normal tokens) : normalizeTokens tokens = .ok tokens := by
  rw [normalizeTokens, raiseIf_neg (by have := h.1; omega), ok_bind, checkTokens_eq_ok_iff.mpr h.2, ok_bind]
  rfl

@[simp] theorem raiseIf_eq_ok {condition : Prop} [Decidable condition] {message : String} {u : Unit} :
    raiseIf condition message = .ok u ↔ ¬ condition := by
  unfold raiseIf
  split <;> simp [*]

/-- The computation raises no other exception than that of a check. -/
def OnlyRefuses {α : Type} (x : Check α) : Prop := ∀ e, x = .error e → ∃ message, e = .exactness message

namespace OnlyRefuses

theorem ok {α : Type} (a : α) : OnlyRefuses (.ok a) := fun _ h => absurd h (by simp)

theorem raiseIf (condition : Prop) [Decidable condition] (message : String) :
    OnlyRefuses (raiseIf condition message) := by
  intro e h
  unfold Eaglegate.raiseIf at h
  split at h
  · exact ⟨message, (Except.error.inj h).symm⟩
  · cases h

theorem bind {α β : Type} {x : Check α} {f : α → Check β} (hx : OnlyRefuses x)
    (hf : ∀ a, OnlyRefuses (f a)) : OnlyRefuses (x >>= f) := by
  intro e h
  rcases x with e' | a
  · cases h
    exact hx e rfl
  · exact hf a e h

theorem checkTokens (tokens : List Int) (index : Nat) : OnlyRefuses (checkTokens tokens index) := by
  induction tokens generalizing index with
  | nil => exact ok ()
  | cons token tokens ih => exact bind (raiseIf _ _) fun _ => ih (index + 1)

theorem normalizeTokens (tokens : List Int) : OnlyRefuses (normalizeTokens tokens) :=
  bind (raiseIf _ _) fun _ => bind (checkTokens _ _) fun _ => ok _

theorem checkCancel (name : String) (target : List Int) (cancel : Option Int) :
    OnlyRefuses (checkCancel name target cancel) := by
  cases cancel with
  | none => exact ok _
  | some position => exact bind (raiseIf _ _) fun _ => ok _

end OnlyRefuses

theorem normalizeTokens_eq_ok {target : List Int} :
    normalizeTokens tokens = .ok target ↔ tokens = target ∧ Normal target := by
  constructor
  · intro h
    simp only [normalizeTokens, bind_eq_ok, raiseIf_eq_ok, exists_unit, checkTokens_eq_ok_iff] at h
    obtain ⟨hlength, htokens, h⟩ := h
    cases h
    exact ⟨rfl, Nat.le_of_not_lt hlength, htokens⟩
  · rintro ⟨rfl, h⟩
    exact normalizeTokens_ok h

theorem Normal.slice (h : Normal tokens) (start stop : Nat) :
    Normal (sliceTokens tokens start stop) := by
  constructor
  · have := h.1
    simp only [sliceTokens, length_drop, length_take]
    omega
  · intro token htoken
    exact h.2 token (mem_of_mem_take (mem_of_mem_drop htoken))

theorem Script.normal_proposal (script : Script) (position : Nat) : Normal (script.proposal position) := by
  rw [Script.proposal]
  rcases hget : script.proposals.get position with _ | tokens
  · exact ⟨Nat.zero_le _, by simp⟩
  · exact script.normal position tokens hget

/-! ## The ledger -/

/-- The ledger holds the first `position` tokens of the target, all committed by the target. -/
structure ReferenceKVLedger.Holds (ledger : ReferenceKVLedger) (target : List Int) (position : Nat) :
    Prop where
  committed : ledger.committed = target.take position
  le : position ≤ target.length
  authorities : ledger.commitAuthorities = List.replicate position targetAuthority

namespace ReferenceKVLedger

variable {ledger : ReferenceKVLedger} {target : List Int} {position : Nat}

theorem holds_init (target : List Int) : init.Holds target 0 := ⟨rfl, Nat.zero_le _, rfl⟩

theorem Holds.length_committed (h : ledger.Holds target position) :
    ledger.committed.length = position := by
  rw [h.committed, length_take, Nat.min_eq_left h.le]

theorem Holds.commit (h : ledger.Holds target position) (hnormal : Normal target) {stop : Nat}
    (hstart : position ≤ stop) (hstop : stop ≤ target.length) :
    ∃ ledger', ledger.commit (sliceTokens target position stop) targetAuthority = .ok ledger' ∧
      ledger'.Holds target stop ∧ ledger'.reservations = ledger.reservations ∧
      ledger'.nextReservation = ledger.nextReservation := by
  have hlength : ledger.committed.length + (sliceTokens target position stop).length = stop := by
    rw [h.length_committed, sliceTokens, length_drop, length_take]
    omega
  have hbound := hnormal.1
  refine ⟨{ ledger with
    committed := ledger.committed ++ sliceTokens target position stop
    commitAuthorities := ledger.commitAuthorities ++
      (sliceTokens target position stop).map fun _ => targetAuthority }, ?_, ⟨?_, hstop, ?_⟩, rfl, rfl⟩
  · rw [ReferenceKVLedger.commit, normalizeTokens_ok (hnormal.slice position stop), ok_bind,
      raiseIf_neg (by simp), ok_bind, raiseIf_neg (by omega), ok_bind]
    rfl
  · show ledger.committed ++ (target.take stop).drop position = target.take stop
    have hbefore : ledger.committed = (target.take stop).take position := by
      rw [h.committed, take_take, Nat.min_eq_left hstart]
    rw [hbefore, take_append_drop]
  · have hcount : (sliceTokens target position stop).length = stop - position := by
      rw [h.length_committed] at hlength
      omega
    show ledger.commitAuthorities ++ _ = replicate stop targetAuthority
    rw [h.authorities, map_const', hcount, replicate_append_replicate,
      Nat.add_sub_of_le hstart]

theorem Holds.allCommitsByTarget (h : ledger.Holds target position) : ledger.allCommitsByTarget = true := by
  rw [ReferenceKVLedger.allCommitsByTarget, h.authorities]
  simp

theorem reserve_ok {slots : Nat} (hmin : 1 ≤ slots) (hmax : slots ≤ maxTokens) :
    ledger.reserve slots = .ok (ledger.nextReservation, { ledger with
      nextReservation := ledger.nextReservation + 1
      reservations := ledger.reservations.set ledger.nextReservation slots }) := by
  rw [reserve, requireInt_ok _ (by omega) (by omega), ok_bind]
  rfl

theorem release_ok {id slots : Nat} (h : ledger.reservations = [(id, slots)]) :
    ledger.release id = .ok { ledger with reservations := [] } := by
  have hget : ¬ ledger.reservations.get id = none := by simp [h, PyDict.get]
  rw [release, raiseIf_neg hget, ok_bind, h]
  simp [PyDict.pop]

end ReferenceKVLedger

/-! ## The ring -/

theorem BoundedEvidenceRing.publish_ok (ring : BoundedEvidenceRing) {kind : String} {count : Nat}
    (hkind : requireAscii "event kind" kind false = .ok ()) (hcount : count ≤ maxTokens) :
    ∃ ring', ring.publish kind count = .ok ring' ∧ ring'.published = ring.published + 1 ∧
      ring'.dropped ≤ ring.dropped + 1 := by
  rw [publish, hkind, ok_bind, requireInt_ok _ (by omega) (by omega), ok_bind]
  split
  · exact ⟨_, rfl, rfl, Nat.le_refl _⟩
  · exact ⟨_, rfl, rfl, Nat.le_succ _⟩

/-! ## The speculative loop -/

theorem matchedLength_le (candidate target : List Int) :
    matchedLength candidate target ≤ candidate.length ∧ matchedLength candidate target ≤ target.length := by
  induction candidate generalizing target with
  | nil => simp [matchedLength]
  | cons proposed candidate ih =>
    cases target with
    | nil => simp [matchedLength]
    | cons token target =>
      have := ih target
      simp only [matchedLength, length_cons]
      split <;> omega

structure SpeculativeState.Sound (target : List Int) (boundary passes : Nat) (s : SpeculativeState) :
    Prop where
  holds : s.ledger.Holds target s.position
  le : s.position ≤ boundary
  released : s.ledger.reservations = []
  published : s.ring.published ≤ 4 * passes
  dropped : s.ring.dropped ≤ s.ring.published
  calls : s.callCount ≤ passes
  reason : requireAscii "fallback_reason" s.fallbackReason true = .ok ()

def SpeculativeState.passesLeft (boundary : Nat) (s : SpeculativeState) : Nat :=
  boundary - s.position + if s.targetOnly then 0 else 1

variable {target : List Int} {boundary passes : Nat} {s : SpeculativeState}

theorem commitNext_ok (hnormal : Normal target) {kind : String}
    (hkind : requireAscii "event kind" kind false = .ok ()) (hholds : s.ledger.Holds target s.position)
    (hposition : s.position < target.length) :
    ∃ ledger ring, commitNext target kind s = .ok { s with
        ledger := ledger, ring := ring, position := s.position + 1 } ∧
      ledger.Holds target (s.position + 1) ∧ ledger.reservations = s.ledger.reservations ∧
      ring.published = s.ring.published + 1 ∧ ring.dropped ≤ s.ring.dropped + 1 := by
  obtain ⟨ledger, hcommit, hledger, hreservations, -⟩ :=
    hholds.commit hnormal (Nat.le_succ s.position) hposition
  obtain ⟨ring, hpublish, hpublished, hdropped⟩ :=
    s.ring.publish_ok hkind (show 1 ≤ maxTokens by decide)
  refine ⟨ledger, ring, ?_, hledger, hreservations, hpublished, hdropped⟩
  rw [commitNext, hcommit, ok_bind, hpublish, ok_bind]
  rfl

theorem commitMatched_ok (hnormal : Normal target) (hholds : s.ledger.Holds target s.position)
    {matched : Nat} (hmatched : s.position + matched ≤ target.length) :
    ∃ ledger ring, commitMatched target matched s = .ok { s with
        ledger := ledger, ring := ring, position := s.position + matched } ∧
      ledger.Holds target (s.position + matched) ∧ ledger.reservations = s.ledger.reservations ∧
      s.ring.published ≤ ring.published ∧ ring.published ≤ s.ring.published + 1 ∧
      ring.dropped + s.ring.published ≤ s.ring.dropped + ring.published := by
  rcases Nat.eq_zero_or_pos matched with rfl | hpos
  · exact ⟨s.ledger, s.ring, rfl, hholds, rfl, by omega, by omega, by omega⟩
  · have hbound := hnormal.1
    obtain ⟨ledger, hcommit, hledger, hreservations, -⟩ :=
      hholds.commit hnormal (Nat.le_add_right s.position matched) hmatched
    obtain ⟨ring, hpublish, hpublished, hdropped⟩ := s.ring.publish_ok
      (show requireAscii "event kind" "verified_prefix" false = .ok () by decide)
      (show matched ≤ maxTokens by omega)
    refine ⟨ledger, ring, ?_, hledger, hreservations, by omega, by omega, by omega⟩
    rw [commitMatched, if_neg (by omega), hcommit, ok_bind, hpublish, ok_bind]
    rfl

theorem verifyCandidate_ok (hnormal : Normal target) (hboundary : boundary ≤ target.length)
    {candidate : List Int} (hcandidate : candidate ≠ [])
    (hlength : s.position + candidate.length ≤ boundary)
    (hholds : s.ledger.Holds target s.position) :
    ∃ ledger ring position, verifyCandidate target boundary candidate s = .ok { s with
        ledger := ledger, ring := ring, position := position } ∧
      ledger.Holds target position ∧ s.position < position ∧ position ≤ boundary ∧
      ledger.reservations = s.ledger.reservations ∧
      s.ring.published ≤ ring.published ∧ ring.published ≤ s.ring.published + 3 ∧
      ring.dropped + s.ring.published ≤ s.ring.dropped + ring.published := by
  have hpos : 0 < candidate.length := length_pos_iff.2 hcandidate
  have hbound := hnormal.1
  obtain ⟨ring, hpublish, hpublished, hdropped⟩ := s.ring.publish_ok
    (show requireAscii "event kind" "proposal" false = .ok () by decide)
    (show candidate.length ≤ maxTokens by omega)
  have hmatched := matchedLength_le candidate (target.drop s.position)
  generalize hm : matchedLength candidate (target.drop s.position) = matched at hmatched
  obtain ⟨ledger, ring', hcommit, hledger, hreservations, hle, hle', hdropped'⟩ :=
    commitMatched_ok (s := { s with ring := ring }) hnormal hholds
      (show s.position + matched ≤ target.length by omega)
  simp only at hcommit hledger hreservations hle hle' hdropped'
  rw [verifyCandidate, hpublish, ok_bind]
  simp only [hm, hcommit, ok_bind]
  by_cases hnext : s.position + matched < boundary ∧ matched < candidate.length
  · obtain ⟨ledger', ring'', hnext', hledger', hreservations', hpublished', hdropped''⟩ :=
      commitNext_ok (s := { s with ledger := ledger, ring := ring', position := s.position + matched })
        hnormal (show requireAscii "event kind" "target_correction" false = .ok () by decide) hledger
        (show s.position + matched < target.length by omega)
    simp only at hnext' hledger' hreservations' hpublished' hdropped''
    rw [if_pos hnext, hnext']
    exact ⟨ledger', ring'', s.position + matched + 1, rfl, hledger', by omega, by omega,
      hreservations'.trans hreservations, by omega, by omega, by omega⟩
  · rw [if_neg hnext]
    exact ⟨ledger, ring', s.position + matched, rfl, hledger, by omega, by omega, hreservations,
      by omega, by omega, by omega⟩

theorem SpeculativeState.Sound.pass (hnormal : Normal target) (hboundary : boundary ≤ target.length)
    (script : Script) (hs : s.Sound target boundary passes) (hposition : s.position < boundary) :
    ∃ s', speculativePass target boundary script s = .ok s' ∧
      s'.Sound target boundary (passes + 1) ∧ s'.passesLeft boundary < s.passesLeft boundary := by
  obtain ⟨hholds, hle, hreleased, hpublished, hdropped, hcalls, hreason⟩ := hs
  have hbound := hnormal.1
  by_cases honly : s.targetOnly = true
  · obtain ⟨ledger, ring, hnext, hledger, hreservations, hpublished', hdropped'⟩ :=
      commitNext_ok (s := s) hnormal
        (show requireAscii "event kind" "target_fallback_commit" false = .ok () by decide) hholds
        (show s.position < target.length by omega)
    refine ⟨_, by rw [speculativePass, if_pos honly, hnext], ?_, ?_⟩
    · exact ⟨hledger, hposition, hreservations.trans hreleased, by simp only; omega, by simp only; omega,
        by simp only; omega, hreason⟩
    · simp only [passesLeft, honly]
      omega
  have hpropose : script.propose s.callCount s.position = (script.answer s.position, s.callCount + 1) := by
    rw [Script.propose, requireInt_ok _ (by omega) (by omega)]
  rw [speculativePass, if_neg honly, hpropose]
  rcases hanswer : script.answer s.position with e | candidate
  · -- the proposer fails
    obtain ⟨ring, hpublish, hpublished', hdropped'⟩ := s.ring.publish_ok
      (show requireAscii "event kind" "proposer_failure" false = .ok () by decide)
      (show 1 ≤ maxTokens by decide)
    refine ⟨_, by simp only [hpublish, ok_bind]; rfl, ?_, ?_⟩
    · exact ⟨hholds, hle, hreleased, by simp only; omega, by simp only; omega, by simp only; omega,
        show requireAscii _ "proposer_failure" true = .ok () by decide⟩
    · simp only [passesLeft, honly]
      simp
  cases candidate with
  | nil =>
    refine ⟨_, rfl, ⟨hholds, hle, hreleased, by simp only; omega, hdropped, by simp only; omega,
      show requireAscii _ "empty_proposal" true = .ok () by decide⟩, ?_⟩
    simp only [passesLeft, honly]
    simp
  | cons token tokens =>
    -- the tokens are reserved, verified and released
    have hlength : 1 ≤ ((token :: tokens).take (boundary - s.position)).length := by
      rw [length_take, length_cons]
      omega
    have hlength' : ((token :: tokens).take (boundary - s.position)).length ≤ boundary - s.position :=
      length_take_le _ _
    dsimp only
    generalize (token :: tokens).take (boundary - s.position) = candidate at hlength hlength' ⊢
    simp only [reserve_ok hlength (show candidate.length ≤ maxTokens by omega), ok_bind,
      hreleased]
    obtain ⟨ledger, ring, position, hverify, hledger, hlt, hle', hreservations, hge, hle'', hdropped'⟩ :=
      verifyCandidate_ok (s := { s with
          ledger := { s.ledger with
            nextReservation := s.ledger.nextReservation + 1
            reservations := PyDict.set [] s.ledger.nextReservation candidate.length }
          callCount := s.callCount + 1 }) hnormal hboundary (length_pos_iff.1 hlength)
        (show s.position + candidate.length ≤ boundary by omega)
        ⟨hholds.committed, hholds.le, hholds.authorities⟩
    simp only at hverify hlt hreservations hge hle'' hdropped'
    obtain ⟨ring', hpublish, hpublished', hdropped''⟩ := ring.publish_ok
      (show requireAscii "event kind" "reservation_release" false = .ok () by decide)
      (show 1 ≤ maxTokens by decide)
    refine ⟨_, by
      simp only [hverify, ok_bind, release_ok hreservations, hpublish]; rfl, ?_, ?_⟩
    · exact ⟨⟨hledger.committed, hledger.le, hledger.authorities⟩, hle', rfl, by simp only; omega,
        by simp only; omega, by simp only; omega, hreason⟩
    · simp only [passesLeft]
      omega

theorem SpeculativeState.Sound.mono (hs : s.Sound target boundary passes) {passes' : Nat}
    (hle : passes ≤ passes') : s.Sound target boundary passes' := by
  obtain ⟨hholds, hposition, hreleased, hpublished, hdropped, hcalls, hreason⟩ := hs
  exact ⟨hholds, hposition, hreleased, by omega, hdropped, by omega, hreason⟩

theorem speculativeLoop_ok (hnormal : Normal target) (hboundary : boundary ≤ target.length)
    (script : Script) (fuel : Nat) (hs : s.Sound target boundary passes)
    (hfuel : s.passesLeft boundary ≤ fuel) :
    ∃ s', speculativeLoop target boundary script fuel s = .ok s' ∧
      s'.Sound target boundary (passes + s.passesLeft boundary) ∧ s'.position = boundary := by
  induction fuel generalizing s passes with
  | zero =>
    have hposition : ¬ s.position < boundary := by
      simp only [passesLeft] at hfuel
      omega
    exact ⟨s, by rw [speculativeLoop, if_neg hposition], hs.mono (by omega), by have := hs.le; omega⟩
  | succ fuel ih =>
    rw [speculativeLoop]
    by_cases hposition : s.position < boundary
    · obtain ⟨s', hpass, hs', hleft⟩ := hs.pass hnormal hboundary script hposition
      obtain ⟨s'', hloop, hs'', hend⟩ := ih hs' (by omega)
      rw [if_pos hposition, hpass, ok_bind]
      exact ⟨s'', hloop, hs''.mono (by omega), hend⟩
    · rw [if_neg hposition]
      exact ⟨s, rfl, hs.mono (by omega), by have := hs.le; omega⟩

/-! ## The decoders -/

theorem commitEach_ok (hnormal : Normal target) {position : Nat} {ledger : ReferenceKVLedger}
    (ring : BoundedEvidenceRing) (hholds : ledger.Holds target position) (hle : position ≤ boundary)
    (hboundary : boundary ≤ target.length) :
    ∃ ledger' ring', commitEach ((target.take boundary).drop position) ledger ring = .ok (ledger', ring') ∧
      ledger'.Holds target boundary ∧ ledger'.reservations = ledger.reservations ∧
      ring'.published = ring.published + (boundary - position) ∧
      ring'.dropped ≤ ring.dropped + (boundary - position) := by
  induction hcount : boundary - position generalizing position ledger ring with
  | zero =>
    obtain rfl : position = boundary := by omega
    refine ⟨ledger, ring, ?_, hholds, rfl, rfl, Nat.le_refl _⟩
    rw [drop_eq_nil_of_le (length_take_le _ _)]
    rfl
  | succ count ih =>
    obtain ⟨ledger₁, hcommit, hledger₁, hreservations₁, -⟩ :=
      hholds.commit hnormal (Nat.le_succ position) (show position + 1 ≤ target.length by omega)
    obtain ⟨ring₁, hpublish, hpublished₁, hdropped₁⟩ := ring.publish_ok
      (show requireAscii "event kind" "target_commit" false = .ok () by decide)
      (show 1 ≤ maxTokens by decide)
    obtain ⟨ledger', ring', heach, hledger', hreservations', hpublished', hdropped'⟩ :=
      ih ring₁ hledger₁ (by omega) (by omega)
    refine ⟨ledger', ring', ?_, hledger', hreservations'.trans hreservations₁, by omega, by omega⟩
    have hlt : position < (target.take boundary).length := by
      rw [length_take]
      omega
    have hslice : sliceTokens target position (position + 1) = [(target.take boundary)[position]] := by
      rw [sliceTokens, take_add_one, drop_append_of_le_length (by simp; omega),
        drop_eq_nil_of_le (length_take_le _ _), nil_append,
        getElem?_eq_getElem (by omega), getElem_take]
      rfl
    rw [drop_eq_getElem_cons hlt, commitEach, ← hslice, hcommit, ok_bind, hpublish, ok_bind, heach]

section

variable [Runtime]

theorem finish_ok {path reason : String} {ledger : ReferenceKVLedger} {calls : Nat}
    {ring : BoundedEvidenceRing} {targetOnly cancelled : Bool}
    (hpath : requireAscii "path" path false = .ok ())
    (hreason : requireAscii "fallback_reason" reason true = .ok ())
    (htokens : ledger.committed.length ≤ maxTokens) (hreservations : ledger.reservations = [])
    (hcalls : calls ≤ uint63Max) (hpublished : ring.published ≤ uint63Max)
    (hdropped : ring.dropped ≤ uint63Max) :
    finish path reason ledger calls ring targetOnly cancelled = .ok {
      path := path
      fallbackReason := reason
      tokenCount := ledger.committed.length
      tokenSequenceRoot := tokenSequenceRoot ledger.committed
      committedStateRoot := committedStateRoot ledger.committed
      outstandingReservations := 0
      proposerCalls := calls
      observerEventsPublished := ring.published
      observerEventsDropped := ring.dropped
      targetOnlyContinuation := targetOnly
      cancelled := cancelled
      allCommitsByTarget := ledger.allCommitsByTarget } := by
  have hnone : ledger.outstandingReservations = 0 := by
    rw [outstandingReservations, hreservations]
    rfl
  rw [finish, DecodeOutcome.validate]
  simp only [hpath, hreason, hnone, ok_bind, requireInt_ok _ (Nat.cast_nonneg _) (Nat.cast_le.2 htokens),
    requireInt_ok _ (Nat.cast_nonneg _) (Nat.cast_le.2 (Nat.zero_le uint63Max)),
    requireInt_ok _ (Nat.cast_nonneg _) (Nat.cast_le.2 hcalls),
    requireInt_ok _ (Nat.cast_nonneg _) (Nat.cast_le.2 hpublished),
    requireInt_ok _ (Nat.cast_nonneg _) (Nat.cast_le.2 hdropped)]
  rfl

omit [Runtime] in
theorem checkCancel_le {name : String} {cancel : Option Int}
    (h : checkCancel name target cancel = .ok boundary) : boundary ≤ target.length := by
  cases cancel with
  | none =>
    cases h
    exact Nat.le_refl _
  | some position =>
    simp only [checkCancel, requireInt, bind_eq_ok, raiseIf_eq_ok, exists_unit] at h
    obtain ⟨hbounds, h⟩ := h
    cases h
    omega

omit [Runtime] in
theorem BoundedEvidenceRing.init_eq_ok {capacity : Int} {ring : BoundedEvidenceRing}
    (h : BoundedEvidenceRing.init capacity = .ok ring) : ring.published = 0 ∧ ring.dropped = 0 := by
  simp only [BoundedEvidenceRing.init, bind_eq_ok, exists_unit] at h
  obtain ⟨-, h⟩ := h
  cases h
  exact ⟨rfl, rfl⟩

/-- What a decoder leaves: the first tokens of the target, without a reservation. -/
structure Decoded (target : List Int) (boundary : Nat) (outcome : DecodeOutcome)
    (ledger : ReferenceKVLedger) : Prop where
  committed : ledger.committed = target.take boundary
  reservations : ledger.reservations = []
  tokenCount : outcome.tokenCount = ledger.committed.length
  tokenSequenceRoot : outcome.tokenSequenceRoot = Eaglegate.tokenSequenceRoot ledger.committed
  committedStateRoot : outcome.committedStateRoot = Eaglegate.committedStateRoot ledger.committed
  outstandingReservations : outcome.outstandingReservations = 0

variable {targetTokens : List Int} {cancelAfter : Option Int} {ringCapacity : Int}
  {ring : BoundedEvidenceRing}

theorem runTargetOnly_ok (htarget : normalizeTokens targetTokens = .ok target)
    (hboundary : checkCancel "cancel_after" target cancelAfter = .ok boundary)
    (hring : BoundedEvidenceRing.init ringCapacity = .ok ring) :
    ∃ outcome ledger, runTargetOnly targetTokens cancelAfter ringCapacity = .ok (outcome, ledger) ∧
      Decoded target boundary outcome ledger := by
  obtain ⟨-, hnormal⟩ := normalizeTokens_eq_ok.1 htarget
  obtain ⟨hpublished, hdropped⟩ := BoundedEvidenceRing.init_eq_ok hring
  have hle := checkCancel_le hboundary
  have hbound : boundary ≤ maxTokens := Nat.le_trans hle hnormal.1
  obtain ⟨ledger, ring', heach, hledger, hreservations, hpublished', hdropped'⟩ :=
    commitEach_ok hnormal ring (holds_init target) (Nat.zero_le boundary) hle
  have hcount := hledger.length_committed
  have hmax : maxTokens ≤ uint63Max := by decide
  rw [runTargetOnly, htarget, ok_bind, hboundary, ok_bind, hring, ok_bind]
  simp only [drop_zero] at heach
  simp only [heach, ok_bind]
  rw [finish_ok (by decide) (by decide) (by omega) hreservations (by decide) (by omega) (by omega), ok_bind]
  exact ⟨_, _, rfl, hledger.committed, hreservations, rfl, rfl, rfl, rfl⟩

theorem runSpeculativeReference_ok (htarget : normalizeTokens targetTokens = .ok target)
    (hboundary : checkCancel "cancel_after" target cancelAfter = .ok boundary)
    (hring : BoundedEvidenceRing.init ringCapacity = .ok ring) (script : Script)
    (pinnedEpochRoot runtimeEpochRoot : Root) (hpasses : target.length < passes) :
    ∃ outcome ledger, runSpeculativeReference passes targetTokens script pinnedEpochRoot runtimeEpochRoot
        cancelAfter ringCapacity = .ok (outcome, ledger) ∧ Decoded target boundary outcome ledger := by
  obtain ⟨-, hnormal⟩ := normalizeTokens_eq_ok.1 htarget
  obtain ⟨hpublished, hdropped⟩ := BoundedEvidenceRing.init_eq_ok hring
  have hle := checkCancel_le hboundary
  have hbound := hnormal.1
  have hmax : 4 * (maxTokens + 1) ≤ uint63Max := by decide
  rw [runSpeculativeReference, htarget, ok_bind, hboundary, ok_bind, hring, ok_bind]
  simp only
  generalize decide (pinnedEpochRoot ≠ runtimeEpochRoot) = targetOnly
  have hreason : requireAscii "fallback_reason" (if targetOnly then "epoch_mismatch" else "") true
      = .ok () := by
    cases targetOnly <;> decide
  generalize (if targetOnly then "epoch_mismatch" else "") = reason at hreason ⊢
  have hsound : (⟨.init, ring, 0, 0, reason, targetOnly⟩ : SpeculativeState).Sound target boundary 0 :=
    ⟨holds_init target, Nat.zero_le _, rfl, by simp only; omega, by simp only; omega,
      Nat.le_refl _, hreason⟩
  have hleft : (⟨.init, ring, 0, 0, reason, targetOnly⟩ : SpeculativeState).passesLeft boundary
      ≤ boundary + 1 := by
    simp only [passesLeft]
    split <;> omega
  obtain ⟨s, hloop, hs, hposition⟩ := speculativeLoop_ok hnormal hle script passes hsound (by omega)
  obtain ⟨hholds, -, hreleased, hpublished', hdropped', hcalls, hreason'⟩ := hs
  have hcount := hholds.length_committed
  rw [hloop, ok_bind, finish_ok (by decide) hreason' (by omega) hreleased (by omega) (by omega) (by omega),
    ok_bind]
  exact ⟨_, _, rfl, hposition ▸ hholds.committed, hreleased, rfl, rfl, rfl, rfl⟩

theorem decoded_of_runTargetOnly {expected : DecodeOutcome} {ledger : ReferenceKVLedger}
    (hboundary : checkCancel "cancel_after" targetTokens cancelAfter = .ok boundary)
    (h : runTargetOnly targetTokens cancelAfter ringCapacity = .ok (expected, ledger)) :
    Decoded targetTokens boundary expected ledger := by
  have hchecks := h
  simp only [runTargetOnly, bind_eq_ok] at hchecks
  obtain ⟨target, htarget, _, -, ring, hring, -⟩ := hchecks
  obtain ⟨rfl, -⟩ := normalizeTokens_eq_ok.1 htarget
  obtain ⟨outcome, ledger', hrun, hdecoded⟩ := runTargetOnly_ok htarget hboundary hring
  cases h.symm.trans hrun
  exact hdecoded

/-- The arguments of a decoder are checked, and it is the checks that raise. -/
theorem run_cases (cancelAfter : Option Int) (ringCapacity : Int) (script : Script) (pinnedEpochRoot runtimeEpochRoot : Root)
    (hpasses : targetTokens.length < passes) :
    (∃ message, runTargetOnly targetTokens cancelAfter ringCapacity = .error (.exactness message) ∧
      runSpeculativeReference passes targetTokens script pinnedEpochRoot runtimeEpochRoot cancelAfter
        ringCapacity = .error (.exactness message)) ∨
    ∃ boundary expected expectedLedger outcome ledger,
      checkCancel "cancel_after" targetTokens cancelAfter = .ok boundary ∧
      runTargetOnly targetTokens cancelAfter ringCapacity = .ok (expected, expectedLedger) ∧
      Decoded targetTokens boundary expected expectedLedger ∧
      runSpeculativeReference passes targetTokens script pinnedEpochRoot runtimeEpochRoot cancelAfter
        ringCapacity = .ok (outcome, ledger) ∧
      Decoded targetTokens boundary outcome ledger := by
  rcases htarget : normalizeTokens targetTokens with e | target
  · obtain ⟨message, rfl⟩ := OnlyRefuses.normalizeTokens _ _ htarget
    left
    refine ⟨message, ?_, ?_⟩
    · rw [runTargetOnly, htarget, error_bind]
    · rw [runSpeculativeReference, htarget, error_bind]
  obtain ⟨rfl, hnormal⟩ := normalizeTokens_eq_ok.1 htarget
  rcases hboundary : checkCancel "cancel_after" targetTokens cancelAfter with e | boundary
  · obtain ⟨message, rfl⟩ := OnlyRefuses.checkCancel _ _ _ _ hboundary
    left
    refine ⟨message, ?_, ?_⟩
    · rw [runTargetOnly, htarget, ok_bind, hboundary, error_bind]
    · rw [runSpeculativeReference, htarget, ok_bind, hboundary, error_bind]
  rcases hring : BoundedEvidenceRing.init ringCapacity with e | ring
  · obtain ⟨message, rfl⟩ : ∃ message, e = .exactness message :=
      (OnlyRefuses.raiseIf _ _).bind (fun _ => .ok _) e hring
    left
    refine ⟨message, ?_, ?_⟩
    · rw [runTargetOnly, htarget, ok_bind, hboundary, ok_bind, hring, error_bind]
    · rw [runSpeculativeReference, htarget, ok_bind, hboundary, ok_bind, hring, error_bind]
  obtain ⟨expected, expectedLedger, honly, hexpected⟩ := runTargetOnly_ok htarget hboundary hring
  obtain ⟨outcome, ledger, hspeculative, houtcome⟩ :=
    runSpeculativeReference_ok htarget hboundary hring script pinnedEpochRoot runtimeEpochRoot hpasses
  exact .inr ⟨boundary, expected, expectedLedger, outcome, ledger, rfl, honly, hexpected, hspeculative,
    houtcome⟩

/-- **The speculative decoder is exact.** With more passes than tokens it does not diverge; it raises
what the target alone raises; and where both return, they commit the same tokens, with the same roots,
and no reservation is outstanding. -/
theorem runSpeculativeReference_exact (targetTokens : List Int) (script : Script)
    (pinnedEpochRoot runtimeEpochRoot : Root) (cancelAfter : Option Int) (ringCapacity : Int)
    (passes : Nat) (hpasses : targetTokens.length < passes) :
    (runSpeculativeReference passes targetTokens script pinnedEpochRoot runtimeEpochRoot cancelAfter
      ringCapacity ≠ .error .diverges) ∧
    (∀ e, runSpeculativeReference passes targetTokens script pinnedEpochRoot runtimeEpochRoot cancelAfter
        ringCapacity = .error e ↔ runTargetOnly targetTokens cancelAfter ringCapacity = .error e) ∧
    ∀ outcome ledger, runSpeculativeReference passes targetTokens script pinnedEpochRoot runtimeEpochRoot
        cancelAfter ringCapacity = .ok (outcome, ledger) →
      ledger.reservations = [] ∧ outcome.outstandingReservations = 0 ∧
      ∀ otherCapacity expected expectedLedger,
        runTargetOnly targetTokens cancelAfter otherCapacity = .ok (expected, expectedLedger) →
        ledger.committed = expectedLedger.committed ∧ outcome.tokenCount = expected.tokenCount ∧
        outcome.tokenSequenceRoot = expected.tokenSequenceRoot ∧
        outcome.committedStateRoot = expected.committedStateRoot := by
  rcases run_cases cancelAfter ringCapacity script pinnedEpochRoot runtimeEpochRoot hpasses with
    ⟨message, honly, hspeculative⟩ | ⟨boundary, _, _, outcome, ledger, hboundary, honly, _, hspeculative, hdecoded⟩
  · rw [honly, hspeculative]
    exact ⟨by simp, fun e => Iff.rfl, fun outcome ledger h => absurd h (by simp)⟩
  · rw [honly, hspeculative]
    refine ⟨by simp, fun e => ⟨fun h => absurd h (by simp), fun h => absurd h (by simp)⟩, ?_⟩
    rintro outcome' ledger' h
    cases h
    refine ⟨hdecoded.reservations, hdecoded.outstandingReservations, ?_⟩
    intro otherCapacity expected expectedLedger hother
    have hexpected := decoded_of_runTargetOnly hboundary hother
    have hcommitted : ledger.committed = expectedLedger.committed :=
      hdecoded.committed.trans hexpected.committed.symm
    refine ⟨hcommitted, ?_, ?_, ?_⟩
    · rw [hdecoded.tokenCount, hexpected.tokenCount, hcommitted]
    · rw [hdecoded.tokenSequenceRoot, hexpected.tokenSequenceRoot, hcommitted]
    · rw [hdecoded.committedStateRoot, hexpected.committedStateRoot, hcommitted]

end

/-! ## A run with a wrong proposal -/

def wrongScript : Script where
  proposals := [(0, [1, 9])]
  failAtPosition := none
  normal position tokens h := by
    obtain ⟨rfl, rfl⟩ : position = 0 ∧ tokens = [1, 9] := by
      by_cases hposition : position = 0
      · subst hposition
        cases h
        exact ⟨rfl, rfl⟩
      · simp [PyDict.get, Ne.symm hposition] at h
    exact ⟨by decide, by decide⟩

@[reducible] def laboratoryRuntime : Runtime := ⟨Sha256.sha256, id, 1000, sixteen_le⟩

attribute [local instance] laboratoryRuntime

theorem runSpeculativeReference_exact_wrongScript :
    [1, 2, 3].length < 4 ∧
      runSpeculativeReference 4 [1, 2, 3] wrongScript (sha256 []) (sha256 []) (some 2) 8
        ≠ .error .diverges :=
  ⟨by decide, (runSpeculativeReference_exact [1, 2, 3] wrongScript (sha256 []) (sha256 []) (some 2) 8 4
    (by decide)).1⟩

end Eaglegate
