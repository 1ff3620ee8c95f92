import Tds.Drivers.Foundry
import Tds.Drivers.Proofs.Canonical
import Tds.Drivers.Proofs.Load

/-!
# Trust moves forward until a candidate is filed over it

`Effect` says once what a call can do to the records. All calls but the submissions move one record
along `DriverState.Forward`; a submission replaces a record without looking at it. So the law of trust
holds for a sequence of calls exactly if no candidate is filed over a driver that has left its
candidacy.
-/

namespace Drivers

open Python FileSystem PyDict

theorem registryErrorIf_eq_ok {condition : Prop} [Decidable condition] {message : Str} {u : Unit} :
    registryErrorIf condition message = .ok u ↔ ¬condition := by
  unfold registryErrorIf registryError
  split <;> simp_all

theorem DriverState.Forward.eq_revoked {s : DriverState} (h : DriverState.Forward .revoked s) :
    s = .revoked := by
  cases h with
  | stay => rfl
  | retire h => exact absurd rfl h
  | revoke => rfl

theorem DriverState.Forward.known {s s' : DriverState} (h : DriverState.Forward s s')
    (hs : s = .candidate ∨ s.Advanced) : s' = .candidate ∨ s'.Advanced := by
  unfold DriverState.Advanced at hs ⊢
  cases h <;> simp_all

variable {record : DriverRecord} {driverId : Str}

namespace DriverRegistry

/-- What a call may do to the records of a registry. -/
inductive Effect [Runtime] [Objects] [Interpreter] (registry : DriverRegistry) (call : RegistryCall) :
    PyDict Str DriverRecord → Prop
  | same : Effect registry call registry.records
  /-- A submission: the record is a new one. -/
  | filed {manifest : DriverManifest} (report : Option Str) (h : filedBy call = some manifest) :
      Effect registry call (registry.records.set manifest.driverId
        { manifest := manifest, state := .candidate, testReportHash := report })
  /-- Any other call: the driver keeps its manifest and moves forward. -/
  | moved {driverId : Str} {record record' : DriverRecord} (hcall : ¬call.IsSubmission)
      (hget : registry.records.get driverId = some record) (hmanifest : record'.manifest = record.manifest)
      (hforward : record.state.Forward record'.state) :
      Effect registry call (registry.records.set driverId record')

section Effects

variable [Runtime] [Objects] [Interpreter] {registry registry' : DriverRegistry}

omit [Runtime] [Objects] [Interpreter] in
theorem require_eq_ok :
    registry.require driverId = .ok record ↔ registry.records.get driverId = some record := by
  unfold require registryError
  cases registry.records.get driverId <;> simp

omit [Runtime] [Objects] in
theorem addCandidate_eq_ok {manifest : DriverManifest} {report : Option Str} :
    registry.addCandidate manifest report = .ok registry' ↔ validateManifest manifest = .ok () ∧
      registry.put manifest.driverId
        { manifest := manifest, state := .candidate, testReportHash := report } = registry' := by
  simp only [addCandidate, bind_eq_ok, exists_unit, plainly_eq_ok, pure_eq_ok, Except.ok.injEq]

/-- A call that requires a record and then raises or replaces it by one that has moved forward. -/
theorem effect_orSame (driverId : Str) {call : RegistryCall} {result : Checked DriverRegistry}
    (hcall : ¬call.IsSubmission)
    (h : ∀ after, result = .ok after → ∃ record record',
      registry.records.get driverId = some record ∧ record'.manifest = record.manifest ∧
        record.state.Forward record'.state ∧ after.records = registry.records.set driverId record') :
    Effect registry call (registry.orSame result).records := by
  cases result with
  | error e => exact .same
  | ok after =>
    obtain ⟨record, record', hget, hmanifest, hforward, hafter⟩ := h after rfl
    simp only [orSame, hafter]
    exact .moved hcall hget hmanifest hforward

theorem effect_addCandidate (manifest : DriverManifest) (report : Option Str) :
    Effect registry (.addCandidate manifest report)
      (registry.step (.addCandidate manifest report)).records := by
  rw [step]
  cases hadd : registry.addCandidate manifest report with
  | error e => exact .same
  | ok after =>
    obtain ⟨hvalid, rfl⟩ := addCandidate_eq_ok.mp hadd
    refine .filed report ?_
    rw [filedBy, hvalid]

theorem effect_submitCandidate (policy : DriverFoundryPolicy) (p : BytecodePackage)
    (test : Option DriverTest) : Effect registry (.submitCandidate policy p test)
      (registry.step (.submitCandidate policy p test)).records := by
  rw [step, Drivers.submitCandidate]
  cases hgate : submissionGate policy p test with
  | error result => exact .same
  | ok u =>
    cases hcandidate : candidateOf p test with
    | error e => exact .same
    | ok candidate =>
      simp only [ok_bind]
      cases hadd : registry.addCandidate candidate.1 (some candidate.2) with
      | error e => exact .same
      | ok after =>
        obtain ⟨hvalid, rfl⟩ := addCandidate_eq_ok.mp hadd
        refine .filed (some candidate.2) ?_
        rw [filedBy, hgate, hcandidate]
        simp only [hvalid]

theorem get_step_of_filedBy {call : RegistryCall} {manifest : DriverManifest}
    (h : filedBy call = some manifest) (registry : DriverRegistry) :
    ∃ record, (registry.step call).records.get manifest.driverId = some record ∧
      record.state = .candidate := by
  have hadd : ∀ report, validateManifest manifest = .ok () → registry.addCandidate manifest report =
      .ok (registry.put manifest.driverId
        { manifest := manifest, state := .candidate, testReportHash := report }) :=
    fun report hvalid => addCandidate_eq_ok.mpr ⟨hvalid, rfl⟩
  cases call with
  | addCandidate filed report =>
    rw [filedBy] at h
    split at h
    · rename_i u hvalid
      cases h
      refine ⟨⟨manifest, .candidate, none, report⟩, ?_, rfl⟩
      rw [step, hadd report hvalid]
      exact get_set_self _ _ _
    · cases h
  | submitCandidate policy p test =>
    rw [filedBy] at h
    split at h
    · rename_i filed report hgate hcandidate
      split at h
      · rename_i u hvalid
        cases h
        refine ⟨⟨manifest, .candidate, none, some report⟩, ?_, rfl⟩
        rw [step, Drivers.submitCandidate, hgate, hcandidate]
        simp only [ok_bind, hadd (some report) hvalid]
        exact get_set_self _ _ _
      · cases h
    · cases h
  | _ => cases h

theorem effect_step (registry : DriverRegistry) (call : RegistryCall) :
    Effect registry call (registry.step call).records := by
  cases call with
  | addCandidate manifest report => exact effect_addCandidate manifest report
  | submitCandidate policy p test => exact effect_submitCandidate policy p test
  | approve driverId =>
    refine effect_orSame driverId id fun after h => ?_
    simp only [approve, bind_eq_ok, exists_unit, require_eq_ok, registryErrorIf_eq_ok, pure_eq_ok,
      not_not] at h
    obtain ⟨record, hget, hstate, -, heq⟩ := h
    cases heq
    exact ⟨record, { record with state := .approved }, hget, rfl, hstate ▸ .approve, rfl⟩
  | attachSignature driverId signature =>
    refine effect_orSame driverId id fun after h => ?_
    simp only [attachSignature, bind_eq_ok, exists_unit, require_eq_ok, registryErrorIf_eq_ok,
      pure_eq_ok, not_not] at h
    obtain ⟨record, hget, hstate, -, heq⟩ := h
    cases heq
    exact ⟨record, { record with signature := some signature, state := .signed }, hget, rfl,
      hstate ▸ .sign, rfl⟩
  | activate driverId =>
    refine effect_orSame driverId id fun after h => ?_
    simp only [activate, bind_eq_ok, exists_unit, require_eq_ok, registryErrorIf_eq_ok, pure_eq_ok,
      not_not] at h
    obtain ⟨record, hget, hstate, -, heq⟩ := h
    cases heq
    exact ⟨record, { record with state := .active }, hget, rfl, hstate ▸ .activate, rfl⟩
  | retire driverId =>
    refine effect_orSame driverId id fun after h => ?_
    simp only [retire, bind_eq_ok, exists_unit, require_eq_ok, registryErrorIf_eq_ok, pure_eq_ok] at h
    obtain ⟨record, hget, hstate, heq⟩ := h
    cases heq
    exact ⟨record, { record with state := .retired }, hget, rfl, .retire hstate, rfl⟩
  | revoke driverId =>
    refine effect_orSame driverId id fun after h => ?_
    simp only [revoke, bind_eq_ok, require_eq_ok, pure_eq_ok] at h
    obtain ⟨record, hget, heq⟩ := h
    cases heq
    exact ⟨record, { record with state := .revoked }, hget, rfl, .revoke _, rfl⟩
  | approveSigner signer secret => exact .same
  | revokeSignature signature => exact .same

end Effects

/-! ## One call -/

/-- What holds of the records of every registry that calls have made. -/
structure Kept (records : PyDict Str DriverRecord) : Prop where
  /-- A record is filed under the driver of its manifest. -/
  filed : ∀ driverId record, records.get driverId = some record → record.manifest.driverId = driverId
  /-- It is a candidate or was one. -/
  known : ∀ driverId record, records.get driverId = some record →
    record.state = .candidate ∨ record.state.Advanced

section Step

variable [Runtime] [Objects] [Interpreter] {registry : DriverRegistry} {call : RegistryCall}
  {records : PyDict Str DriverRecord}

theorem Effect.kept (h : Effect registry call records) (hkept : Kept registry.records) :
    Kept records := by
  cases h with
  | same => exact hkept
  | filed report h =>
    rename_i manifest
    constructor
    · intro driverId record hget
      by_cases hid : driverId = manifest.driverId
      · subst hid
        rw [get_set_self] at hget
        cases hget
        rfl
      · rw [get_set_of_ne _ _ hid] at hget
        exact hkept.filed driverId record hget
    · intro driverId record hget
      by_cases hid : driverId = manifest.driverId
      · subst hid
        rw [get_set_self] at hget
        cases hget
        exact .inl rfl
      · rw [get_set_of_ne _ _ hid] at hget
        exact hkept.known driverId record hget
  | moved hcall hget hmanifest hforward =>
    rename_i driverId₀ record₀ record₀'
    constructor
    · intro driverId record hget'
      by_cases hid : driverId = driverId₀
      · subst hid
        rw [get_set_self] at hget'
        cases hget'
        rw [hmanifest]
        exact hkept.filed driverId record₀ hget
      · rw [get_set_of_ne _ _ hid] at hget'
        exact hkept.filed driverId record hget'
    · intro driverId record hget'
      by_cases hid : driverId = driverId₀
      · subst hid
        rw [get_set_self] at hget'
        cases hget'
        exact hforward.known (hkept.known driverId record₀ hget)
      · rw [get_set_of_ne _ _ hid] at hget'
        exact hkept.known driverId record hget'

/-- A call that files nothing over an advanced driver moves every driver forward, and keeps the
manifest of those that are advanced. -/
theorem Effect.forward (h : Effect registry call records) (hkept : Kept registry.records)
    (hfree : ∀ manifest record, filedBy call = some manifest →
      registry.records.get manifest.driverId = some record → ¬record.state.Advanced)
    (hget : registry.records.get driverId = some record) :
    ∃ record', records.get driverId = some record' ∧ record.state.Forward record'.state ∧
      (record.state.Advanced → record'.manifest = record.manifest ∧
        (call.IsSubmission → record' = record)) := by
  cases h with
  | same => exact ⟨record, hget, .stay _, fun _ => ⟨rfl, fun _ => rfl⟩⟩
  | filed report h =>
    rename_i manifest
    by_cases hid : driverId = manifest.driverId
    · subst hid
      have hnot := hfree manifest record h hget
      have hcandidate : record.state = .candidate := (hkept.known _ _ hget).resolve_right hnot
      exact ⟨_, get_set_self _ _ _, hcandidate ▸ .stay _, fun hadvanced =>
        absurd hadvanced hnot⟩
    · exact ⟨record, by rw [get_set_of_ne _ _ hid, hget], .stay _,
        fun _ => ⟨rfl, fun _ => rfl⟩⟩
  | moved hcall hget₀ hmanifest hforward =>
    rename_i driverId₀ record₀ record₀'
    by_cases hid : driverId = driverId₀
    · subst hid
      rw [hget₀] at hget
      cases hget
      exact ⟨_, get_set_self _ _ _, hforward, fun _ => ⟨hmanifest, fun h => absurd h hcall⟩⟩
    · exact ⟨record, by rw [get_set_of_ne _ _ hid, hget], .stay _,
        fun _ => ⟨rfl, fun _ => rfl⟩⟩

end Step

section Runs

variable [Runtime] [Objects] [Interpreter] {policy : SignaturePolicy}

theorem after_concat (calls : List RegistryCall) (call : RegistryCall) :
    after policy (calls ++ [call]) = (after policy calls).step call := by
  rw [after, after, List.foldl_append]
  rfl

theorem kept_after (calls : List RegistryCall) : Kept (after policy calls).records := by
  induction calls using List.reverseRecOn with
  | nil => exact ⟨by simp [after], by simp [after]⟩
  | append_singleton calls call ih =>
    rw [after_concat]
    exact (effect_step _ call).kept ih

end Runs

end DriverRegistry

section Law

variable [Runtime] [Objects] [Interpreter]

open DriverRegistry

theorem NoOverwrite.of_append {policy : SignaturePolicy} {calls rest : List RegistryCall}
    (h : NoOverwrite policy (calls ++ rest)) : NoOverwrite policy calls := by
  rintro before call after rfl
  exact h before call (after ++ rest) (by simp)

/-- A driver that is revoked stays revoked with its manifest while nothing is filed over it. -/
theorem NoOverwrite.revoked {policy : SignaturePolicy} {before between : List RegistryCall}
    (h : NoOverwrite policy (before ++ between))
    (hget : (after policy before).records.get driverId = some record)
    (hrevoked : record.state = .revoked) :
    ∃ record', (after policy (before ++ between)).records.get driverId = some record' ∧
      record'.state = .revoked ∧ record'.manifest = record.manifest := by
  induction between using List.reverseRecOn with
  | nil => exact ⟨record, by simpa using hget, hrevoked, rfl⟩
  | append_singleton between call ih =>
    rw [← List.append_assoc] at h
    obtain ⟨record₁, hget₁, hrevoked₁, hmanifest₁⟩ := ih h.of_append
    obtain ⟨record₂, hget₂, hforward, hadvanced⟩ :=
      (effect_step (after policy (before ++ between)) call).forward (kept_after _)
        (h (before ++ between) call [] rfl) hget₁
    rw [← List.append_assoc, after_concat]
    refine ⟨record₂, hget₂, (hrevoked₁ ▸ hforward).eq_revoked, ?_⟩
    exact (hadvanced (.inr (.inr (.inr (.inr hrevoked₁))))).1.trans hmanifest₁

/-- Trust only moves forward exactly in the runs in which no candidate is filed over a driver that is
approved, signed, active, retired or revoked. -/
theorem trustLaw_iff_noOverwrite (policy : SignaturePolicy) (calls : List RegistryCall) :
    TrustLaw policy calls ↔ NoOverwrite policy calls := by
  constructor
  · -- a submission over an advanced driver leaves a candidate, so it has changed the record
    intro hlaw before call rest hcalls manifest record hfiled hget hadvanced
    have hsubmission : call.IsSubmission := by
      cases call <;> trivial
    have hsame := hlaw.submissions before call rest hcalls hsubmission _ _ hget hadvanced
    obtain ⟨filed, hget', hcandidate⟩ := get_step_of_filedBy hfiled (after policy before)
    rw [hsame] at hget'
    cases hget'
    rw [hcandidate] at hadvanced
    simp [DriverState.Advanced] at hadvanced
  · intro hfree
    refine ⟨?_, ?_, ?_⟩
    · intro before call rest hcalls driverId record hget
      obtain ⟨record', hget', hforward, -⟩ := (effect_step (after policy before) call).forward
        (kept_after _) (hfree before call rest hcalls) hget
      exact ⟨record', hget', hforward⟩
    · intro before call rest hcalls hsubmission driverId record hget hadvanced
      obtain ⟨record', hget', -, hsame⟩ := (effect_step (after policy before) call).forward
        (kept_after _) (hfree before call rest hcalls) hget
      rw [hget', (hsame hadvanced).2 hsubmission]
    · rintro before between rest rfl driverId record hget hrevoked driverId' record' hget' hmanifest
      obtain ⟨record₁, hget₁, hrevoked₁, hmanifest₁⟩ := hfree.of_append.revoked hget hrevoked
      -- both records have the manifest, so they are filed under the same driver
      have hid : driverId' = driverId := by
        rw [← (kept_after _).filed _ _ hget', ← (kept_after _).filed _ _ hget, hmanifest]
      rw [hid, hget₁] at hget'
      cases hget'
      rw [hrevoked₁]
      decide

end Law

/-! ## A revoked driver that becomes active again -/

section Sample

attribute [local instance] sampleRuntime sampleObjects sampleInterpreter

def trustedManifest : DriverManifest :=
  { driverId := lit "d", version := 1, kind := lit "policy", capabilities := [lit "a.b"] }

def oneSigner : SignaturePolicy := { signerSecrets := [(lit "s", [107])] }

def trustedSignature [Runtime] : Str :=
  okOr [] (do signPayload (← trustedManifest.canonicalPayload) (lit "s") [107])

def revokingCalls : List RegistryCall :=
  [.addCandidate trustedManifest (some (lit "t")), .revoke (lit "d")]

/-- The same manifest is filed again, approved, signed and activated. -/
def activatingCalls [Runtime] : List RegistryCall :=
  [.addCandidate trustedManifest (some (lit "t")), .approve (lit "d"),
    .attachSignature (lit "d") trustedSignature, .activate (lit "d")]

def trustOf (registry : DriverRegistry) (driverId : Str) : Option (DriverManifest × DriverState) :=
  (registry.records.get driverId).map fun record => (record.manifest, record.state)

deriving instance DecidableEq for DriverManifest

/-- The manifest that was revoked is active after four more calls. -/
theorem revoked_active_sample :
    trustOf (DriverRegistry.after oneSigner revokingCalls) (lit "d") =
        some (trustedManifest, .revoked) ∧
      trustOf (DriverRegistry.after oneSigner (revokingCalls ++ activatingCalls)) (lit "d") =
        some (trustedManifest, .active) ∧
      ¬TrustLaw oneSigner (revokingCalls ++ activatingCalls) := by
  have hrevoked : trustOf (DriverRegistry.after oneSigner revokingCalls) (lit "d") =
      some (trustedManifest, .revoked) := by decide +kernel
  have hactive : trustOf (DriverRegistry.after oneSigner (revokingCalls ++ activatingCalls)) (lit "d") =
      some (trustedManifest, .active) := by
    rw [sampleRuntime_eq_strict]
    decide +kernel
  refine ⟨hrevoked, hactive, fun hlaw => ?_⟩
  obtain ⟨record, hget, hrecord⟩ := Option.map_eq_some_iff.mp hrevoked
  obtain ⟨record', hget', hrecord'⟩ := Option.map_eq_some_iff.mp hactive
  obtain ⟨hmanifest, hstate⟩ := Prod.mk.inj hrecord
  obtain ⟨hmanifest', hstate'⟩ := Prod.mk.inj hrecord'
  exact hlaw.revoked revokingCalls activatingCalls [] (by simp) _ _ hget hstate _ _ hget'
    (hmanifest'.trans hmanifest.symm) hstate'

end Sample

end Drivers
