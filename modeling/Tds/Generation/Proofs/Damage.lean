import Tds.Generation.Proofs.Progress

/-!
# Heads that the store did not write

What `recover` makes of arbitrary contents of `CURRENT`. It only takes the exceptions of the store for
damage; an exception that a decoder lets through stops it.
-/

namespace Generation

open Python Process List Prog Function GenerationHead Runs

theorem raisesOnly_fromDict (value : Dict) :
    RaisesOnly (·.isStoreError = false) (fromDict value) := by
  have hc : ∀ message fault, (Error.contract message fault).isStoreError = false := fun _ _ => rfl
  have hitem : ∀ key, RaisesOnly (·.isStoreError = false) (getItem value key) :=
    fun key => raisesOnly_getItem (P := (·.isStoreError = false)) rfl value key
  refine RaisesOnly.bind (raisesOnly_raiseIf.mpr fun _ => rfl) fun _ _ => ?_
  refine (hitem _).bind fun _ _ => ?_
  refine (raisesOnly_checkContractId hc _ _).bind fun _ _ => ?_
  refine (hitem _).bind fun _ _ => (hitem _).bind fun _ _ => (hitem _).bind fun _ _ => ?_
  refine (hitem _).bind fun _ _ => (hitem _).bind fun _ _ => ?_
  refine (raisesOnly_requireName hc _ _).bind fun _ _ => ?_
  refine (raisesOnly_requireInt hc _ _ _ _).bind fun _ _ => ?_
  refine (raisesOnly_requireRoot hc _ _).bind fun _ _ => ?_
  refine (raisesOnly_requireRoot hc _ _).bind fun _ _ => ?_
  exact (raisesOnly_requireRoot hc _ _).bind fun _ _ => raisesOnly_ok _

section Damage

variable [Runtime]

/-! ## Heads -/

theorem GenerationHead.print_of_fromDict {value : Dict} {head : GenerationHead}
    (hvalue : (value.map Prod.fst).Nodup) (h : fromDict value = .ok head) :
    (Json.obj value).print = (Json.obj head.canonicalDict).print := by
  simp only [fromDict, init, bind_eq_ok, raiseIf_eq_ok, exists_unit,
    Bool.not_eq_false, getItem_eq_ok, checkContractId_eq_ok, requireName_eq_ok, requireInt_eq_ok,
    requireRoot_eq_ok] at h
  obtain ⟨hkeys, contract, hcontract, rfl, ns, hns, sequence, hsequence, generation, hgeneration,
    manifest, hmanifest, record, hrecord, ns', rfl, sequence', rfl, generation', rfl, manifest', rfl,
    record', rfl, hhead⟩ := h
  cases hhead
  refine print_eq_of_fields hvalue (nodup_canonicalDict _) ?_ ?_
  · intro k hk
    have hmem := mem_map_lit_of_sameKeys hkeys k hk
    simp only [map_cons, map_nil, mem_cons, not_mem_nil, or_false] at hmem
    simp only [canonicalDict, map_cons, map_nil, mem_cons,
      not_mem_nil, or_false]
    tauto
  · simp only [canonicalDict, forall_mem_cons]
    exact ⟨⟨_, hcontract, rfl⟩, ⟨_, hns, rfl⟩, ⟨_, hsequence, rfl⟩, ⟨_, hgeneration, rfl⟩,
      ⟨_, hmanifest, rfl⟩, ⟨_, hrecord, rfl⟩, fun _ h => absurd h not_mem_nil⟩

variable {data : Bytes} {value : Json} {path : Str}

variable {c : StoreConfig}

/-- `_canonical_load` gives the value back that the bytes are the canonical form of. -/
theorem canonicalLoad_eq_ok {data' : Bytes}
    (h : canonicalLoad c path (some data) = .ok (value, data')) :
    data' = data ∧ value.Distinct ∧ value.isFinite = true ∧ canonicalBytes value = data := by
  simp only [canonicalLoad, bind_eq_ok, raiseIf_eq_ok, exists_unit] at h
  obtain ⟨read, hread, v, hload, encoded, hencoded, heq, hpair⟩ := h
  cases hpair
  have hdata : data = data' := by
    rw [readBounded] at hread
    split at hread
    · cases hread
    · exact Except.ok.inj hread
  subst hdata
  have hdistinct : value.Distinct := by
    rw [loadJson] at hload
    split at hload
    · cases hload
    · split at hload
      · next hloads =>
        cases hload
        exact distinct_of_loads hloads
      all_goals cases hload
  rw [canonicalJsonBytes] at hencoded
  split at hencoded
  · next hfinite =>
    cases hencoded
    exact ⟨rfl, hdistinct, hfinite, not_not.mp heq⟩
  · cases hencoded

theorem namesHead_iff {head : GenerationHead} :
    namesHead value head = true ↔ value = rootJson head.headRoot := by
  rw [namesHead.eq_def]
  split
  · rw [beq_iff_eq, rootJson, Json.str.injEq]
  · next hne =>
    refine iff_of_false (by simp) ?_
    rintro rfl
    exact hne _ rfl

/-- The head that is found in `CURRENT` is the one that its contents are the envelope of. -/
theorem eq_headEnvelope_of_loadHead {nameSpace : Str}
    {head : Option GenerationHead} (h : loadHead c nameSpace path (some data) = .ok head) :
    ∃ x, head = some x ∧ data = headEnvelope x := by
  rw [loadHead, bind_eq_ok] at h
  obtain ⟨⟨value, data'⟩, hload, h⟩ := h
  obtain ⟨-, hdistinct, -, hdata⟩ := canonicalLoad_eq_ok hload
  dsimp only at h
  split at h
  · next fields =>
    simp only [bind_eq_ok, raiseIf_eq_ok, exists_unit, Bool.not_eq_false, getItem_eq_ok] at h
    obtain ⟨hkeys, found, hfound, h⟩ := h
    split at h
    · next headFields =>
      simp only [bind_eq_ok, raiseIf_eq_ok, exists_unit, getItem_eq_ok, not_or, Bool.not_eq_false,
        namesHead_iff, not_not, pure_eq_ok, Except.ok.injEq] at h
      obtain ⟨x, hx, root, hroot, ⟨rfl, -⟩, rfl⟩ := h
      refine ⟨x, rfl, ?_⟩
      have hprint := print_of_fromDict (hdistinct.dictGet hfound).nodup hx
      have henvelope : (Json.obj fields).print = (Json.obj (envelopeDict x)).print := by
        refine print_eq_of_fields hdistinct.nodup (by simp [envelopeDict, lit_inj]) ?_ ?_
        · intro k hk
          have hmem := mem_map_lit_of_sameKeys hkeys k hk
          simpa [envelopeDict] using hmem
        · simp only [envelopeDict, forall_mem_cons]
          exact ⟨⟨_, hfound, hprint⟩, ⟨_, hroot, rfl⟩, fun _ h => absurd h not_mem_nil⟩
      rw [← hdata, headEnvelope, canonicalBytes, canonicalBytes, henvelope]
    · cases h
  · cases h

/-! ## Which contents are taken for damage -/

/-- The contents of `CURRENT` that recovery can deal with: too many bytes, no JSON text, or a value
without infinities that is not the envelope of a head which the contract rejects. -/
def Repairable (c : StoreConfig) (data : Bytes) : Prop :=
  c.limits.maxManifestBytes.val < data.length ∨
    ∀ text, decodeUtf8 data = some text →
      loads text ≠ .error .digits ∧ loads text ≠ .error .recursion ∧
      ∀ value, loads text = .ok value → value.isFinite = true ∧
        ∀ fields head, value = .obj fields → canonicalBytes value = data →
          sameKeys fields ["head", "head_root"] = true →
          dictGet fields (lit "head") = some (.obj head) →
          ∃ x, GenerationHead.fromDict head = .ok x

theorem raisesOnly_loadJson {malformed : Error} (hm : malformed.isStoreError = true) :
    RaisesOnly (·.isStoreError = true) (loadJson data malformed) ↔
      ∀ text, decodeUtf8 data = some text →
        loads text ≠ .error .digits ∧ loads text ≠ .error .recursion := by
  rw [loadJson.eq_def]
  cases decodeUtf8 data with
  | none => simpa using hm
  | some text =>
    dsimp only
    cases hloads : loads text with
    | ok value => simp [hloads]
    | error e =>
      cases e with
      | decode => simpa [hloads] using hm
      | digits => simp [hloads, Error.isStoreError]
      | recursion => simp [hloads, Error.isStoreError]

theorem loadJson_eq_ok {malformed : Error} :
    loadJson data malformed = .ok value ↔ ∃ text, decodeUtf8 data = some text ∧
      loads text = .ok value := by
  rw [loadJson.eq_def]
  cases decodeUtf8 data with
  | none => simp
  | some text =>
    dsimp only
    cases hloads : loads text with
    | ok value => simp [hloads]
    | error e => cases e <;> simp [hloads]

theorem raisesOnly_canonicalJsonBytes :
    RaisesOnly (·.isStoreError = true) (canonicalJsonBytes value) ↔ value.isFinite = true := by
  rw [canonicalJsonBytes]
  split
  · simp_all
  · simp_all [Error.isStoreError]

theorem raisesOnly_canonicalLoad :
    RaisesOnly (·.isStoreError = true) (canonicalLoad c path (some data)) ↔
      c.limits.maxManifestBytes.val < data.length ∨
        ∀ text, decodeUtf8 data = some text →
          loads text ≠ .error .digits ∧ loads text ≠ .error .recursion ∧
          ∀ value, loads text = .ok value → value.isFinite = true := by
  rw [canonicalLoad, readBounded]
  by_cases hlong : c.limits.maxManifestBytes.val < data.length
  · rw [if_pos hlong, error_bind, raisesOnly_error]
    exact iff_of_true rfl (.inl hlong)
  · rw [if_neg hlong, ok_bind, raisesOnly_bind, raisesOnly_loadJson rfl]
    have hrest : ∀ value : Json, RaisesOnly (·.isStoreError = true) (do
        let encoded ← canonicalJsonBytes value
        raiseIf (encoded ≠ data)
          (.store (lit "noncanonical JSON: " ++ path) .integrityFailure)
        return (value, data)) ↔ value.isFinite = true := by
      intro value
      rw [raisesOnly_bind, raisesOnly_canonicalJsonBytes, and_iff_left]
      intro encoded _
      exact RaisesOnly.bind (raisesOnly_raiseIf.mpr fun _ => rfl) fun _ _ => raisesOnly_ok _
    simp only [hrest, loadJson_eq_ok]
    constructor
    · rintro ⟨hloads, hfinite⟩
      refine .inr fun text htext => ⟨(hloads text htext).1, (hloads text htext).2, ?_⟩
      exact fun value hvalue => hfinite value ⟨text, htext, hvalue⟩
    · rintro (h | h)
      · exact absurd h hlong
      · refine ⟨fun text htext => ⟨(h text htext).1, (h text htext).2.1⟩, ?_⟩
        rintro value ⟨text, htext, hvalue⟩
        exact (h text htext).2.2 value hvalue

theorem canonicalLoad_eq_ok_iff {data' : Bytes} :
    canonicalLoad c path (some data) = .ok (value, data') ↔
      data' = data ∧ data.length ≤ c.limits.maxManifestBytes.val ∧
        (∃ text, decodeUtf8 data = some text ∧ loads text = .ok value) ∧
        value.isFinite = true ∧ canonicalBytes value = data := by
  rw [canonicalLoad, readBounded]
  by_cases hlong : c.limits.maxManifestBytes.val < data.length
  · rw [if_pos hlong, error_bind]
    refine iff_of_false (by simp) ?_
    rintro ⟨-, hle, -⟩
    omega
  · rw [if_neg hlong, ok_bind]
    simp only [bind_eq_ok, raiseIf_eq_ok, exists_unit, loadJson_eq_ok, canonicalJsonBytes, not_not,
      pure_eq_ok, Except.ok.injEq, Prod.mk.injEq]
    constructor
    · rintro ⟨v, hload, encoded, hencoded, heq, rfl, rfl⟩
      split at hencoded
      · next hfinite =>
        cases hencoded
        exact ⟨rfl, not_lt.mp hlong, hload, hfinite, heq⟩
      · cases hencoded
    · rintro ⟨rfl, -, hload, hfinite, heq⟩
      exact ⟨value, hload, canonicalBytes value, if_pos hfinite, heq, rfl, rfl⟩

theorem raisesOnly_loadHead_iff {nameSpace : Str} :
    RaisesOnly (·.isStoreError = true) (loadHead c nameSpace path (some data)) ↔
      Repairable c data := by
  rw [loadHead, raisesOnly_bind, raisesOnly_canonicalLoad, Repairable]
  by_cases hlong : c.limits.maxManifestBytes.val < data.length
  · refine iff_of_true ⟨.inl hlong, ?_⟩ (.inl hlong)
    rintro ⟨value, data'⟩ hload
    have hle := (canonicalLoad_eq_ok_iff.mp hload).2.1
    omega
  · have hle : data.length ≤ c.limits.maxManifestBytes.val := not_lt.mp hlong
    simp only [hlong, false_or]
    constructor
    · rintro ⟨hall, hrest⟩ text htext
      obtain ⟨hdigits, hrecursion, hfinite⟩ := hall text htext
      refine ⟨hdigits, hrecursion, fun value hvalue => ⟨hfinite value hvalue, ?_⟩⟩
      rintro fields head rfl hcanonical hkeys hhead
      have h := hrest _ (canonicalLoad_eq_ok_iff.mpr
        ⟨rfl, hle, ⟨text, htext, hvalue⟩, hfinite _ hvalue, hcanonical⟩)
      dsimp only at h
      rw [raiseIf_neg (by simp [hkeys]), ok_bind, getItem_eq_ok.mpr hhead, ok_bind] at h
      cases hdecoded : fromDict head with
      | ok x => exact ⟨x, rfl⟩
      | error e =>
        dsimp only at h
        rw [hdecoded, error_bind, raisesOnly_error, raisesOnly_fromDict head e hdecoded] at h
        cases h
    · intro hall
      refine ⟨fun text htext => ⟨(hall text htext).1, (hall text htext).2.1, fun value hvalue =>
        ((hall text htext).2.2 value hvalue).1⟩, ?_⟩
      rintro ⟨value, data'⟩ hload
      obtain ⟨-, -, ⟨text, htext, hvalue⟩, -, hcanonical⟩ := canonicalLoad_eq_ok_iff.mp hload
      have hhead := ((hall text htext).2.2 value hvalue).2
      dsimp only
      split
      · next fields =>
        refine RaisesOnly.bind (raisesOnly_raiseIf.mpr fun _ => rfl) fun _ hsame => ?_
        have hkeys : sameKeys fields ["head", "head_root"] = true := by
          simpa using raiseIf_eq_ok.mp hsame
        obtain ⟨found, hfound⟩ := exists_getItem_of_sameKeys hkeys (mem_cons_self ..)
        obtain ⟨root, hroot⟩ := exists_getItem_of_sameKeys hkeys
          (mem_cons_of_mem _ (mem_cons_self ..))
        rw [hfound, ok_bind]
        split
        · next headFields =>
          obtain ⟨x, hx⟩ := hhead fields headFields rfl hcanonical hkeys (getItem_eq_ok.mp hfound)
          rw [hx, ok_bind, hroot, ok_bind]
          exact RaisesOnly.bind (raisesOnly_raiseIf.mpr fun _ => rfl) fun _ _ => raisesOnly_ok _
        · exact raisesOnly_error.mpr rfl
      · exact raisesOnly_error.mpr rfl

/-! ## Recovery -/

variable {c : StoreConfig} {p : StoreId} {w w' : World} {nameSpace : Str} {key : Digest}
  {records : List GenerationPublicationRecord} {torn : Bool}

theorem nameSpace_of_readRecords {allow : Bool} {fuel : Nat}
    {before : List GenerationPublicationRecord}
    (h : readRecords c nameSpace allow fuel before data = .ok (records, torn))
    (hbefore : ∀ r ∈ before, r.nameSpace.val = nameSpace) :
    ∀ r ∈ records, r.nameSpace.val = nameSpace := by
  induction fuel generalizing before data with
  | zero =>
    cases h
    exact hbefore
  | succ fuel ih =>
    rw [readRecords] at h
    dsimp only at h
    generalize readline (c.limits.maxManifestBytes.val + 2) data = line at h
    generalize (if (line.1.getLast? == some 10) = true then line.1.dropLast else line.1) = raw at h
    split at h
    · cases h
      exact hbefore
    · split at h
      · cases h
      · split at h
        · split at h
          · cases h
          · split at h
            · cases h
            · cases h
              exact hbefore
        · split at h
          · cases h
          · split at h
            · cases h
            · simp only [bind_eq_ok, raiseIf_eq_ok, exists_unit, not_not] at h
              obtain ⟨record, -, -, hname, h⟩ := h
              refine ih h fun r hr => ?_
              rcases mem_append.mp hr with hold | hnew
              · exact hbefore r hold
              · rw [mem_singleton.mp hnew]
                exact hname

theorem nameSpace_of_recoverRecords {view : (o : Op) → Option o.Answer}
    (h : (recoverRecords c nameSpace key).eval view = some (.ok (records, torn))) :
    ∀ r ∈ records, r.nameSpace.val = nameSpace := by
  rw [recoverRecords, eval_bind_eq_ok] at h
  obtain ⟨⟨records', torn'⟩, hread, h⟩ := h
  rw [eval_bind_eq_ok] at h
  obtain ⟨-, -, h⟩ := h
  cases h
  rw [readPublicationRecords, eval_bind_eq_ok] at hread
  obtain ⟨contents, -, hread⟩ := hread
  cases contents with
  | none =>
    cases hread
    exact fun r hr => absurd hr not_mem_nil
  | some data =>
    exact nameSpace_of_readRecords (Option.some.inj hread) fun r hr => absurd hr not_mem_nil

/-- What `_read_head_unverified` makes of `CURRENT`. -/
def currentVerdict (c : StoreConfig) (nameSpace : Str) (key : Digest) (w : World) :
    Check (Option GenerationHead) :=
  loadHead c nameSpace (c.pathText (Path.current key).text) (w.disk (.current key))

theorem eval_existingHead_known (c : StoreConfig) (nameSpace : Str) (key : Digest) (w : World) :
    (existingHead c nameSpace key).eval (readView w.known) = some
      (match currentVerdict c nameSpace key w with
        | .ok head => .ok (head, false)
        | .error e => if e.isStoreError then .ok (none, true) else .error e) := by
  have hread : (readHeadUnverified c nameSpace key).eval (readView w.known) =
      some (currentVerdict c nameSpace key w) := by
    rw [readHeadUnverified, eval_bind_ok _ (eval_readFile rfl)]
    exact eval_liftM _ _
  rw [existingHead, eval_attempt, hread, Option.bind_some]
  cases currentVerdict c nameSpace key w with
  | ok head => rfl
  | error e =>
    dsimp only
    split <;> rfl

def World.logRepaired (w : World) (key : Digest) (records : List GenerationPublicationRecord)
    (torn : Bool) : World :=
  if torn then w.write (.log key) (encodeLog records) else w

theorem current_logRepaired :
    (w.logRepaired key records torn).disk (.current key) = w.disk (.current key) := by
  rw [World.logRepaired]
  split
  · exact World.write_of_ne (by simp) _
  · rfl

theorem runs_replaceFile_iff {path : Path} (r : Except Error Unit) (w' : World) :
    Runs (exec c p) (replaceFile path data) w r w' ↔ r = .ok () ∧ w' = w.write path data := by
  constructor
  · intro h
    obtain ⟨⟨⟩, rfl, rfl⟩ := h.call_inv
    exact ⟨rfl, rfl⟩
  · rintro ⟨rfl, rfl⟩
    have hexec : exec c p (Op.replace path data) w () (w.write path data) := rfl
    exact call hexec

theorem runs_pure_iff {α : Type} {a : α} (r : Except Error α) (w' : World) :
    Runs (exec c p) (pure a) w r w' ↔ r = .ok a ∧ w' = w := by
  constructor
  · intro h
    cases h
    exact ⟨rfl, rfl⟩
  · rintro ⟨rfl, rfl⟩
    exact .done _ _

theorem runs_repairLog_iff (r : Except Error Unit) (w' : World) :
    Runs (exec c p) (repairLog key records torn) w r w' ↔
      r = .ok () ∧ w' = w.logRepaired key records torn := by
  rw [repairLog, World.logRepaired]
  split
  · exact runs_replaceFile_iff r w'
  · exact runs_pure_iff r w'

/-- Under the lock, recovery up to the point where it looks at `CURRENT`. -/
theorem runs_recoverLocked_iff
    (hlog : (recoverRecords c nameSpace key).eval (readView w.known) = some (.ok (records, torn)))
    (r : Except Error RecoveryResult) (w' : World) :
    Runs (exec c p) (recoverLocked c nameSpace key) w r w' ↔
      Runs (exec c p) (do
        let (existing, existingInvalid) ← existingHead c nameSpace key
        let repaired := existingInvalid || decide (existing ≠ impliedHead records)
        repairHead key (impliedHead records) repaired
        return ⟨nameSpace, impliedHead records, repaired, records.length, torn⟩)
        (w.logRepaired key records torn) r w' := by
  rw [recoverLocked, bind_iff (iff_of_eval (shows_known c p w) hlog)]
  dsimp only
  rw [bind_iff runs_repairLog_iff, expectedHead_eq (nameSpace_of_recoverRecords hlog),
    liftM_ok_bind]

/-- The files after `CURRENT` was made to hold the head. -/
def World.withHead (w : World) (key : Digest) : Option GenerationHead → World
  | none => w.remove (.current key)
  | some head => w.write (.current key) (headEnvelope head)

theorem current_withHead (head : Option GenerationHead) :
    (w.withHead key head).disk (.current key) = head.map headEnvelope := by
  cases head with
  | none => exact update_self ..
  | some head => exact update_self ..

theorem World.remove_of_none {path : Path} (h : w.disk path = none) : w.remove path = w := by
  have hdisk : update w.disk path none = w.disk := by
    rw [← h, update_eq_self]
  rw [World.remove, hdisk]

theorem repairHead_false (expected : Option GenerationHead) :
    repairHead key expected false = pure () := rfl

theorem runs_repairHead_iff {expected : Option GenerationHead} (r : Except Error Unit) (w' : World) :
    Runs (exec c p) (repairHead key expected true) w r w' ↔
      r = .ok () ∧ w' = w.withHead key expected := by
  unfold repairHead
  rw [if_pos rfl]
  cases expected with
  | some head => exact runs_replaceFile_iff r w'
  | none =>
    have hunlink : ∀ r w', Runs (exec c p) (unlinkFile (.current key)) w r w' ↔
        r = .ok (w.disk (.current key)).isSome ∧ w' = w.remove (.current key) := by
      intro r w'
      by_cases habsent : w.disk (.current key) = none
      · rw [World.remove_of_none habsent, habsent]
        constructor
        · intro h
          obtain ⟨a, rfl, hexec⟩ := h.call_inv
          simp only [exec, habsent, if_true] at hexec
          exact ⟨congrArg _ hexec.1, hexec.2⟩
        · rintro ⟨rfl, rfl⟩
          have hexec : exec c p (Op.unlink (.current key)) w' false w' := by
            simp only [exec, habsent, if_true, and_self]
          exact call hexec
      · obtain ⟨data, hdata⟩ := Option.ne_none_iff_exists'.mp habsent
        rw [hdata]
        constructor
        · intro h
          obtain ⟨a, rfl, hexec⟩ := h.call_inv
          simp only [exec, habsent, if_false] at hexec
          exact ⟨congrArg _ hexec.1, hexec.2⟩
        · rintro ⟨rfl, rfl⟩
          have hexec : exec c p (Op.unlink (.current key)) w true (w.remove (.current key)) := by
            simp only [exec, habsent, if_false, and_self]
          exact call hexec
    dsimp only
    rw [bind_iff hunlink]
    exact runs_pure_iff r w'

/-- Recovery of a head that is readable, or damaged in a way that it takes for damage. -/
theorem runs_recoverLocked_of_raisesOnly
    (hlog : (recoverRecords c nameSpace key).eval (readView w.known) = some (.ok (records, torn)))
    (hcurrent : RaisesOnly (·.isStoreError = true) (currentVerdict c nameSpace key w)) :
    ∃ x w₁, w₁.disk (.current key) = (impliedHead records).map headEnvelope ∧
      ∀ r w', Runs (exec c p) (recoverLocked c nameSpace key) w r w' ↔ r = .ok x ∧ w' = w₁ := by
  have hverdict : currentVerdict c nameSpace key (w.logRepaired key records torn) =
      currentVerdict c nameSpace key w := by
    rw [currentVerdict, current_logRepaired, currentVerdict]
  -- what is read of `CURRENT`, which holds it unless it is invalid
  obtain ⟨existing, invalid, hexisting, hvalid⟩ : ∃ existing invalid,
      (existingHead c nameSpace key).eval (readView (w.logRepaired key records torn).known) =
        some (.ok (existing, invalid)) ∧
      (invalid = false → w.disk (.current key) = existing.map headEnvelope) := by
    rw [eval_existingHead_known, hverdict]
    cases hloaded : currentVerdict c nameSpace key w with
    | error e =>
      refine ⟨none, true, ?_, nofun⟩
      dsimp only
      rw [if_pos (hcurrent e hloaded)]
    | ok existing =>
      refine ⟨existing, false, rfl, fun _ => ?_⟩
      rw [currentVerdict] at hloaded
      cases hdata : w.disk (.current key) with
      | none =>
        rw [hdata] at hloaded
        cases hloaded
        rfl
      | some data =>
        rw [hdata] at hloaded
        obtain ⟨x, rfl, rfl⟩ := eq_headEnvelope_of_loadHead hloaded
        rfl
  cases hrepaired : invalid || decide (existing ≠ impliedHead records) with
  | true =>
    refine ⟨⟨nameSpace, impliedHead records, true, records.length, torn⟩,
      (w.logRepaired key records torn).withHead key (impliedHead records), current_withHead _, ?_⟩
    intro r w'
    rw [runs_recoverLocked_iff hlog, bind_iff (iff_of_eval (shows_known c p _) hexisting)]
    dsimp only
    rw [hrepaired, bind_iff runs_repairHead_iff]
    exact runs_pure_iff r w'
  | false =>
    -- `CURRENT` is what it should be, and stays as it is
    obtain ⟨hinvalid, hsame⟩ : invalid = false ∧ existing = impliedHead records := by
      simpa using hrepaired
    refine ⟨⟨nameSpace, impliedHead records, false, records.length, torn⟩,
      w.logRepaired key records torn, ?_, ?_⟩
    · rw [current_logRepaired, hvalid hinvalid, hsame]
    · intro r w'
      rw [runs_recoverLocked_iff hlog, bind_iff (iff_of_eval (shows_known c p _) hexisting)]
      dsimp only
      rw [hrepaired, repairHead_false, pure_bind]
      exact runs_pure_iff r w'

theorem runs_recoverLocked_of_error {e : Error}
    (hlog : (recoverRecords c nameSpace key).eval (readView w.known) = some (.ok (records, torn)))
    (hcurrent : currentVerdict c nameSpace key w = .error e) (he : e.isStoreError = false)
    (r : Except Error RecoveryResult) (w' : World) :
    Runs (exec c p) (recoverLocked c nameSpace key) w r w' ↔
      r = .error e ∧ w' = w.logRepaired key records torn := by
  have hexisting := eval_existingHead_known c nameSpace key (w.logRepaired key records torn)
  have hverdict : currentVerdict c nameSpace key (w.logRepaired key records torn) = .error e := by
    rw [currentVerdict, current_logRepaired, ← currentVerdict, hcurrent]
  rw [hverdict] at hexisting
  dsimp only at hexisting
  rw [he, if_neg (by simp)] at hexisting
  rw [runs_recoverLocked_iff hlog]
  exact bind_iff_error (iff_of_eval (shows_known c p _) hexisting) r w'

theorem runs_recover_inv (hkey : namespaceKey nameSpace = .ok key) (hpos : 0 < c.lockAttempts)
    (hcan : w.CanLock (.nameSpace key) false) (hinjector : c.failureInjector .duringRecovery = ∅)
    {r : Except Error RecoveryResult} (h : Runs (exec c p) (recover c nameSpace) w r w') :
    ∃ fd w₁, Runs (exec c p) (recoverLocked c nameSpace key)
      (w.lock (.nameSpace key) ⟨p, fd, false⟩) r w₁ ∧ w' = w₁.unlock (.nameSpace key) p fd := by
  rcases runs_recover_cases hkey h with ⟨fd, w₁, -, hbody, hunlock⟩ | ⟨-, e, -, hwhy⟩
  · exact ⟨fd, w₁, hbody, hunlock⟩
  · rcases hwhy with hinjected | hzero | hbusy
    · rw [hinjector] at hinjected
      exact absurd hinjected (Set.notMem_empty _)
    · omega
    · exact absurd hcan hbusy

/-- Recovery of a valid log is stopped exactly by contents of `CURRENT` that are not repairable. -/
theorem recover_iff_repairable (hkey : namespaceKey nameSpace = .ok key) (hpos : 0 < c.lockAttempts)
    (hcan : w.CanLock (.nameSpace key) false) (hfd : ∃ fd, ¬ w.FdInUse p fd)
    (hinjector : c.failureInjector .duringRecovery = ∅)
    (hlog : (recoverRecords c nameSpace key).eval (readView w.known) = some (.ok (records, torn))) :
    ((∃ r w', Runs (exec c p) (recover c nameSpace) w r w') ∧
      ∀ r w', Runs (exec c p) (recover c nameSpace) w r w' →
        (∃ x, r = .ok x) ∧ w'.disk (.current key) = (impliedHead records).map headEnvelope) ↔
      ∀ data, w.disk (.current key) = some data → Repairable c data := by
  have hrepairable : RaisesOnly (·.isStoreError = true) (currentVerdict c nameSpace key w) ↔
      ∀ data, w.disk (.current key) = some data → Repairable c data := by
    rw [currentVerdict]
    cases w.disk (.current key) with
    | none => simp [loadHead]
    | some data => simpa using raisesOnly_loadHead_iff
  obtain ⟨fd, hfd⟩ := hfd
  have hlocked : ∀ fd', (recoverRecords c nameSpace key).eval
      (readView (w.lock (.nameSpace key) ⟨p, fd', false⟩).known) = some (.ok (records, torn)) :=
    fun _ => hlog
  rw [← hrepairable]
  constructor
  · rintro ⟨-, hall⟩ e he
    by_contra hescapes
    have hbody := (runs_recoverLocked_of_error (p := p) (hlocked fd) he (by simpa using hescapes)
      (.error e) _).mpr ⟨rfl, rfl⟩
    have hruns : Runs (exec c p) (recover c nameSpace) w (.error e) _ :=
      (runs_hit_ok c _ w).bind_ok (runs_withNamespaceLock_of_fd hkey hpos hcan hfd hbody)
    obtain ⟨x, hx⟩ := (hall _ _ hruns).1
    cases hx
  · intro hcurrent
    constructor
    · obtain ⟨x, w₁, -, hbody⟩ := runs_recoverLocked_of_raisesOnly (p := p) (hlocked fd) hcurrent
      exact ⟨.ok x, _, (runs_hit_ok c _ w).bind_ok
        (runs_withNamespaceLock_of_fd hkey hpos hcan hfd ((hbody _ _).mpr ⟨rfl, rfl⟩))⟩
    · intro r w' hruns
      obtain ⟨fd', w₂, hbody, rfl⟩ := runs_recover_inv hkey hpos hcan hinjector hruns
      obtain ⟨x, w₁, hdisk, hiff⟩ := runs_recoverLocked_of_raisesOnly (p := p) (hlocked fd') hcurrent
      obtain ⟨rfl, rfl⟩ := (hiff _ _).mp hbody
      exact ⟨⟨x, rfl⟩, hdisk⟩

end Damage

/-! ## A namespace without publications -/

section Sample

attribute [local instance] sampleRuntime

/-- A directory in which nothing but `CURRENT` was written. -/
def currentOnly (key : Digest) (data : Bytes) : World := World.initial.write (.current key) data

theorem currentOnly_free (key : Digest) (data : Bytes) (p : StoreId) :
    (currentOnly key data).CanLock (.nameSpace key) false ∧ ¬ (currentOnly key data).FdInUse p 0 := by
  refine ⟨rfl, ?_⟩
  rintro ⟨file, h, hh, -⟩
  cases hh

/-- An empty `CURRENT` is removed. -/
theorem recover_iff_repairable_sample : ∃ key w, namespaceKey (lit "csv") = .ok key ∧
    w.disk (.current key) = some [] ∧
    ∀ r w', Runs (exec (sampleConfig 0) 0) (recover (sampleConfig 0) (lit "csv")) w r w' →
      w'.disk (.current key) = none := by
  obtain ⟨key, hkey⟩ : ∃ key, namespaceKey (lit "csv") = .ok key := ⟨_, rfl⟩
  have hdisk : (currentOnly key []).disk (.current key) = some [] := update_self ..
  obtain ⟨hcan, hfd⟩ := currentOnly_free key [] 0
  refine ⟨key, currentOnly key [], hkey, hdisk, fun r w' hruns => ?_⟩
  have hrepairable : Repairable (sampleConfig 0) [] := by
    refine .inr fun text htext => ?_
    cases htext
    have hloads : loads [] = .error .decode := rfl
    rw [hloads]
    simp
  have hall := (recover_iff_repairable (c := sampleConfig 0) hkey (by decide) hcan ⟨0, hfd⟩ rfl
    (eval_recoverRecords_of_none rfl)).mpr fun data hdata => by
      rw [hdisk] at hdata
      cases hdata
      exact hrepairable
  exact (hall.2 r w' hruns).2

/-- `NaN` in `CURRENT` makes every recovery fail. -/
theorem recover_of_nan : ∃ key w, namespaceKey (lit "csv") = .ok key ∧
    w.CanLock (.nameSpace key) false ∧
    (recoverRecords (sampleConfig 0) (lit "csv") key).eval (readView w.known) =
      some (.ok ([], false)) ∧
    w.disk (.current key) = some (encodeAscii (lit "NaN")) ∧
    ∀ r w', Runs (exec (sampleConfig 0) 0) (recover (sampleConfig 0) (lit "csv")) w r w' →
      r = .error (.builtin .valueError) := by
  obtain ⟨key, hkey⟩ : ∃ key, namespaceKey (lit "csv") = .ok key := ⟨_, rfl⟩
  have hdisk : (currentOnly key (encodeAscii (lit "NaN"))).disk (.current key) =
      some (encodeAscii (lit "NaN")) := update_self ..
  obtain ⟨hcan, -⟩ := currentOnly_free key (encodeAscii (lit "NaN")) 0
  have hlog : (recoverRecords (sampleConfig 0) (lit "csv") key).eval
      (readView (currentOnly key (encodeAscii (lit "NaN"))).known) = some (.ok ([], false)) :=
    eval_recoverRecords_of_none rfl
  refine ⟨key, _, hkey, hcan, hlog, hdisk, fun r w' hruns => ?_⟩
  have hverdict : currentVerdict (sampleConfig 0) (lit "csv") key
      (currentOnly key (encodeAscii (lit "NaN"))) = .error (.builtin .valueError) := by
    have hload : canonicalLoad (sampleConfig 0)
        ((sampleConfig 0).pathText (Path.current key).text) (some (encodeAscii (lit "NaN"))) =
          .error (.builtin .valueError) := rfl
    rw [currentVerdict, hdisk, loadHead, hload, error_bind]
  obtain ⟨fd, w₁, hbody, -⟩ := runs_recover_inv hkey (by decide) hcan rfl hruns
  -- taking the lock changes no file
  have hlocked := runs_recoverLocked_of_error (p := 0)
    (w := (currentOnly key (encodeAscii (lit "NaN"))).lock (.nameSpace key) ⟨0, fd, false⟩) hlog hverdict
    rfl r w₁
  exact (hlocked.mp hbody).1

end Sample

end Generation
