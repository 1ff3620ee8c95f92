import Tds.Generation.Proofs.Lock

/-!
# Recovery

Under the lock of a namespace, recovery reads the records of the log, drops a torn tail and makes
`CURRENT` the head that the last record implies. It never changes the records.
-/

namespace Generation

open Python Process Option Function World

section NameSpace

variable [Runtime] {config : StoreId → StoreConfig} {strict : Prop} {p : StoreId} {w w' : World}
  {key : Digest}

theorem headEnvelope_injective {h h' : GenerationHead} (he : headEnvelope h = headEnvelope h') :
    h = h' := by
  let c : StoreConfig := ⟨[], .default, 0, fun _ => ∅⟩
  have hl := loadHead_headEnvelope c h.nameSpace.val [] h
  have hl' := loadHead_headEnvelope c h.nameSpace.val [] h'
  rw [if_pos rfl, he, hl'] at hl
  split at hl
  · exact (some.inj (Except.ok.inj hl)).symm
  · cases hl

section

variable (hold : w.Holds p (.nameSpace key))
include hold

theorem Rely.records_eq (h : Rely p w w') :
    w'.records key = w.records key :=
  records_congr (h.nameSpace key hold).1

theorem Inv.keeps_of_sameRecords (hi : Inv config strict w)
    {disk : Path → Option Bytes}
    (hdisk : ∀ path, path ≠ .log key → path ≠ .current key → disk path = w.disk path)
    {t : Bytes} (hlog : LogHolds (disk (.log key)) (w.records key) t)
    (hcurrent : ∀ data, disk (.current key) = some data → w.disk (.current key) = some data ∨
      ∃ r, (w.records key).getLast? = some r ∧ data = headEnvelope (headOf r)) :
    (discipline config strict).Keeps p w { w with disk } ∧ Quiet p w { w with disk } ∧
      World.records { w with disk } key = w.records key := by
  have hrecords : records { w with disk } key = w.records key :=
    records_of_logHolds hlog
  have hok := hi.logs key
  have hhas : ∀ m, w.Has m → World.Has { w with disk } m :=
    fun m hm => (hdisk (.manifest m.generationRoot) (by simp) (by simp)).trans hm
  have hlogOk : LogOk config { w with disk } key := by
    constructor <;> simp only [hrecords]
    · exact ⟨t, hlog⟩
    · exact hok.chain
    · exact hok.lineage
    · intro r hr
      obtain ⟨hkey, m, hb, hm⟩ := hok.binds r hr
      exact ⟨hkey, m, hb, hhas m hm⟩
    · exact hok.limit
    · intro data hd
      rcases hcurrent data hd with hd | ⟨r, hr, rfl⟩
      · exact hok.current data hd
      · exact ⟨r, List.mem_of_getLast? hr, rfl⟩
    · exact hok.commits
    · exact hok.expects
  have hkeeps := hi.keeps_of_nameSpace (p := p) hold hdisk (fun _ _ => rfl)
    (hrecords ▸ List.prefix_refl _) (.inl rfl) hlogOk fun hs g hg => ?_
  · exact ⟨hkeeps.1, ⟨hkeeps.2.1, fun _ _ _ h => h, fun m _ _ => hkeeps.2.2 _⟩, hrecords⟩
  · have halive := hi.alive hs key g hg
    constructor <;> simp only [hrecords]
    · exact halive.last
    · intro r hr hd
      rcases hcurrent _ hd with hd | ⟨r', hr', he⟩
      · exact halive.current r hr hd
      · have hhead := congrArg GenerationHead.generationRoot (headEnvelope_injective he)
        exact fun h => halive.last r' hr' (hhead.symm.trans h)

/-- An operation under the lock of a namespace, and what holds of the log and of `CURRENT` after
it. -/
theorem safe_sameRecords {o : Op} {Q : o.Answer → Option Bytes → Option Bytes → Prop}
    (h : ∀ w₁ a w₂, Inv config strict w₁ → w₁.Holds p (.nameSpace key) →
      w₁.disk (.log key) = w.disk (.log key) → w₁.disk (.current key) = w.disk (.current key) →
      exec (config p) p o w₁ a w₂ → ((discipline config strict).Keeps p w₁ w₂ ∧ Quiet p w₁ w₂ ∧
        w₂.records key = w₁.records key) ∧ Q a (w₂.disk (.log key)) (w₂.disk (.current key))) :
    Safe (discipline config strict) p (Prog.call o : Proc o.Answer)
      (fun r w' => ∃ a, r = .ok a ∧ Quiet p w w' ∧ w'.records key = w.records key ∧
        Q a (w'.disk (.log key)) (w'.disk (.current key))) w := by
  refine Safe.call fun w₁ hr hi a w₂ he _ => ?_
  have hold₁ := (hr.holds _).mpr hold
  obtain ⟨hl, hc, -⟩ := hr.nameSpace key hold
  obtain ⟨⟨hkeeps, hquiet, hrecords⟩, hQ⟩ := h w₁ a w₂ hi hold₁ hl hc he
  refine ⟨hkeeps, fun w₃ hr' _ => ⟨a, rfl, ?_, ?_, ?_⟩⟩
  · exact (hr.toQuiet.trans hquiet).trans hr'.toQuiet
  · have hold₂ := (hquiet.holds _).mpr hold₁
    exact (hr'.records_eq hold₂).trans (hrecords.trans (hr.records_eq hold))
  · have hold₂ := (hquiet.holds _).mpr hold₁
    obtain ⟨hl', hc', -⟩ := hr'.nameSpace key hold₂
    rwa [hl', hc']

theorem safe_rewritePublicationLog :
    Safe (discipline config strict) p (rewritePublicationLog key (w.records key))
      (fun r w' => ∃ a, r = .ok a ∧ Quiet p w w' ∧ w'.records key = w.records key ∧
        (w'.disk (.log key) = some (encodeLog (w.records key)) ∧
          w'.disk (.current key) = w.disk (.current key))) w := by
  refine safe_sameRecords (o := .replace (.log key) (encodeLog (w.records key)))
    (Q := fun _ log current => log = some (encodeLog (w.records key)) ∧
      current = w.disk (.current key)) hold fun w₁ a w₂ hi₁ hold₁ hl hc he => ?_
  obtain rfl : w₂ = w₁.write (.log key) (encodeLog (w.records key)) := he
  have hrecords : w₁.records key = w.records key := records_congr hl
  refine ⟨hi₁.keeps_of_sameRecords (t := []) hold₁ (fun path h _ => write_of_ne h _)
    ⟨?_, by simp, by simp⟩ fun data hd => .inl ?_, write_self _ _,
    (write_of_ne (by simp) _).trans hc⟩
  · rw [update_self, hrecords, List.append_nil]
    rfl
  · rwa [update_of_ne (by simp)] at hd

theorem safe_replaceCurrent {r : GenerationPublicationRecord}
    (hr : (w.records key).getLast? = some r) :
    Safe (discipline config strict) p (replaceFile (.current key) (headEnvelope (headOf r)))
      (fun r' w' => ∃ a, r' = .ok a ∧ Quiet p w w' ∧ w'.records key = w.records key ∧
        (w'.disk (.log key) = w.disk (.log key) ∧
          w'.disk (.current key) = some (headEnvelope (headOf r)))) w := by
  refine safe_sameRecords (o := .replace (.current key) (headEnvelope (headOf r)))
    (Q := fun _ log current => log = w.disk (.log key) ∧
      current = some (headEnvelope (headOf r))) hold fun w₁ a w₂ hi₁ hold₁ hl hc he => ?_
  obtain rfl : w₂ = w₁.write (.current key) (headEnvelope (headOf r)) := he
  have hrecords : w₁.records key = w.records key := records_congr hl
  obtain ⟨tail, htail⟩ := (hi₁.logs key).holds
  refine ⟨hi₁.keeps_of_sameRecords (t := tail) hold₁ (fun path _ h => write_of_ne h _) ?_
    fun data hd => .inr ⟨r, hrecords ▸ hr, ?_⟩, (write_of_ne (by simp) _).trans hl,
    write_self _ _⟩
  · rwa [update_of_ne (by simp)]
  · rw [update_self] at hd
    exact (some.inj hd).symm

end

/-- What recovery leaves behind: a log without torn tail, whose last record `CURRENT` follows. -/
structure Recovered (nameSpace : Str) (key : Digest) (w : World) : Prop where
  nameSpace : ∀ r ∈ w.records key, r.nameSpace.val = nameSpace
  log : w.log key = encodeLog (w.records key)
  current : w.disk (.current key) = (impliedHead (w.records key)).map headEnvelope

theorem Recovered.congr {nameSpace : Str} (h : Recovered nameSpace key w)
    (hlog : w'.disk (.log key) = w.disk (.log key))
    (hcurrent : w'.disk (.current key) = w.disk (.current key)) :
    Recovered nameSpace key w' := by
  have hrecords := records_congr hlog
  constructor
  · rw [hrecords]
    exact h.nameSpace
  · rw [World.log, hlog, hrecords]
    exact h.log
  · rw [hcurrent, hrecords]
    exact h.current

structure Reports (nameSpace : Str) (key : Digest) (w : World) (x : RecoveryResult) : Prop where
  nameSpace : x.nameSpace = nameSpace
  head : x.head = impliedHead (w.records key)
  validRecords : x.validRecords = (w.records key).length

/-- The log is the log of this namespace, and within the limits of the store that reads it. -/
structure Readable (c : StoreConfig) (nameSpace : Str) (key : Digest) (w : World) : Prop where
  nameSpace : ∀ r ∈ w.records key, r.nameSpace.val = nameSpace
  limit : w.records key ≠ [] → (w.records key).length ≤ c.limits.maxPublicationRecords.val
  accepts : ∀ r ∈ w.records key, ∀ m, Binds m r → w.Has m → Accepts c m

theorem has_of_stored {m : GenerationManifest} (h : Stored (settledDisk p w) m) : w.Has m := by
  have hm := h.manifest
  unfold settledDisk at hm
  split at hm
  · exact some.inj hm
  · cases hm

theorem safe_repairLog (hold : w.Holds p (.nameSpace key)) {tail : Bytes}
    (htail : LogHolds (w.disk (.log key)) (w.records key) tail) :
    Safe (discipline config strict) p (repairLog key (w.records key) (decide (tail ≠ [])))
      (fun r w' => r = .ok () ∧ Quiet p w w' ∧ w'.records key = w.records key ∧
        w'.log key = encodeLog (w.records key) ∧
        w'.disk (.current key) = w.disk (.current key)) w := by
  have hlog : w.log key = encodeLog (w.records key) ↔ tail = [] := by
    rw [log, htail.eq, List.append_right_eq_self]
  unfold repairLog
  by_cases ht : tail = []
  · rw [if_neg (by simpa using ht)]
    intro w' hr _
    obtain ⟨hl, hc, -⟩ := hr.nameSpace key hold
    refine ⟨rfl, hr.toQuiet, hr.records_eq hold, ?_, hc⟩
    rw [log, hl]
    exact hlog.mpr ht
  · rw [if_pos (by simpa using ht)]
    refine (safe_rewritePublicationLog hold).mono ?_
    rintro r w' _ ⟨⟨⟩, rfl, hq, hrec, hl, hc⟩
    refine ⟨rfl, hq, hrec, ?_, hc⟩
    rw [log, hl]
    rfl

theorem Inv.current_eq (hi : Inv config strict w) (key : Digest) :
    ∃ head : Option GenerationHead, w.disk (.current key) = head.map headEnvelope ∧
      ∀ x, head = some x → ∃ r ∈ w.records key, x = headOf r := by
  cases hd : w.disk (.current key) with
  | none => exact ⟨none, rfl, by simp⟩
  | some data =>
    obtain ⟨r, hr, rfl⟩ := (hi.logs key).current data hd
    exact ⟨some (headOf r), rfl, fun x hx => ⟨r, hr, (some.inj hx).symm⟩⟩

theorem safe_repairHead (hold : w.Holds p (.nameSpace key)) {head : Option GenerationHead}
    (hcurrent : w.disk (.current key) = head.map headEnvelope)
    (hhead : ∀ x, head = some x → ∃ r ∈ w.records key, x = headOf r) :
    Safe (discipline config strict) p
      (repairHead key (impliedHead (w.records key)) (decide (head ≠ impliedHead (w.records key))))
      (fun r w' => r = .ok () ∧ Quiet p w w' ∧ w'.records key = w.records key ∧
        w'.disk (.log key) = w.disk (.log key) ∧
        w'.disk (.current key) = (impliedHead (w.records key)).map headEnvelope) w := by
  unfold repairHead
  by_cases heq : head = impliedHead (w.records key)
  · rw [if_neg (by simpa using heq)]
    intro w' hr _
    obtain ⟨hl, hc, -⟩ := hr.nameSpace key hold
    exact ⟨rfl, hr.toQuiet, hr.records_eq hold, hl, by rw [hc, hcurrent, heq]⟩
  · rw [if_pos (by simpa using heq)]
    unfold impliedHead at heq ⊢
    cases hl : (w.records key).getLast? with
    | none =>
      -- without records there is no head that `CURRENT` could name
      rw [hl] at heq
      obtain ⟨x, hx⟩ := ne_none_iff_exists'.mp heq
      obtain ⟨r, hr, -⟩ := hhead x hx
      rw [List.getLast?_eq_none_iff.mp hl] at hr
      cases hr
    | some r =>
      refine (safe_replaceCurrent hold hl).mono ?_
      rintro _ w' _ ⟨⟨⟩, rfl, hq, hrec, hlog, hc⟩
      exact ⟨rfl, hq, hrec, hlog, hc⟩

theorem safe_recoverLocked (nameSpace : Str) (hi : Inv config strict w)
    (hold : w.Holds p (.nameSpace key)) :
    Safe (discipline config strict) p (recoverLocked (config p) nameSpace key)
      (fun r w' => Quiet p w w' ∧ w'.records key = w.records key ∧
        (∀ x, r = .ok x → Recovered nameSpace key w' ∧ Reports nameSpace key w x) ∧
        ((∃ x, r = .ok x) ↔ Readable (config p) nameSpace key w)) w := by
  have hok := hi.logs key
  obtain ⟨tail, htail⟩ := hok.holds
  obtain ⟨result, heval, hresult⟩ := eval_recoverRecords (config p) nameSpace
    (settledDisk_log hold) htail hok.chain
    (fun r hr => by
      obtain ⟨-, m, hb, hm⟩ := hok.binds r hr
      exact ⟨m, hb, stored_of_has hi hm⟩) hok.lineage
  have haccepted : RecordsAccepted (config p) (settledDisk p w) (w.records key) ↔
      ∀ r ∈ w.records key, ∀ m, Binds m r → w.Has m → Accepts (config p) m :=
    forall₄_congr fun _ _ _ _ => imp_congr_left ⟨has_of_stored, stored_of_has hi⟩
  refine Safe.bind (safe_of_settled heval) ?_ ?_
  · rintro x w₁ hi₁ ⟨rfl, hr₁⟩
    obtain ⟨rfl, hns, hlimit, haccepts⟩ := (hresult x).mp rfl
    have hreadable : Readable (config p) nameSpace key w := ⟨hns, hlimit, haccepted.mp haccepts⟩
    have hold₁ := (hr₁.holds _).mpr hold
    have hrec₁ := hr₁.records_eq hold
    obtain ⟨hl₁, hc₁, -⟩ := hr₁.nameSpace key hold
    dsimp only
    rw [← hrec₁]
    refine Safe.bind (safe_repairLog hold₁ (by rwa [hl₁, hrec₁])) ?_ ?_
    · rintro ⟨⟩ w₂ hi₂ ⟨-, hq₂, hrec₂, hlog₂, hc₂⟩
      have hold₂ := (hq₂.holds _).mpr hold₁
      rw [expectedHead_eq (by rwa [hrec₁]), Prog.liftM_ok_bind]
      obtain ⟨head, hcurrent, hhead⟩ := hi₂.current_eq key
      have hexisting : (existingHead (config p) nameSpace key).eval (readView (settledDisk p w₂)) =
          some (.ok (head, false)) := by
        refine eval_existingHead (config p) ((settledDisk_current hold₂).trans (by rw [hcurrent]))
          fun x hx => ?_
        obtain ⟨r, hr, rfl⟩ := hhead x hx
        exact hns r (by rwa [← hrec₁, ← hrec₂])
      refine Safe.bind (safe_of_settled hexisting) ?_ ?_
      · rintro _ w₃ hi₃ ⟨h, hr₃⟩
        obtain rfl := Except.ok.inj h
        have hold₃ := (hr₃.holds _).mpr hold₂
        have hrec₃ := hr₃.records_eq hold₂
        obtain ⟨hl₃, hc₃, -⟩ := hr₃.nameSpace key hold₂
        have hrec : w₃.records key = w₁.records key := hrec₃.trans hrec₂
        dsimp only
        rw [Bool.false_or, ← hrec]
        refine Safe.bind_done ((safe_repairHead hold₃ (hc₃.trans hcurrent) ?_).mono ?_)
        · rwa [hrec₃]
        · rintro r w₄ _ ⟨rfl, hq₄, hrec₄, hl₄, hc₄⟩
          refine ⟨((hr₁.toQuiet.trans hq₂).trans hr₃.toQuiet).trans hq₄,
            hrec₄, fun x hx => ?_, iff_of_true ⟨_, rfl⟩ hreadable⟩
          obtain rfl := Except.ok.inj hx
          refine ⟨⟨?_, ?_, by rw [hrec₄, hc₄]⟩, rfl, ?_, ?_⟩
          · rwa [hrec₄, hrec, hrec₁]
          · rw [log, hl₄, hl₃, hrec₄, hrec]
            exact hlog₂
          · rw [hrec, hrec₁]
          · rw [hrec, hrec₁]
      · rintro e w₃ _ ⟨h, -⟩
        cases h
    · rintro e w₂ _ ⟨h, -⟩
      cases h
  · rintro e w₁ _ ⟨rfl, hr₁⟩
    refine ⟨hr₁.toQuiet, hr₁.records_eq hold, by simp, iff_of_false (by simp) fun hread => ?_⟩
    cases (hresult _).mpr ⟨rfl, hread.nameSpace, hread.limit, haccepted.mpr hread.accepts⟩

/-- `recover`: the head that it returns is the one that the records imply which it found. -/
theorem safe_recover (nameSpace : Str) :
    Safe (discipline config strict) p (recover (config p) nameSpace)
      (fun r w' => Stays p w w' ∧ ∀ x, r = .ok x → ∃ key, namespaceKey x.nameSpace = .ok key ∧
        x.validRecords ≤ (w'.records key).length ∧
        x.head = impliedHead ((w'.records key).take x.validRecords)) w := by
  refine Safe.bind (safe_of_asks (asks_hit _)) ?_ fun e w' _ hr => ⟨hr.toStays, by simp⟩
  rintro ⟨⟩ w₁ _ hr₁
  refine (stays_withNamespaceLock ?_ (fun e w' _ => ?_) ?_).mono
    fun r w' _ h => ⟨hr₁.toStays.trans h.1, h.2⟩
  · intro r w₂ w₃ hc hP x hx
    obtain ⟨key, hkey, hle, hhead⟩ := hP x hx
    refine ⟨key, hkey, hle.trans (hc.records key).length_le, ?_⟩
    rw [hhead, take_eq_of_isPrefix (hc.records key) hle]
  · simp
  · intro key w₂ hkey hi₂ hentered
    refine (safe_recoverLocked nameSpace hi₂ hentered.holds).mono ?_
    rintro r w₃ _ ⟨hq, hrec, hok, -⟩
    refine ⟨hq.toStays, fun x hx => ?_⟩
    obtain ⟨-, hreports⟩ := hok x hx
    refine ⟨key, hreports.nameSpace ▸ hkey, by rw [hreports.validRecords, hrec], ?_⟩
    rw [hreports.head, hreports.validRecords, hrec, List.take_length]

end NameSpace

end Generation
