import Tds.Generation.Proofs.Publication

/-!
# Leases and retirement

The memory of a store and its pin locks are its own. What the store's attributes say about its pins,
the locks it holds and the leases it has given out agree whenever no call of the store is running. A
generation is retired under the exclusive pin lock, which no store can have while another holds a
lease.
-/

namespace Generation

open Python Process

section Retire

variable [Runtime] {config : StoreId → StoreConfig} {strict : Prop} {p : StoreId} {w w' : World}
  {key : Digest} {m : GenerationManifest}

theorem safe_writeRetirement {fd : Nat} (hm : w.Has m)
    (hkey : namespaceKey m.nameSpace.val = .ok key) (hold : w.Holds p (.nameSpace key))
    (hfd : ⟨p, fd, false⟩ ∈ w.locks (.pin m.generationRoot)) (hlive : ¬ w.Retired m.generationRoot)
    (hdispensable : Dispensable w key m.generationRoot) :
    Safe (discipline config strict) p
      (writeRetirement m.generationRoot m (m.receipt .published))
      (fun _ w' => Stays p w w') w := by
  have hinit : GenerationLifecycleReceipt.init (rootJson m.generationRoot)
      (rootJson m.manifestRoot) .retired (natJson 4) (rootJson (m.receipt .published).receiptRoot) =
      .ok (m.receipt .retired) :=
    GenerationLifecycleReceipt.init_eq m.generationRoot m.manifestRoot .retired
      (some (m.receipt .published).receiptRoot) rfl
  unfold writeRetirement
  rw [hinit, Prog.liftM_ok_bind]
  refine Safe.bind_done ?_
  refine Safe.call fun w₁ hr hi a w₂ he _ => ?_
  obtain rfl : w₂ = w₁.write (.receipt m.generationRoot .retired) (m.receipt .retired).encode := he
  have hnone : w₁.disk (.receipt m.generationRoot .retired) = none :=
    not_not.mp fun h => hlive (hr.retired m hm (.inr ⟨key, hkey, hold⟩) h)
  obtain ⟨hl, hc, -⟩ := hr.nameSpace key hold
  have hretires : Retires strict p w₁ m.generationRoot :=
    ⟨m, key, fd, rfl, hr.has hm, hkey, (hr.holds _).mpr hold, (hr.locks _ _ rfl).mpr hfd,
      fun _ => hdispensable.congr hl hc⟩
  obtain ⟨hkeeps, hown, -⟩ := hi.keeps_addFile (p := p) _ hnone trivial (by simp) (by simp)
    fun g state h => by
      obtain ⟨rfl, rfl⟩ := Path.receipt.inj h
      exact ⟨⟨m, rfl, rfl, hr.has hm⟩, fun _ => hretires⟩
  exact ⟨hkeeps, fun w₃ hr' _ => (hr.toStays.trans hown).trans hr'.toStays⟩

/-- After recovery, a generation that is not the head's can be dispensed with. -/
theorem Recovered.dispensable {nameSpace : Str} (h : Recovered nameSpace key w) {g : Root}
    (hg : (impliedHead (w.records key)).map (·.generationRoot) ≠ some g) : Dispensable w key g := by
  constructor
  · intro r hr hrg
    refine hg ?_
    rw [impliedHead_generationRoot, hr, ← hrg]
    rfl
  · intro r _ hc hrg
    rw [h.current] at hc
    obtain ⟨head, hhead, henv⟩ := Option.map_eq_some_iff.mp hc
    refine hg ?_
    rw [hhead, headEnvelope_injective henv, ← hrg]
    rfl

theorem Inv.lease_of_exclusive (hi : Inv config strict w) {g : Root} {h : Holder}
    (hh : h ∈ w.locks (.pin g)) (hs : h.shared = false) {q : StoreId} {i : Nat}
    {l : GenerationLease} (hl : (w.memory q).leases[i]? = some l) (hopen : l.closed = false)
    (hclosing : ¬ w.Closing q i) : g ≠ l.manifest.generationRoot := by
  rintro rfl
  rw [← hi.exclusive _ h hh hs _ (hi.leases q i l hl hopen hclosing).1] at hs
  cases hs

theorem safe_retireExclusive (hm : w.Has m) (hkey : namespaceKey m.nameSpace.val = .ok key)
    (hold : w.Holds p (.nameSpace key)) (hlive : ¬ w.Retired m.generationRoot)
    (hdispensable : Dispensable w key m.generationRoot) :
    Safe (discipline config strict) p
      (do
        let pinFd ← (acquireAdvisoryLock (config p) (.pin m.generationRoot) false 1).attempt fun
          | .ok fd => pure fd
          | .error (.conflict _) => throw (storeError "pinned generation cannot be retired")
          | .error e => throw e
        (writeRetirement m.generationRoot m (m.receipt .published)).tryFinally
          (releaseAdvisoryLock (.pin m.generationRoot) pinFd))
      (fun _ w' => Stays p w w') w := by
  refine Safe.bind (R := fun r w' => (∀ fd, r = .ok fd → ∃ w₁, Rely p w w₁ ∧
      w₁.CanLock (.pin m.generationRoot) false ∧
      Rely p (w₁.lock (.pin m.generationRoot) ⟨p, fd, false⟩) w') ∧
    ∀ e, r = .error e → Rely p w w') (Safe.attempt ((safe_acquireAdvisoryLock _ _ (by simp) 1).mono ?_))
    ?_ fun e w' _ hr => (hr.2 e rfl).toStays
  · intro r w₁ _ h
    cases r with
    | ok fd =>
      obtain ⟨w₀, hr, -, hcan, hr'⟩ := h
      refine fun w₂ hr₂ _ => ⟨fun fd' hfd => ?_, by simp⟩
      cases hfd
      exact ⟨w₀, hr, hcan, hr'.trans hr₂⟩
    | error e => cases e <;> exact fun w₂ hr₂ _ => ⟨by simp, fun _ _ => Rely.trans h hr₂⟩
  · rintro fd w₂ _ ⟨hlocked, -⟩
    obtain ⟨w₁, hr, hcan, hr'⟩ := hlocked fd rfl
    have hempty : w₁.locks (.pin m.generationRoot) = [] := hcan
    -- everything that was known before the lock is still known
    have hhas : (w₁.lock (.pin m.generationRoot) ⟨p, fd, false⟩).Has m := hr.has hm
    have hold₁ : (w₁.lock (.pin m.generationRoot) ⟨p, fd, false⟩).Holds p (.nameSpace key) := by
      obtain ⟨h, hmem, hh⟩ := (hr.holds _).mpr hold
      exact ⟨h, World.mem_lock.mpr (.inl hmem), hh⟩
    obtain ⟨hl, hc, -⟩ := hr.nameSpace key hold
    obtain ⟨hl', hc', -⟩ := hr'.nameSpace key hold₁
    have hlive₂ : ¬ w₂.Retired m.generationRoot := fun h =>
      hlive (hr.retired m hm (.inr ⟨key, hkey, hold⟩)
        (hr'.retired m hhas (.inr ⟨key, hkey, hold₁⟩) h))
    have hfd : ⟨p, fd, false⟩ ∈ w₂.locks (.pin m.generationRoot) :=
      (hr'.locks _ _ rfl).mpr (World.mem_lock.mpr (.inr ⟨rfl, rfl⟩))
    refine Safe.tryFinally (safe_writeRetirement (hr'.has hhas) hkey ((hr'.holds _).mpr hold₁) hfd
      hlive₂ (hdispensable.congr (hl'.trans hl) (hc'.trans hc))) ?_
    intro r w₃ _ hs₃
    refine Safe.call fun w₄ hr₄ hi₄ a w₅ he _ => ?_
    obtain rfl : w₅ = w₄.unlock (.pin m.generationRoot) p fd := he
    have hs₄ := (hr'.toStays.trans hs₃).trans hr₄.toStays
    have hfd₄ : ⟨p, fd, false⟩ ∈ w₄.locks (.pin m.generationRoot) :=
      (hs₄.locks _ _ rfl).mpr (World.mem_lock.mpr (.inr ⟨rfl, rfl⟩))
    refine ⟨hi₄.keeps_unlock fun i l hl hopen hclosing hf => ?_, fun w₆ hr₆ _ => ?_⟩
    · exact absurd (LockFile.pin.inj hf) (hi₄.lease_of_exclusive hfd₄ rfl hl hopen hclosing)
    · refine hr.toStays.bracket ?_ hs₄ hr₆.toStays
      rintro ⟨h, hmem, -⟩
      rw [hempty] at hmem
      cases hmem

theorem safe_retireLocked {nameSpace : Str} {g : Root} (hi : Inv config strict w)
    (hold : w.Holds p (.nameSpace key)) (hkey : namespaceKey nameSpace = .ok key) :
    Safe (discipline config strict) p (retireLocked (config p) nameSpace g key)
      (fun _ w' => Stays p w w') w := by
  refine Safe.bind (safe_recoverLocked _ hi hold) ?_ fun e w' _ h => h.1.toStays
  rintro recovery w₁ hi₁ ⟨hq₁, hrec₁, hok, -⟩
  obtain ⟨hrecovered, ⟨-, hhead, -⟩⟩ := hok recovery rfl
  have hold₁ := (hq₁.holds _).mpr hold
  refine Safe.liftM_bind (fun _ hnot => ?_) fun e w' _ hr _ => hq₁.toStays.trans hr.toStays
  have hnot := raiseIf_eq_ok.mp hnot
  rw [hhead, ← hrec₁] at hnot
  refine Safe.bind (safe_verifyGeneration g) ?_ fun e w' _ h => hq₁.toStays.trans h.1.toStays
  rintro x w₂ hi₂ ⟨hr₂, hverified⟩
  obtain ⟨m, rfl, hm, -, rfl⟩ := hverified x rfl
  have hs₂ := hq₁.toStays.trans hr₂.toStays
  refine Safe.liftM_bind (fun _ hname => ?_) fun e w' _ hr _ => hs₂.trans hr.toStays
  obtain rfl := not_not.mp (raiseIf_eq_ok.mp hname)
  have hold₂ := (hr₂.holds _).mpr hold₁
  have hguards₂ : w₂.Guards p m := ⟨key, hkey, hold₂⟩
  refine Safe.bind (safe_of_settled (eval_readFile (settledDisk_retired hm (.inr hguards₂)))) ?_
    fun e w' _ h => hs₂.trans h.2.toStays
  rintro contents w₃ hi₃ ⟨h, hr₃⟩
  obtain rfl := Except.ok.inj h
  have hs₃ := hs₂.trans hr₃.toStays
  refine Safe.liftM_bind (fun existing hexisting => ?_) fun e w' _ hr _ => hs₃.trans hr.toStays
  cases existing with
  | some receipt => exact fun w' hr _ => hs₃.trans hr.toStays
  | none =>
    have hnone : w₂.disk (.receipt m.generationRoot .retired) = none := by
      cases hd : w₂.disk (.receipt m.generationRoot .retired) with
      | none => rfl
      | some data =>
        obtain ⟨m', hg, rfl, hm'⟩ := hi₂.receipts _ _ data hd
        obtain rfl := hm'.unique hm hg
        rw [hd, loadRetiredReceipt_encode] at hexisting
        cases hexisting
    obtain ⟨hl, hc, -⟩ := (hr₂.trans hr₃).nameSpace key hold₁
    refine (safe_retireExclusive (hr₃.has hm) hkey ((hr₃.holds _).mpr hold₂) ?_
      ((hrecovered.dispensable hnot).congr hl hc)).mono fun r w' _ hs => hs₃.trans hs
    exact fun h => hr₃.retired m hm (.inr hguards₂) h hnone

theorem safe_retire (nameSpace generation : Str) :
    Safe (discipline config strict) p (retire (config p) nameSpace generation)
      (fun _ w' => Stays p w w') w := by
  refine Safe.liftM_bind (fun root _ => ?_) fun e w' _ hr _ => hr.toStays
  refine (stays_withNamespaceLock (P := fun _ _ => True) (fun _ _ _ _ _ => trivial)
    (fun _ _ _ => trivial) ?_).mono fun r w' _ h => h.1
  intro key w₁ hkey hi₁ hentered
  exact (safe_retireLocked hi₁ hentered.holds hkey).mono fun r w' _ h => ⟨h, trivial⟩

end Retire

end Generation
