import Tds.Generation.Proofs.Create

/-!
# Locks

Taking and releasing an advisory lock concern no other store. What a store does between the two is
proved in the state with the lock; afterwards the store's locks are those it had before.
-/

namespace Generation

open Python Process World

section Locks

variable [Runtime] {config : StoreId → StoreConfig} {strict : Prop} {p : StoreId} {w w' : World}

/-- Logs only grow, and the call of the store completes no record. -/
structure Calm (p : StoreId) (w w' : World) : Prop extends Grows w w' where
  running : w'.running p = w.running p
  history : w.history <+: w'.history
  committed : ∀ key id, w.running p = some id → id ∈ w'.commits key → id ∈ w.commits key

theorem Quiet.calm (h : Quiet p w w') : Calm p w w' :=
  ⟨h.toGrows, h.running, h.history, h.committed⟩

theorem Calm.trans {w₁ w₂ w₃ : World} (h : Calm p w₁ w₂) (h' : Calm p w₂ w₃) : Calm p w₁ w₃ where
  toGrows := h.toGrows.trans h'.toGrows
  running := h'.running.trans h.running
  history := h.history.trans h'.history
  committed key id hid hc := h.committed key id hid (h'.committed key id (h.running ▸ hid) hc)

variable {file : LockFile} {fd : Nat}

namespace World

theorem calm_lock (w : World) (file : LockFile) (holder : Holder) : Calm p w (w.lock file holder) :=
  ⟨⟨fun _ => List.prefix_refl _, fun _ => List.prefix_refl _⟩, rfl, List.prefix_refl _,
    fun _ _ _ h => h⟩

theorem calm_unlock (w : World) (file : LockFile) (fd : Nat) : Calm p w (w.unlock file p fd) :=
  ⟨⟨fun _ => List.prefix_refl _, fun _ => List.prefix_refl _⟩, rfl, List.prefix_refl _,
    fun _ _ _ h => h⟩

theorem mem_lock {file' : LockFile} {holder h : Holder} :
    h ∈ (w.lock file holder).locks file' ↔ h ∈ w.locks file' ∨ file' = file ∧ h = holder := by
  by_cases hf : file' = file
  · subst hf
    simp [lock, or_comm]
  · simp [lock, hf]

theorem mem_unlock {file' : LockFile} {h : Holder} :
    h ∈ (w.unlock file p fd).locks file' ↔
      h ∈ w.locks file' ∧ ¬ (file' = file ∧ h.store = p ∧ h.fd = fd) := by
  by_cases hf : file' = file
  · subst hf
    simp only [unlock, Function.update_self, List.mem_filter, true_and]
    refine and_congr_right fun _ => ?_
    by_cases hs : h.store = p <;> simp [hs]
  · simp [unlock, hf]

end World

theorem Inv.keeps_lock (hi : Inv config strict w) {shared : Bool} (hcan : w.CanLock file shared)
    (hns : ∀ key, file = .nameSpace key → shared = false) :
    (discipline config strict).Keeps p w (w.lock file ⟨p, fd, shared⟩) := by
  -- an exclusive lock is taken alone, a shared one beside shared ones
  have hexclusive : ∀ file', ∀ h ∈ (w.lock file ⟨p, fd, shared⟩).locks file', h.shared = false →
      ∀ h' ∈ (w.lock file ⟨p, fd, shared⟩).locks file', h' = h := by
    intro file' h hh hs h' hh'
    rw [mem_lock] at hh hh'
    cases shared with
    | true =>
      have hcan : ∀ h ∈ w.locks file, h.shared = true := hcan
      rcases hh with hh | ⟨-, rfl⟩
      · rcases hh' with hh' | ⟨rfl, rfl⟩
        · exact hi.exclusive file' h hh hs h' hh'
        · rw [hcan h hh] at hs
          cases hs
      · cases hs
    | false =>
      have hcan : w.locks file = [] := hcan
      rcases hh with hh | ⟨rfl, rfl⟩ <;> rcases hh' with hh' | ⟨hf, rfl⟩
      · exact hi.exclusive file' h hh hs h' hh'
      · rw [hf, hcan] at hh
        cases hh
      · rw [hcan] at hh'
        cases hh'
      · rfl
  refine hi.keeps_of_local (fun file' h hh => ?_) (fun _ _ => rfl) (List.prefix_refl _)
    (fun _ _ => rfl) (hi.running p) hexclusive (fun key h hh => ?_) ?_
    fun i l hl hopen hclosing => ?_
  · refine mem_lock.trans (or_iff_left fun h' => hh ?_)
    rw [h'.2]
  · rcases mem_lock.mp hh with hh | ⟨hf, rfl⟩
    · exact hi.nameSpaceLocks key h hh
    · exact hns key hf.symm
  · obtain ⟨bound, hbound⟩ := hi.descriptors
    refine ⟨max bound (fd + 1), fun file' h hh => ?_⟩
    rcases mem_lock.mp hh with hh | ⟨-, rfl⟩
    · exact lt_max_of_lt_left (hbound file' h hh)
    · exact lt_max_of_lt_right (Nat.lt_succ_self fd)
  · obtain ⟨hmem, hr⟩ := hi.leases p i l hl hopen hclosing
    exact ⟨mem_lock.mpr (.inl hmem), hr⟩

theorem Inv.keeps_unlock (hi : Inv config strict w)
    (hleases : ∀ i l, (w.memory p).leases[i]? = some l → l.closed = false → ¬ w.Closing p i →
      file = .pin l.manifest.generationRoot → l.pinFd ≠ fd) :
    (discipline config strict).Keeps p w (w.unlock file p fd) := by
  refine hi.keeps_of_local (fun file' h hh => ?_) (fun _ _ => rfl) (List.prefix_refl _)
    (fun _ _ => rfl) (hi.running p) (fun file' h hh hs h' hh' => ?_) (fun key h hh => ?_) ?_
    fun i l hl hopen hclosing => ?_
  · exact mem_unlock.trans (and_iff_left fun h' => hh h'.2.1)
  · exact hi.exclusive file' h (mem_unlock.mp hh).1 hs h' (mem_unlock.mp hh').1
  · exact hi.nameSpaceLocks key h (mem_unlock.mp hh).1
  · obtain ⟨bound, hbound⟩ := hi.descriptors
    exact ⟨bound, fun file' h hh => hbound file' h (mem_unlock.mp hh).1⟩
  · obtain ⟨hmem, hr⟩ := hi.leases p i l hl hopen hclosing
    exact ⟨mem_unlock.mpr ⟨hmem, fun h => hleases i l hl hopen hclosing h.1.symm h.2.2⟩, hr⟩

theorem Stays.bracket {w₁ w₂ w₃ : World} {shared : Bool} (hbefore : Stays p w w₁)
    (hfree : ¬ w₁.Holds p file) (hwithin : Stays p (w₁.lock file ⟨p, fd, shared⟩) w₂)
    (hafter : Stays p (w₂.unlock file p fd) w₃) : Stays p w w₃ where
  toGrows := hbefore.toGrows.trans (((w₁.calm_lock (p := p) _ _).toGrows.trans
    hwithin.toGrows).trans ((w₂.calm_unlock _ _).toGrows.trans hafter.toGrows))
  memory := hafter.memory.trans (hwithin.memory.trans hbefore.memory)
  locks file' h hh := by
    rw [hafter.locks file' h hh, mem_unlock, hwithin.locks file' h hh, mem_lock,
      hbefore.locks file' h hh |>.symm]
    constructor
    · rintro ⟨hmem | ⟨rfl, rfl⟩, hn⟩
      · exact hmem
      · exact absurd ⟨rfl, rfl, rfl⟩ hn
    · intro hmem
      refine ⟨.inl hmem, ?_⟩
      rintro ⟨rfl, -, -⟩
      exact hfree ⟨h, hmem, hh⟩
  running := hafter.running.trans (hwithin.running.trans hbefore.running)
  history := hbefore.history.trans
    ((show w₁.history <+: w₂.history from hwithin.history).trans
      (show w₂.history <+: w₃.history from hafter.history))
  kept path hp data hd := hafter.kept path hp data
    (hwithin.kept path hp data (hbefore.kept path hp data hd))

/-- `_acquire_advisory_lock` takes the lock in a state that allows it, or nothing happens. -/
theorem safe_acquireAdvisoryLock (file : LockFile) (shared : Bool)
    (hns : ∀ key, file = .nameSpace key → shared = false) (attempts : Nat) :
    Safe (discipline config strict) p (acquireAdvisoryLock (config p) file shared attempts)
      (fun r w' => match r with
        | .ok fd => ∃ w₁, Rely p w w₁ ∧ Inv config strict w₁ ∧ w₁.CanLock file shared ∧
          Rely p (w₁.lock file ⟨p, fd, shared⟩) w'
        | .error _ => Rely p w w') w := by
  induction attempts generalizing w with
  | zero => exact fun w' hr _ => hr
  | succ attempts ih =>
    intro w₁ hr hi a w₂ he _
    simp only [discipline, exec] at he
    split at he
    · rename_i hcan
      obtain ⟨fd, -, rfl, rfl⟩ := he
      exact ⟨hi.keeps_lock hcan hns, fun w₃ hr' _ => ⟨w₁, hr, hi, hcan, hr'⟩⟩
    · obtain ⟨rfl, rfl⟩ := he
      refine ⟨.refl hi, ih.mono fun r w₃ _ h => ?_⟩
      cases r with
      | ok fd =>
        obtain ⟨w₁', hr', h⟩ := h
        exact ⟨w₁', hr.trans hr', h⟩
      | error e => exact hr.trans h

/-- The store's own part of the state stays as it is, but for its namespace locks. -/
structure Within (p : StoreId) (w w' : World) : Prop extends Grows w w' where
  memory : w'.memory p = w.memory p
  pinLocks : ∀ g h, h.store = p → (h ∈ w'.locks (.pin g) ↔ h ∈ w.locks (.pin g))
  running : w'.running p = w.running p
  history : w.history <+: w'.history
  kept : ∀ path : Path, path.Permanent → ∀ data, w.disk path = some data → w'.disk path = some data

theorem Within.trans {w₁ w₂ w₃ : World} (h : Within p w₁ w₂) (h' : Within p w₂ w₃) :
    Within p w₁ w₃ where
  toGrows := h.toGrows.trans h'.toGrows
  memory := h'.memory.trans h.memory
  pinLocks g x hx := (h'.pinLocks g x hx).trans (h.pinLocks g x hx)
  running := h'.running.trans h.running
  history := h.history.trans h'.history
  kept path hp data hd := h'.kept path hp data (h.kept path hp data hd)

theorem Stays.within (h : Stays p w w') : Within p w w' :=
  ⟨h.toGrows, h.memory, fun _ => h.locks _, h.running, h.history, h.kept⟩

theorem World.within_lock (w : World) (key : Digest) (holder : Holder) :
    Within p w (w.lock (.nameSpace key) holder) :=
  ⟨(w.calm_lock (p := p) _ _).toGrows, rfl, fun _ _ _ => by rw [mem_lock, or_iff_left (by simp)],
    rfl, List.prefix_refl _, fun _ _ _ h => h⟩

theorem World.within_unlock (w : World) (key : Digest) (fd : Nat) :
    Within p w (w.unlock (.nameSpace key) p fd) :=
  ⟨(w.calm_unlock (p := p) _ _).toGrows, rfl,
    fun _ _ _ => by rw [mem_unlock, and_iff_left (by simp)], rfl, List.prefix_refl _,
    fun _ _ _ h => h⟩

structure Entered (p : StoreId) (key : Digest) (w w' : World) : Prop where
  holds : w'.Holds p (.nameSpace key)
  calm : Calm p w w'
  within : Within p w w'

theorem Entered.of_rely {key : Digest} {w₁ w₂ : World} (hr : Rely p w w₁)
    (hr' : Rely p (w₁.lock (.nameSpace key) ⟨p, fd, false⟩) w₂) : Entered p key w w₂ := by
  have hholds : (w₁.lock (.nameSpace key) ⟨p, fd, false⟩).Holds p (.nameSpace key) :=
    ⟨_, mem_lock.mpr (.inr ⟨rfl, rfl⟩), rfl⟩
  constructor
  · exact (hr'.holds _).mpr hholds
  · exact hr.toQuiet.calm.trans ((w₁.calm_lock _ _).trans hr'.toQuiet.calm)
  · exact hr.toStays.within.trans ((w₁.within_lock _ _).trans hr'.toStays.within)

def SameNameSpaces (p : StoreId) (w w' : World) : Prop :=
  ∀ key h, h.store = p → (h ∈ w'.locks (.nameSpace key) ↔ h ∈ w.locks (.nameSpace key))

theorem Stays.sameNameSpaces (h : Stays p w w') : SameNameSpaces p w w' :=
  fun key => h.locks (.nameSpace key)

theorem SameNameSpaces.trans {w₁ w₂ w₃ : World} (h : SameNameSpaces p w₁ w₂)
    (h' : SameNameSpaces p w₂ w₃) : SameNameSpaces p w₁ w₃ :=
  fun key x hx => (h' key x hx).trans (h key x hx)

/-- `with self._namespace_lock(namespace)`: the body runs with the lock, and afterwards the store has
the namespace locks it had before. -/
theorem safe_withNamespaceLock {α : Type} {nameSpace : Str} {body : Digest → Proc α}
    {P : Except Error α → World → Prop}
    (hstable : ∀ r w₁ w₂ key fd, P r w₁ → Rely p (w₁.unlock (.nameSpace key) p fd) w₂ → P r w₂)
    (herror : ∀ e w', Rely p w w' → P (.error e) w')
    (hbody : ∀ key w₁, namespaceKey nameSpace = .ok key → Inv config strict w₁ →
      Entered p key w w₁ → Safe (discipline config strict) p (body key)
        (fun r w' => SameNameSpaces p w₁ w' ∧ ∀ w'', Rely p w' w'' → P r w'') w₁) :
    Safe (discipline config strict) p (withNamespaceLock (config p) nameSpace body)
      (fun r w' => SameNameSpaces p w w' ∧ P r w') w := by
  have herror' : ∀ e w', Rely p w w' → SameNameSpaces p w w' ∧ P (.error e) w' :=
    fun e w' hr => ⟨hr.toStays.sameNameSpaces, herror e w' hr⟩
  refine Safe.liftM_bind (fun key hkey => ?_) fun e w' _ hr _ => herror' e w' hr
  refine Safe.bind (safe_acquireAdvisoryLock (.nameSpace key) false (fun _ _ => rfl) _) ?_
    fun e w' _ hr => herror' e w' hr
  rintro fd w₂ hi₂ ⟨w₁, hr, hi₁, hcan, hr'⟩
  refine Safe.tryFinally (hbody key w₂ hkey hi₂ (.of_rely hr hr')) ?_
  rintro r w₃ - ⟨hsame, hP⟩
  refine Safe.call fun w₄ hr₄ hi₄ a w₅ he _ => ?_
  obtain rfl : w₅ = w₄.unlock (.nameSpace key) p fd := he
  refine ⟨hi₄.keeps_unlock (fun i l _ _ _ hf => by cases hf), fun w₆ hr₆ _ => ⟨?_, ?_⟩⟩
  · -- the lock was free, and what the store took it gives back
    intro key' h hh
    have hfree : w₁.locks (.nameSpace key) = [] := hcan
    rw [hr₆.locks _ h hh, mem_unlock, hr₄.locks _ h hh, hsame key' h hh, hr'.locks _ h hh,
      mem_lock, ← hr.locks _ h hh]
    constructor
    · rintro ⟨hmem | ⟨hf, rfl⟩, hn⟩
      · exact hmem
      · exact absurd ⟨hf, rfl, rfl⟩ hn
    · intro hmem
      refine ⟨.inl hmem, fun hf => ?_⟩
      rw [hf.1, hfree] at hmem
      cases hmem
  · exact hstable r w₄ w₆ key fd (hP w₄ hr₄) hr₆

theorem stays_withNamespaceLock {α : Type} {nameSpace : Str} {body : Digest → Proc α}
    {P : Except Error α → World → Prop}
    (hcalm : ∀ r w₁ w₂, Calm p w₁ w₂ → P r w₁ → P r w₂)
    (herror : ∀ e w', Rely p w w' → P (.error e) w')
    (hbody : ∀ key w₁, namespaceKey nameSpace = .ok key → Inv config strict w₁ →
      Entered p key w w₁ →
      Safe (discipline config strict) p (body key) (fun r w' => Stays p w₁ w' ∧ P r w') w₁) :
    Safe (discipline config strict) p (withNamespaceLock (config p) nameSpace body)
      (fun r w' => Stays p w w' ∧ P r w') w := by
  refine (safe_withNamespaceLock (P := fun r w' => Within p w w' ∧ P r w') ?_
    (fun e w' hr => ⟨hr.toStays.within, herror e w' hr⟩) ?_).mono ?_
  · rintro r w₁ w₂ key fd ⟨hw, hP⟩ hr
    exact ⟨hw.trans ((w₁.within_unlock key fd).trans hr.toStays.within),
      hcalm r w₁ w₂ ((w₁.calm_unlock _ _).trans hr.toQuiet.calm) hP⟩
  · intro key w₁ hkey hi₁ he
    refine (hbody key w₁ hkey hi₁ he).mono ?_
    rintro r w₂ _ ⟨hs, hP⟩
    exact ⟨hs.sameNameSpaces, fun w₃ hr => ⟨he.within.trans (hs.trans hr.toStays).within,
      hcalm r w₂ w₃ hr.toQuiet.calm hP⟩⟩
  · rintro r w₁ _ ⟨hns, hw, hP⟩
    refine ⟨⟨hw.toGrows, hw.memory, fun file => ?_, hw.running, hw.history, hw.kept⟩, hP⟩
    cases file with
    | nameSpace key => exact hns key
    | pin g => exact hw.pinLocks g

end Locks

end Generation
