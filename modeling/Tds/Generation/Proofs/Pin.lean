import Tds.Generation.Proofs.Lease

/-!
# Pins

`pin` takes the shared lock with the first lease of a generation and counts the others; `close`
releases it with the last. In between, counts, references and leases differ by one; the memory of the
store is its own, so it is followed step by step.
-/

namespace Generation

open Python Process List Option StoreMemory Safe

variable {i fd n : Nat} {α : Type}

theorem countP_modify {l : List α} {a : α} (h : l[i]? = some a) (f : α → α) (P : α → Bool) :
    (l.modify i f).countP P + (if P a then 1 else 0) =
      l.countP P + (if P (f a) then 1 else 0) := by
  induction l generalizing i with
  | nil => simp at h
  | cons x l ih =>
    cases i with
    | zero =>
      obtain rfl : x = a := by simpa using h
      rw [modify_zero_cons, countP_cons, countP_cons]
      omega
    | succ i =>
      have := ih (i := i) (by simpa using h)
      rw [modify_succ_cons, countP_cons, countP_cons]
      omega

theorem eq_of_countP_le_one {l : List α} {P : α → Bool} (hl : l.countP P ≤ 1) {j : Nat} {a b : α}
    (ha : l[i]? = some a) (hb : l[j]? = some b) (hPa : P a = true) (hPb : P b = true) : i = j := by
  induction l generalizing i j with
  | nil => simp at ha
  | cons x l ih =>
    rw [countP_cons] at hl
    -- an element in the tail that counts leaves nothing for the head
    have htail : ∀ {k c}, l[k]? = some c → P c = true → 0 < l.countP P := fun hk hc =>
      countP_pos_iff.mpr ⟨_, mem_of_getElem? hk, hc⟩
    cases i with
    | zero =>
      obtain rfl : x = a := by simpa using ha
      cases j with
      | zero => rfl
      | succ j =>
        have := htail (k := j) (by simpa using hb) hPb
        rw [if_pos hPa] at hl
        omega
    | succ i =>
      have hpos := htail (k := i) (by simpa using ha) hPa
      cases j with
      | zero =>
        obtain rfl : x = b := by simpa using hb
        rw [if_pos hPb] at hl
        omega
      | succ j =>
        exact congrArg Nat.succ (ih ((Nat.le_add_right _ _).trans hl) (by simpa using ha)
          (by simpa using hb))

theorem lookup_insert_ite [DecidableEq α] {β : Type} (a a' : α) (b : β) (l : AList fun _ : α => β) :
    (l.insert a b).lookup a' = if a' = a then some b else l.lookup a' := by
  split
  · subst a'
    exact AList.lookup_insert l
  · exact AList.lookup_insert_ne ‹_›

theorem lookup_erase_ite [DecidableEq α] {β : Type} (a a' : α) (l : AList fun _ : α => β) :
    (l.erase a).lookup a' = if a' = a then none else l.lookup a' := by
  split
  · subst a'
    exact AList.lookup_erase a l
  · exact AList.lookup_erase_ne ‹_›

section Memory

variable [Runtime] {p : StoreId} {memory : StoreMemory} {holders : Root → Set Holder} {g : Root}

/-- Only what is found in the dictionaries matters, and only the locks of the store. -/
theorem Pinned.congr {memory' : StoreMemory} {holders' : Root → Set Holder}
    (h : Pinned p memory holders) (hpins : ∀ g, memory'.pins.lookup g = memory.pins.lookup g)
    (hlocks : ∀ g, memory'.pinLocks.lookup g = memory.pinLocks.lookup g)
    (hleases : memory'.leases = memory.leases)
    (hholders : ∀ g x, x.store = p → (x ∈ holders' g ↔ x ∈ holders g)) :
    Pinned p memory' holders' := by
  have hcount : ∀ g, memory'.pinCount g = memory.pinCount g := fun g => by
    rw [pinCount, hpins, pinCount]
  have hreferences : ∀ g, memory'.pinReferences g = memory.pinReferences g := fun g => by
    rw [pinReferences, hlocks, pinReferences]
  constructor <;> simp only [hcount, hreferences, hleases, hlocks]
  · exact h.count
  · exact h.leases
  · intro g fd references hl
    obtain ⟨hpos, hmem⟩ := h.locked g fd references hl
    exact ⟨hpos, (hholders g _ rfl).mpr hmem⟩
  · exact fun g x hx hp => h.recorded g x ((hholders g x hp).mp hx) hp
  · exact h.descriptor

theorem Pinned.grant (h : Pinned p memory holders)
    (hfd : ∀ fd' references, memory.pinLocks.lookup g = some (fd', references) → fd' = fd)
    {l : GenerationLease} (hg : l.manifest.generationRoot = g) (hf : l.pinFd = fd)
    (hopen : l.closed = false) :
    Pinned p
      ⟨memory.pins.insert g (memory.pinCount g + 1),
        memory.pinLocks.insert g (fd, memory.pinReferences g + 1), memory.leases ++ [l]⟩
      (fun g' => {x | x ∈ holders g' ∨ g' = g ∧ x = ⟨p, fd, true⟩}) := by
  constructor
  · intro g'
    have := h.count g'
    simp only [pinCount, pinReferences, lookup_insert_ite] at this ⊢
    by_cases hg' : g' = g
    · subst hg'
      simpa using this
    · simpa [hg'] using this
  · intro g'
    have := h.leases g'
    rw [countP_append, countP_singleton, GenerationLease.IsOpen, hopen, hg]
    simp only [pinReferences, lookup_insert_ite] at this ⊢
    by_cases hg' : g' = g
    · subst hg'
      simpa using this
    · simpa [hg', Ne.symm hg'] using this
  · intro g' fd' references hl
    rw [lookup_insert_ite] at hl
    split at hl
    · obtain ⟨rfl, rfl⟩ := Prod.mk.inj (some.inj hl)
      exact ⟨Nat.succ_pos _, .inr ⟨‹_›, rfl⟩⟩
    · obtain ⟨hpos, hmem⟩ := h.locked g' fd' references hl
      exact ⟨hpos, .inl hmem⟩
  · rintro g' x (hx | ⟨rfl, rfl⟩) hp
    · obtain ⟨hs, references, hl⟩ := h.recorded g' x hx hp
      refine ⟨hs, ?_⟩
      rw [lookup_insert_ite]
      split
      · subst g'
        exact ⟨_, by rw [hfd _ _ hl]⟩
      · exact ⟨references, hl⟩
    · exact ⟨rfl, _, AList.lookup_insert _⟩
  · intro l' hl' hopen'
    rw [lookup_insert_ite]
    rcases mem_append.mp hl' with hl' | hl'
    · obtain ⟨references, hl⟩ := h.descriptor l' hl' hopen'
      split
      · rename_i hg'
        exact ⟨_, by rw [hfd l'.pinFd references (hg' ▸ hl)]⟩
      · exact ⟨references, hl⟩
    · obtain rfl := mem_singleton.mp hl'
      rw [if_pos hg, hf]
      exact ⟨_, rfl⟩

/-- `self._closed = True`. -/
def GenerationLease.close (lease : GenerationLease) : GenerationLease := { lease with closed := true }

theorem Pinned.release (h : Pinned p memory holders) {l : GenerationLease}
    (hi : memory.leases[i]? = some l) (hopen : l.closed = false)
    (hg : l.manifest.generationRoot = g) (hl : memory.pinLocks.lookup g = some (fd, n)) :
    Pinned p
      ⟨if memory.pinCount g ≤ 1 then memory.pins.erase g
        else memory.pins.insert g (memory.pinCount g - 1),
        if 1 < n then memory.pinLocks.insert g (fd, n - 1) else memory.pinLocks.erase g,
        memory.leases.modify i GenerationLease.close⟩
      (fun g' => {x | x ∈ holders g' ∧ ¬ (n ≤ 1 ∧ g' = g ∧ x.store = p ∧ x.fd = fd)}) := by
  have hpos := (h.locked g fd n hl).1
  have hn : memory.pinReferences g = n := by rw [pinReferences, hl]
  have hcount := (h.count g).trans hn
  -- what is found under a generation afterwards
  have hlookup : ∀ g', (if 1 < n then memory.pinLocks.insert g (fd, n - 1)
      else memory.pinLocks.erase g).lookup g' = if g' = g then
        (if 1 < n then some (fd, n - 1) else none) else memory.pinLocks.lookup g' := by
    intro g'
    by_cases h1 : 1 < n <;> simp [h1, lookup_insert_ite, lookup_erase_ite]
  have hpins : ∀ g', (if memory.pinCount g ≤ 1 then memory.pins.erase g
      else memory.pins.insert g (memory.pinCount g - 1)).lookup g' = if g' = g then
        (if n ≤ 1 then none else some (n - 1)) else memory.pins.lookup g' := by
    intro g'
    by_cases h1 : n ≤ 1 <;> simp [hcount, h1, lookup_insert_ite, lookup_erase_ite]
  have hreferences : ∀ g', pinReferences ⟨if memory.pinCount g ≤ 1 then
      memory.pins.erase g else memory.pins.insert g (memory.pinCount g - 1),
      if 1 < n then memory.pinLocks.insert g (fd, n - 1) else memory.pinLocks.erase g,
      memory.leases.modify i GenerationLease.close⟩ g' =
        if g' = g then n - 1 else memory.pinReferences g' := by
    intro g'
    rw [pinReferences, hlookup]
    by_cases hg' : g' = g
    · by_cases h1 : 1 < n
      · simp [hg', h1]
      · simp [hg', h1]
        omega
    · simp [hg', pinReferences]
  constructor
  · intro g'
    rw [hreferences, pinCount, hpins]
    by_cases hg' : g' = g
    · by_cases h1 : n ≤ 1
      · simp [hg', h1]
      · simp [hg', h1]
    · simpa [hg', pinCount] using h.count g'
  · intro g'
    rw [hreferences]
    show _ = (memory.leases.modify i GenerationLease.close).countP _
    have hleases := h.leases g'
    have hmodify := countP_modify hi GenerationLease.close (·.IsOpen g')
    have hclosed : GenerationLease.IsOpen g' l.close = false := rfl
    simp only [hclosed, Bool.false_eq_true, if_false, Nat.add_zero] at hmodify
    by_cases hg' : g' = g
    · have ho : GenerationLease.IsOpen g' l = true := by simp [GenerationLease.IsOpen, hopen, hg, hg']
      rw [if_pos ho] at hmodify
      rw [if_pos hg']
      rw [hg'] at hleases hmodify ⊢
      omega
    · have ho : GenerationLease.IsOpen g' l = false := by
        simp [GenerationLease.IsOpen, hg, Ne.symm hg']
      rw [ho, if_neg (by simp), Nat.add_zero] at hmodify
      rw [if_neg hg', hmodify]
      exact hleases
  · intro g' fd' k hk
    rw [hlookup] at hk
    by_cases hg' : g' = g
    · rw [if_pos hg'] at hk
      split at hk
      · obtain ⟨rfl, rfl⟩ := Prod.mk.inj (Option.some.inj hk)
        refine ⟨by omega, hg' ▸ (h.locked g fd n hl).2, by omega⟩
      · cases hk
    · rw [if_neg hg'] at hk
      obtain ⟨hpos', hmem⟩ := h.locked g' fd' k hk
      exact ⟨hpos', hmem, fun hx => hg' hx.2.1⟩
  · rintro g' x ⟨hx, hnot⟩ hp
    obtain ⟨hs, k, hk⟩ := h.recorded g' x hx hp
    refine ⟨hs, ?_⟩
    rw [hlookup]
    by_cases hg' : g' = g
    · subst hg'
      obtain ⟨hfd, -⟩ := Prod.mk.inj (Option.some.inj (hl.symm.trans hk))
      have h1 : 1 < n := by
        by_contra h1
        exact hnot ⟨by omega, rfl, hp, hfd.symm⟩
      rw [if_pos rfl, if_pos h1, hfd]
      exact ⟨_, rfl⟩
    · rw [if_neg hg']
      exact ⟨k, hk⟩
  · intro l' hl' hopen'
    obtain ⟨j, hj⟩ := mem_iff_getElem?.mp hl'
    rw [getElem?_modify] at hj
    have hne : i ≠ j := by
      rintro rfl
      rw [hi] at hj
      simp only [if_true, Option.map_eq_map, Option.map_some, Option.some.injEq] at hj
      rw [← hj] at hopen'
      cases hopen'
    obtain ⟨x, hx, hxl⟩ := Option.map_eq_some_iff.mp hj
    rw [if_neg hne] at hxl
    obtain rfl : x = l' := hxl
    obtain ⟨k, hk⟩ := h.descriptor x (mem_of_getElem? hx) hopen'
    rw [hlookup]
    by_cases hg' : x.manifest.generationRoot = g
    · -- another open lease on the generation: it was not the last one
      have h1 : 1 < n := by
        by_contra h1
        have hle : memory.leases.countP (·.IsOpen g) ≤ 1 := by rw [← h.leases, hn]; omega
        refine hne (eq_of_countP_le_one hle hi hx ?_ ?_)
        · simp [GenerationLease.IsOpen, hopen, hg]
        · simp [GenerationLease.IsOpen, hopen', hg']
      rw [hg', hl] at hk
      obtain ⟨hfd, -⟩ := Prod.mk.inj (Option.some.inj hk)
      rw [if_pos hg', if_pos h1, hfd]
      exact ⟨_, rfl⟩
    · rw [if_neg hg']
      exact ⟨k, hk⟩

theorem Pinned.giveBack (h : Pinned p memory holders)
    (hfd : ∀ fd' references, memory.pinLocks.lookup g = some (fd', references) → fd' = fd) :
    Pinned p
      ⟨memory.pins,
        if 1 < memory.pinReferences g + 1 then
          (memory.pinLocks.insert g (fd, memory.pinReferences g + 1)).insert g
            (fd, memory.pinReferences g + 1 - 1)
        else (memory.pinLocks.insert g (fd, memory.pinReferences g + 1)).erase g, memory.leases⟩
      (fun g' => {x | (x ∈ holders g' ∨ g' = g ∧ x = ⟨p, fd, true⟩) ∧
        ¬ (memory.pinReferences g + 1 ≤ 1 ∧ g' = g ∧ x.store = p ∧ x.fd = fd)}) := by
  cases hl : memory.pinLocks.lookup g with
  | none =>
    have hn : memory.pinReferences g = 0 := by rw [pinReferences, hl]
    rw [hn]
    refine h.congr (fun _ => rfl) (fun g' => ?_) rfl fun g' x hx => ?_
    · rw [if_neg (by omega), lookup_erase_ite, lookup_insert_ite]
      split
      · subst g'
        exact hl.symm
      · rfl
    · constructor
      · rintro ⟨hmem | ⟨rfl, rfl⟩, hnot⟩
        · exact hmem
        · exact absurd ⟨le_rfl, rfl, rfl, rfl⟩ hnot
      · intro hmem
        refine ⟨.inl hmem, ?_⟩
        rintro ⟨-, rfl, -, -⟩
        obtain ⟨-, references, hl'⟩ := h.recorded _ x hmem hx
        rw [hl] at hl'
        cases hl'
  | some entry =>
    obtain ⟨fd', n⟩ := entry
    obtain rfl := hfd fd' n hl
    have hn : memory.pinReferences g = n := by rw [pinReferences, hl]
    obtain ⟨hpos, hmem⟩ := h.locked g fd' n hl
    rw [hn]
    refine h.congr (fun _ => rfl) (fun g' => ?_) rfl fun g' x hx => ?_
    · rw [if_pos (by omega), lookup_insert_ite, lookup_insert_ite, Nat.add_sub_cancel]
      split
      · subst g'
        exact hl.symm
      · rfl
    · constructor
      · rintro ⟨hmem' | ⟨rfl, rfl⟩, -⟩
        · exact hmem'
        · exact hmem
      · exact fun hmem' => ⟨.inl hmem', fun hx => by omega⟩

end Memory

section Private

variable [Runtime] {config : StoreId → StoreConfig} {strict : Prop} {p : StoreId} {w w' : World}
  {memory memory' : StoreMemory} {holders : Root → Set Holder} {g : Root}

/-- What only the store itself changes: its memory and its pin locks. -/
structure Private (p : StoreId) (memory : StoreMemory) (holders : Root → Set Holder) (w : World) :
    Prop where
  memory : w.memory p = memory
  holders : ∀ g h, h.store = p → (h ∈ w.locks (.pin g) ↔ h ∈ holders g)

/-- Everything that is not private stays as far as the store can tell. -/
structure Moves (p : StoreId) (w w' : World) : Prop extends Calm p w w' where
  nameSpaces : SameNameSpaces p w w'
  kept : ∀ path : Path, path.Permanent → ∀ data, w.disk path = some data → w'.disk path = some data

theorem Moves.trans {w₁ w₂ w₃ : World} (h : Moves p w₁ w₂) (h' : Moves p w₂ w₃) :
    Moves p w₁ w₃ where
  toCalm := h.toCalm.trans h'.toCalm
  nameSpaces := h.nameSpaces.trans h'.nameSpaces
  kept path hp data hd := h'.kept path hp data (h.kept path hp data hd)

theorem Rely.moves (h : Rely p w w') : Moves p w w' :=
  ⟨h.toQuiet.calm, h.toStays.sameNameSpaces, h.kept⟩

theorem Private.rely (h : Private p memory holders w) (hr : Rely p w w') :
    Private p memory holders w' :=
  ⟨hr.memory.trans h.memory, fun g x hx => (hr.locks _ x hx).trans (h.holders g x hx)⟩

theorem Private.self (p : StoreId) (w : World) : Private p (w.memory p) w.pinHolders w :=
  ⟨rfl, fun _ _ _ => Iff.rfl⟩

theorem Private.pinned (h : Private p memory holders w) (hp : Pinned p memory holders) :
    Pinned p (w.memory p) w.pinHolders := by
  rw [h.memory]
  exact hp.congr (fun _ => rfl) (fun _ => rfl) rfl fun g x hx => h.holders g x hx

theorem World.Closing.calm (h : w.Closing p i) (hc : Calm p w w') : w'.Closing p i := by
  obtain ⟨id, hrun, hcall⟩ := h
  exact ⟨id, hc.running.trans hrun, getElem?_eq_of_isPrefix hc.history hcall⟩

section

variable (h : Private p memory holders w)
include h

theorem safe_getMemory :
    Safe (discipline config strict) p getMemory (fun r w' => r = .ok memory ∧ Rely p w w') w := by
  refine call fun w₁ hr hi a w₂ he _ => ?_
  obtain ⟨rfl, rfl⟩ := he
  exact ⟨.refl hi, fun w₃ hr' _ => ⟨congrArg _ (h.rely hr).memory, hr.trans hr'⟩⟩

theorem safe_getMemory_bind {α : Type} {f : StoreMemory → Proc α} {Q : Except Error α → World → Prop}
    (hf : ∀ w₁, Inv config strict w₁ → Rely p w w₁ →
      Safe (discipline config strict) p (f memory) Q w₁) :
    Safe (discipline config strict) p (getMemory >>= f) Q w := by
  refine bind (safe_getMemory h) ?_ ?_
  · rintro found w₁ hi ⟨hm, hr⟩
    obtain rfl := (Except.ok.inj hm).symm
    exact hf w₁ hi hr
  · rintro e w₁ _ ⟨hm, -⟩
    cases hm

theorem safe_setMemory
    (hleases : ∀ w₁, Inv config strict w₁ → Rely p w w₁ → ∀ i l, memory'.leases[i]? = some l →
      l.closed = false → ¬ w₁.Closing p i →
      ⟨p, l.pinFd, true⟩ ∈ w₁.locks (.pin l.manifest.generationRoot) ∧
        ¬ w₁.Retired l.manifest.generationRoot) :
    Safe (discipline config strict) p (setMemory memory')
      (fun r w' => r = .ok () ∧ Moves p w w' ∧ Private p memory' holders w') w := by
  refine call fun w₁ hr hi a w₂ he _ => ?_
  obtain rfl : w₂ = w₁.setMemory p memory' := he
  have hself : (w₁.setMemory p memory').memory p = memory' := Function.update_self ..
  have hown : Moves p w₁ (w₁.setMemory p memory') :=
    ⟨⟨⟨fun _ => prefix_refl _, fun _ => prefix_refl _⟩, rfl, prefix_refl _,
      fun _ _ _ h => h⟩, fun _ _ _ => Iff.rfl, fun _ _ _ h => h⟩
  refine ⟨hi.keeps_of_local (fun _ _ _ => Iff.rfl) (fun q hq => Function.update_of_ne hq _ _)
    (prefix_refl _) (fun _ _ => rfl) (hi.running p) hi.exclusive hi.nameSpaceLocks
    hi.descriptors fun i l hl hopen hclosing => ?_, fun w₃ hr' _ => ⟨rfl, ?_, ?_⟩⟩
  · rw [Function.update_self] at hl
    exact hleases w₁ hi hr i l hl hopen hclosing
  · exact (hr.moves.trans hown).trans hr'.moves
  · exact Private.rely ⟨hself, (h.rely hr).holders⟩ hr'

theorem safe_setMemory_of_leases (memory' : StoreMemory)
    (hleases : memory'.leases = memory.leases) :
    Safe (discipline config strict) p (setMemory memory')
      (fun r w' => r = .ok () ∧ Moves p w w' ∧ Private p memory' holders w') w := by
  refine safe_setMemory h fun w₁ hi hr i l hl hopen hclosing => ?_
  rw [hleases, ← (h.rely hr).memory] at hl
  exact hi.leases p i l hl hopen hclosing

theorem safe_acquirePinLock (hp : Pinned p memory holders) :
    Safe (discipline config strict) p (acquirePinLock (config p) g)
      (fun r w' => Moves p w w' ∧ match r with
        | .ok fd => (∀ fd' references, memory.pinLocks.lookup g = some (fd', references) → fd' = fd) ∧
          Private p ⟨memory.pins, memory.pinLocks.insert g (fd, memory.pinReferences g + 1),
            memory.leases⟩ (fun g' => {x | x ∈ holders g' ∨ g' = g ∧ x = ⟨p, fd, true⟩}) w'
        | .error _ => Private p memory holders w') w := by
  refine safe_getMemory_bind h fun w₁ _ hr₁ => ?_
  have h₁ := h.rely hr₁
  cases hl : memory.pinLocks.lookup g with
  | some entry =>
    obtain ⟨fd, references⟩ := entry
    dsimp only
    refine bind_done (mono (safe_setMemory_of_leases h₁ _ rfl) ?_)
    rintro r w₂ _ ⟨rfl, hmoves, hprivate⟩
    refine ⟨hr₁.moves.trans hmoves, fun fd' n hn => ?_, ?_⟩
    · exact (Prod.mk.inj (some.inj hn)).1.symm
    · have hn : memory.pinReferences g = references := by rw [pinReferences, hl]
      rw [hn]
      refine ⟨hprivate.memory, fun g' x hx => (hprivate.holders g' x hx).trans ?_⟩
      refine ⟨.inl, ?_⟩
      rintro (hx | ⟨rfl, rfl⟩)
      · exact hx
      · exact (hp.locked _ fd references hl).2
  | none =>
    dsimp only
    refine bind (safe_acquireAdvisoryLock (.pin g) true (by simp) _) ?_
      fun e w' _ hr => ⟨(hr₁.trans hr).moves, h.rely (hr₁.trans hr)⟩
    rintro fd w₃ _ ⟨w₂, hr₂, -, -, hr₃⟩
    have hlocked : Private p memory (fun g' => {x | x ∈ holders g' ∨ g' = g ∧ x = ⟨p, fd, true⟩})
        w₃ := by
      refine Private.rely (w := w₂.lock (.pin g) ⟨p, fd, true⟩)
        ⟨(h₁.rely hr₂).memory, fun g' x hx => ?_⟩ hr₃
      rw [World.mem_lock, (h₁.rely hr₂).holders g' x hx]
      simp
    have hmoves : Moves p w w₃ := by
      refine (hr₁.trans hr₂).moves.trans (Moves.trans ⟨w₂.calm_lock _ _, fun key x hx => ?_,
        fun _ _ _ h => h⟩ hr₃.moves)
      rw [World.mem_lock, or_iff_left (by simp)]
    refine bind_done (mono (safe_setMemory_of_leases hlocked _ rfl) ?_)
    rintro r w₄ _ ⟨rfl, hmoves', hprivate⟩
    refine ⟨hmoves.trans hmoves', by simp, ?_⟩
    have hn : memory.pinReferences g = 0 := by rw [pinReferences, hl]
    rw [hn]
    exact hprivate

/-- `_release_pin_lock`: the lock is released with the last reference, when no other lease needs
it. -/
theorem safe_releasePinLock
    (hl : memory.pinLocks.lookup g = some (fd, n))
    (hlast : n ≤ 1 → ∀ i l, memory.leases[i]? = some l → l.closed = false →
      l.manifest.generationRoot = g → w.Closing p i) :
    Safe (discipline config strict) p (releasePinLock g fd)
      (fun r w' => r = .ok () ∧ Moves p w w' ∧ Private p
        ⟨memory.pins, if 1 < n then memory.pinLocks.insert g (fd, n - 1) else memory.pinLocks.erase g,
          memory.leases⟩
        (fun g' => {x | x ∈ holders g' ∧ ¬ (n ≤ 1 ∧ g' = g ∧ x.store = p ∧ x.fd = fd)}) w') w := by
  refine safe_getMemory_bind h fun w₁ _ hr₁ => ?_
  have h₁ := h.rely hr₁
  rw [hl]
  dsimp only
  rw [if_neg (not_not.mpr rfl)]
  by_cases h1 : 1 < n
  · rw [if_pos h1, if_pos h1]
    refine mono (safe_setMemory_of_leases h₁ _ rfl) ?_
    rintro r w₂ _ ⟨rfl, hmoves, hprivate⟩
    refine ⟨rfl, hr₁.moves.trans hmoves, hprivate.memory, fun g' x hx => ?_⟩
    rw [hprivate.holders g' x hx, Set.mem_ofPred_eq, and_iff_left (by omega)]
  · rw [if_neg h1, if_neg h1]
    refine bind (safe_setMemory_of_leases h₁ _ rfl) ?_ ?_
    · rintro ⟨⟩ w₂ _ ⟨-, hmoves, hprivate⟩
      refine call fun w₃ hr₃ hi₃ a w₄ he _ => ?_
      obtain rfl : w₄ = w₃.unlock (.pin g) p fd := he
      have h₃ := hprivate.rely hr₃
      have hmoves₃ := (hr₁.moves.trans hmoves).trans hr₃.moves
      refine ⟨hi₃.keeps_unlock fun i l hli hopen hclosing hg => absurd ?_ hclosing,
        fun w₅ hr₅ _ => ⟨rfl, ?_, ?_⟩⟩
      · rw [h₃.memory] at hli
        exact (hlast (by omega) i l hli hopen (LockFile.pin.inj hg).symm).calm hmoves₃.toCalm
      · refine hmoves₃.trans (Moves.trans ⟨w₃.calm_unlock _ _, fun key x hx => ?_,
          fun _ _ _ h => h⟩ hr₅.moves)
        rw [World.mem_unlock, and_iff_left (by simp)]
      · refine Private.rely (w := w₃.unlock (.pin g) p fd) ⟨h₃.memory, fun g' x hx => ?_⟩ hr₅
        rw [World.mem_unlock, h₃.holders g' x hx, Set.mem_ofPred_eq]
        have : n ≤ 1 := by omega
        simp [this]
    · rintro e w₂ _ ⟨h, -⟩
      cases h

end

variable {nameSpace : Str}

theorem safe_grantLease {m : GenerationManifest} {sequence : Nat} (hi : Inv config strict w)
    (h : Private p memory holders w) (hm : w.Has m)
    (hfd : ⟨p, fd, true⟩ ∈ w.locks (.pin m.generationRoot)) :
    Safe (discipline config strict) p
      (grantLease (config p) nameSpace m.generationRoot m sequence fd)
      (fun r w' => Moves p w w' ∧ match r with
        | .ok _ => Private p ⟨memory.pins.insert m.generationRoot
            (memory.pinCount m.generationRoot + 1), memory.pinLocks,
            memory.leases ++ [⟨nameSpace, m, sequence, fd, false⟩]⟩ holders w'
        | .error _ => Private p memory holders w') w := by
  have hholds : w.Holds p (.pin m.generationRoot) := ⟨_, hfd, rfl⟩
  refine bind (safe_isRetired hi hm (.inl hholds)) ?_
    fun e w' _ hr => ⟨hr.1.moves, h.rely hr.1⟩
  rintro retired w₁ _ ⟨hr₁, hretired⟩
  refine liftM_bind (fun _ hnot => ?_)
    fun e w' _ hr _ => ⟨(hr₁.trans hr).moves, h.rely (hr₁.trans hr)⟩
  have hlive := hretired (congrArg Except.ok ((Bool.not_eq_true _).mp (raiseIf_eq_ok.mp hnot)))
  refine safe_getMemory_bind (h.rely hr₁) fun w₂ _ hr₂ => ?_
  have hr₁₂ := hr₁.trans hr₂
  refine bind_done (mono (safe_setMemory (h.rely hr₁₂) ?_) ?_)
  · intro w₃ hi₃ hr₃ i l hl hopen hclosing
    rcases getElem?_concat.mp hl with hl | ⟨-, rfl⟩
    · rw [← (h.rely (hr₁₂.trans hr₃)).memory] at hl
      exact hi₃.leases p i l hl hopen hclosing
    · refine ⟨((hr₁₂.trans hr₃).locks _ _ rfl).mpr hfd, fun hret => hlive ?_⟩
      exact (hr₂.trans hr₃).retired m (hr₁.has hm) (.inl ((hr₁.holds _).mpr hholds)) hret
  · rintro r w₃ _ ⟨rfl, hmoves, hprivate⟩
    exact ⟨hr₁₂.moves.trans hmoves, hprivate⟩

def InOrder (p : StoreId) (w : World) : Prop :=
  ∃ memory holders, Private p memory holders w ∧ Pinned p memory holders

theorem InOrder.pinned (h : InOrder p w) : Pinned p (w.memory p) w.pinHolders := by
  obtain ⟨memory, holders, hprivate, hpinned⟩ := h
  exact hprivate.pinned hpinned

theorem safe_pinGeneration {m : GenerationManifest} {sequence : Nat}
    (h : Private p memory holders w) (hp : Pinned p memory holders) (hm : w.Has m) :
    Safe (discipline config strict) p
      (do
        let pinFd ← acquirePinLock (config p) m.generationRoot
        (grantLease (config p) nameSpace m.generationRoot m sequence pinFd).onError
          (releasePinLock m.generationRoot pinFd))
      (fun _ w' => Moves p w w' ∧ InOrder p w') w := by
  refine bind (safe_acquirePinLock h hp) ?_
    fun e w' _ h => ⟨h.1, memory, holders, h.2, hp⟩
  rintro fd w₁ hi₁ ⟨hmoves₁, hfd, h₁⟩
  have hlock : ⟨p, fd, true⟩ ∈ w₁.locks (.pin m.generationRoot) :=
    (h₁.holders _ _ rfl).mpr (.inr ⟨rfl, rfl⟩)
  refine onError (safe_grantLease hi₁ h₁ (hmoves₁.kept (.manifest _) trivial _ hm) hlock) ?_ ?_
  · rintro i w₂ _ ⟨hmoves₂, h₂⟩
    exact ⟨hmoves₁.trans hmoves₂, _, _, h₂, hp.grant hfd rfl rfl rfl⟩
  · -- the reference that was just counted is given back
    rintro e w₂ _ ⟨hmoves₂, h₂⟩
    refine (safe_releasePinLock h₂ (AList.lookup_insert _) ?_).mono ?_
    · intro hn i l hl hopen hg
      have hcount := hp.leases m.generationRoot
      have hzero : memory.leases.countP (·.IsOpen m.generationRoot) = 0 := by omega
      refine absurd ?_ (countP_eq_zero.mp hzero l (mem_of_getElem? hl))
      simp [GenerationLease.IsOpen, hopen, hg]
    · rintro c w₃ _ ⟨rfl, hmoves₃, h₃⟩
      exact ⟨(hmoves₁.trans hmoves₂).trans hmoves₃, _, _, h₃, hp.giveBack hfd⟩

theorem safe_currentHead (nameSpace : Str) (key : Digest) :
    Safe (discipline config strict) p (currentHead (config p) nameSpace key)
      (fun _ w' => Rely p w w') w := by
  have hhead : (readHeadUnverified (config p) nameSpace key).Asks Op.ReadOnly :=
    .bind (.call trivial) fun _ => trivial
  have hlog : (readPublicationRecords (config p) nameSpace key false).Asks Op.ReadOnly :=
    .bind (.call trivial) fun contents => by cases contents <;> trivial
  refine bind (safe_of_asks hhead) ?_ fun e w' _ hr => hr
  intro head w₁ _ hr₁
  cases head with
  | none => exact fun w' hr _ => hr₁.trans hr
  | some head =>
    refine bind (safe_of_asks hlog) ?_ fun e w' _ hr => hr₁.trans hr
    rintro ⟨records, torn⟩ w₂ _ hr₂
    have hr₁₂ := hr₁.trans hr₂
    dsimp only
    split
    · refine liftM_bind (fun _ _ => ?_) fun e w' _ hr _ => hr₁₂.trans hr
      refine liftM_bind (fun _ _ => ?_) fun e w' _ hr _ => hr₁₂.trans hr
      refine bind (safe_verifyGeneration _) ?_ fun e w' _ h => hr₁₂.trans h.1
      rintro x w₃ _ ⟨hr₃, -⟩
      refine liftM_bind (fun _ _ => ?_) fun e w' _ hr _ => (hr₁₂.trans hr₃).trans hr
      exact fun w' hr _ => (hr₁₂.trans hr₃).trans hr
    · exact fun w' hr _ => hr₁₂.trans hr

theorem safe_pinLocked {generation : Option Str} {key : Digest} (hold : w.Holds p (.nameSpace key))
    (hkey : namespaceKey nameSpace = .ok key) (h : InOrder p w) :
    Safe (discipline config strict) p (pinLocked (config p) nameSpace generation key)
      (fun _ w' => Moves p w w' ∧ InOrder p w') w := by
  obtain ⟨memory, holders, h, hp⟩ := h
  have hread : ∀ {w'}, Rely p w w' → Moves p w w' ∧ InOrder p w' := fun hr =>
    ⟨hr.moves, memory, holders, h.rely hr, hp⟩
  refine bind (safe_getMemory h) ?_ fun e w' _ h => hread h.2
  rintro found w₁ _ ⟨-, hr₁⟩
  refine liftM_bind (fun _ _ => ?_) fun e w' _ hr _ => hread (hr₁.trans hr)
  refine bind (safe_currentHead _ _) ?_ fun e w' _ hr => hread (hr₁.trans hr)
  intro head w₂ hi₂ hr₂
  have hr₂ := hr₁.trans hr₂
  refine liftM_bind (fun target _ => ?_) fun e w' _ hr _ => hread (hr₂.trans hr)
  obtain ⟨root, sequence⟩ := target
  refine bind (safe_readPublicationRecords _ hi₂ ((hr₂.holds _).mpr hold)) ?_
    fun e w' _ h => hread (hr₂.trans h.1)
  rintro ⟨records, torn⟩ w₄ _ ⟨hr₄, -⟩
  have hr₄ := hr₂.trans hr₄
  refine liftM_bind (fun _ _ => ?_) fun e w' _ hr _ => hread (hr₄.trans hr)
  refine bind (safe_verifyGeneration root) ?_ fun e w' _ h => hread (hr₄.trans h.1)
  rintro x w₅ hi₅ ⟨hr₅, hverified⟩
  obtain ⟨m, rfl, hm, -, rfl⟩ := hverified x rfl
  have hr₅ := hr₄.trans hr₅
  refine liftM_bind (fun _ hname => ?_) fun e w' _ hr _ => hread (hr₅.trans hr)
  obtain rfl := not_not.mp (raiseIf_eq_ok.mp hname)
  have hold₅ := (hr₅.holds _).mpr hold
  refine bind (safe_isRetired hi₅ hm (.inr ⟨key, hkey, hold₅⟩)) ?_
    fun e w' _ h => hread (hr₅.trans h.1)
  rintro retired w₆ _ ⟨hr₆, -⟩
  have hm₆ := hr₆.has hm
  have hr₆ := hr₅.trans hr₆
  refine liftM_bind (fun _ _ => ?_) fun e w' _ hr _ => hread (hr₆.trans hr)
  refine (safe_pinGeneration (h.rely hr₆) hp hm₆).mono fun r w' _ h => ?_
  exact ⟨hr₆.moves.trans h.1, h.2⟩

theorem InOrder.within (h : InOrder p w) (hw : Within p w w') : InOrder p w' := by
  obtain ⟨memory, holders, h, hp⟩ := h
  exact ⟨memory, holders, ⟨hw.memory.trans h.memory,
    fun g x hx => (hw.pinLocks g x hx).trans (h.holders g x hx)⟩, hp⟩

theorem safe_pin {generation : Option Str} (h : InOrder p w) :
    Safe (discipline config strict) p (pin (config p) nameSpace generation)
      (fun _ w' => SameNameSpaces p w w' ∧ Calm p w w' ∧ InOrder p w') w := by
  refine safe_withNamespaceLock (P := fun _ w' => Calm p w w' ∧ InOrder p w') ?_
    (fun e w' hr => ⟨hr.toQuiet.calm, h.within hr.toStays.within⟩) ?_
  · rintro r w₁ w₂ key fd ⟨hc, ho⟩ hr
    exact ⟨hc.trans ((w₁.calm_unlock _ _).trans hr.toQuiet.calm),
      ho.within ((w₁.within_unlock key fd).trans hr.toStays.within)⟩
  · intro key w₁ hkey _ hentered
    refine (safe_pinLocked hentered.holds hkey (h.within hentered.within)).mono ?_
    rintro r w₂ _ ⟨hmoves, ho⟩
    exact ⟨hmoves.nameSpaces, fun w₃ hr => ⟨(hentered.calm.trans hmoves.toCalm).trans
      hr.toQuiet.calm, ho.within hr.toStays.within⟩⟩

/-! ## Closing a lease -/

theorem safe_decrementPins (h : Private p memory holders w) :
    Safe (discipline config strict) p (decrementPins g)
      (fun r w' => r = .ok () ∧ Moves p w w' ∧ Private p
        ⟨if memory.pinCount g ≤ 1 then memory.pins.erase g
          else memory.pins.insert g (memory.pinCount g - 1), memory.pinLocks, memory.leases⟩
        holders w') w := by
  refine safe_getMemory_bind h fun w₁ _ hr₁ => ?_
  by_cases hcount : memory.pinCount g ≤ 1
  · simp only [hcount, if_true]
    refine mono (safe_setMemory_of_leases (h.rely hr₁) _ rfl) ?_
    rintro r w₂ _ ⟨rfl, hmoves, hprivate⟩
    exact ⟨rfl, hr₁.moves.trans hmoves, hprivate⟩
  · simp only [hcount, if_false]
    refine mono (safe_setMemory_of_leases (h.rely hr₁) _ rfl) ?_
    rintro r w₂ _ ⟨rfl, hmoves, hprivate⟩
    exact ⟨rfl, hr₁.moves.trans hmoves, hprivate⟩

theorem safe_markClosed (h : Private p memory holders w) (hclosing : w.Closing p i) :
    Safe (discipline config strict) p (markClosed i)
      (fun r w' => r = .ok () ∧ Moves p w w' ∧ Private p
        ⟨memory.pins, memory.pinLocks, memory.leases.modify i GenerationLease.close⟩ holders w') w := by
  refine safe_getMemory_bind h fun w₁ _ hr₁ => ?_
  refine mono (safe_setMemory (h.rely hr₁) ?_) ?_
  · intro w₂ hi₂ hr₂ j l hl hopen hnot
    have hne : i ≠ j := by
      rintro rfl
      exact hnot (hclosing.calm (hr₁.trans hr₂).toQuiet.calm)
    rw [getElem?_modify_ne _ _ hne, ← (h.rely (hr₁.trans hr₂)).memory] at hl
    exact hi₂.leases p j l hl hopen hnot
  · rintro r w₂ _ ⟨rfl, hmoves, hprivate⟩
    exact ⟨rfl, hr₁.moves.trans hmoves, hprivate⟩

theorem safe_releasePin (h : Private p memory holders w)
    (hl : memory.pinLocks.lookup g = some (fd, n))
    (hlast : n ≤ 1 → ∀ i l, memory.leases[i]? = some l → l.closed = false →
      l.manifest.generationRoot = g → w.Closing p i) :
    Safe (discipline config strict) p (releasePin g fd)
      (fun r w' => r = .ok () ∧ Moves p w w' ∧ Private p
        ⟨if memory.pinCount g ≤ 1 then memory.pins.erase g
          else memory.pins.insert g (memory.pinCount g - 1),
          if 1 < n then memory.pinLocks.insert g (fd, n - 1) else memory.pinLocks.erase g,
          memory.leases⟩
        (fun g' => {x | x ∈ holders g' ∧ ¬ (n ≤ 1 ∧ g' = g ∧ x.store = p ∧ x.fd = fd)}) w') w := by
  refine tryFinally (safe_releasePinLock h hl hlast) ?_
  rintro r w₁ _ ⟨rfl, hmoves, h₁⟩
  refine (safe_decrementPins h₁).mono ?_
  rintro c w₂ _ ⟨rfl, hmoves', h₂⟩
  exact ⟨rfl, hmoves.trans hmoves', h₂⟩

theorem safe_close (h : InOrder p w) (hclosing : w.Closing p i) :
    Safe (discipline config strict) p (close i)
      (fun _ w' => Moves p w w' ∧ InOrder p w' ∧
        ∀ l, (w'.memory p).leases[i]? = some l → l.closed = true) w := by
  obtain ⟨memory, holders, h, hp⟩ := h
  refine safe_getMemory_bind h fun w₁ _ hr₁ => ?_
  have hdone : ∀ {w'}, Rely p w w' → (∀ l, memory.leases[i]? = some l → l.closed = true) →
      Moves p w w' ∧ InOrder p w' ∧ ∀ l, (w'.memory p).leases[i]? = some l → l.closed = true :=
    fun hr hl => ⟨hr.moves, ⟨memory, holders, h.rely hr, hp⟩, (h.rely hr).memory ▸ hl⟩
  cases hl : memory.leases[i]? with
  | none => exact fun w' hr _ => hdone (hr₁.trans hr) (by simp [hl])
  | some l =>
    cases hopen : l.closed with
    | true =>
      simp only [hopen, if_true]
      exact fun w' hr _ => hdone (hr₁.trans hr) (by simp [hl, hopen])
    | false =>
      simp only [hopen, Bool.false_eq_true, if_false]
      obtain ⟨n, hn⟩ := hp.descriptor l (mem_of_getElem? hl) hopen
      refine tryFinally (safe_releasePin (h.rely hr₁) hn ?_) ?_
      · -- the last reference: no other lease on the generation is open
        intro h1 j l' hl' hopen' hg
        have hcount : memory.leases.countP (·.IsOpen l.manifest.generationRoot) ≤ 1 := by
          rw [← hp.leases, pinReferences, hn]
          exact h1
        obtain rfl : j = i := by
          refine eq_of_countP_le_one hcount hl' hl ?_ ?_
          · simp [GenerationLease.IsOpen, hopen', hg]
          · simp [GenerationLease.IsOpen, hopen]
        exact hclosing.calm hr₁.toQuiet.calm
      · rintro r w₂ _ ⟨rfl, hmoves, h₂⟩
        have hmoves := hr₁.moves.trans hmoves
        refine (safe_markClosed h₂ (hclosing.calm hmoves.toCalm)).mono ?_
        rintro c w₃ _ ⟨rfl, hmoves', h₃⟩
        refine ⟨hmoves.trans hmoves', ⟨_, _, h₃, hp.release hl hopen rfl hn⟩, fun l' hl' => ?_⟩
        rw [h₃.memory, getElem?_modify_eq, hl] at hl'
        obtain rfl := some.inj hl'
        rfl

end Private

end Generation
