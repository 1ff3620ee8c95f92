import Tds.FileSystem.Registry

/-!
# The entry cache keeps its books

The maps between keys and slots stay inverse to each other, every handle belongs to one active slot,
and a key is looked up with the value last put under it, unless it was removed or had to give way.
-/

namespace FileSystem

open Python List Option HybridRegistry PyDict

namespace HybridRegistry

variable {κ α : Type} [DecidableEq κ]

structure WellFormed (r : HybridRegistry κ α) : Prop where
  slot_of_key : ∀ key i, r.keyToSlot.get key = some i →
    ∃ slot, r.slots[i]? = some slot ∧ slot.active = true ∧ slot.key = some key
  key_of_slot : ∀ (i : Nat) slot, r.slots[i]? = some slot → slot.active = true →
    ∃ key, slot.key = some key ∧ r.keyToSlot.get key = some i
  handle_lt : ∀ (i : Nat) slot, r.slots[i]? = some slot → slot.active = true →
    0 < slot.handle ∧ slot.handle < r.nextHandle
  handle_injective : ∀ (i j : Nat) slot slot', r.slots[i]? = some slot → r.slots[j]? = some slot' →
    slot.active = true → slot'.active = true → slot.handle = slot'.handle → i = j
  value_of_slot : ∀ (i : Nat) slot, r.slots[i]? = some slot → slot.active = true →
    ∃ value, r.handles.get slot.handle = some value
  slot_of_handle : ∀ handle value, r.handles.get handle = some value →
    ∃ (i : Nat) (slot : Slot κ), r.slots[i]? = some slot ∧ slot.active = true ∧
      slot.handle = handle
  nextHandle_pos : 0 < r.nextHandle
  size_eq : r.size = r.slots.countP (·.active)

theorem getElem?_set_of_some {β : Type} {l : List β} {i : Nat} {a b : β} (h : l[i]? = some a)
    (j : Nat) : (l.set i b)[j]? = if j = i then some b else l[j]? := by
  have hlt := (List.getElem?_eq_some_iff.mp h).1
  rw [List.getElem?_set]
  by_cases hj : j = i
  · simp [hj, hlt]
  · simp [hj, Ne.symm hj]

theorem countP_set_of_some {β : Type} {l : List β} {i : Nat} {a b : β} (p : β → Bool)
    (h : l[i]? = some a) :
    (l.set i b).countP p = l.countP p - (if p a then 1 else 0) + if p b then 1 else 0 := by
  obtain ⟨hlt, rfl⟩ := List.getElem?_eq_some_iff.mp h
  exact countP_set hlt

theorem wellFormed_init (capacity : Nat) : (init capacity : HybridRegistry κ α).WellFormed := by
  have hslot : ∀ (i : Nat) slot, (init capacity : HybridRegistry κ α).slots[i]? = some slot →
      slot = .empty := by
    intro i slot h
    exact eq_of_mem_replicate (mem_of_getElem? h)
  constructor
  · intro key i h
    cases h
  · intro i slot h ha
    rw [hslot i slot h] at ha
    cases ha
  · intro i slot h ha
    rw [hslot i slot h] at ha
    cases ha
  · intro i j slot slot' h _ ha
    rw [hslot i slot h] at ha
    cases ha
  · intro i slot h ha
    rw [hslot i slot h] at ha
    cases ha
  · intro handle value h
    cases h
  · exact Nat.one_pos
  · simp [init, countP_replicate, Slot.empty]

section

variable {r : HybridRegistry κ α} {i : Nat} {slot : Slot κ}

theorem WellFormed.lookup_of_slot (h : r.WellFormed) {key : κ} (hkey : r.keyToSlot.get key = some i)
    (hslot : r.slots[i]? = some slot) : r.lookup key = r.handles.get slot.handle := by
  obtain ⟨slot', hslot', ha, -⟩ := h.slot_of_key key i hkey
  obtain rfl := some.inj (hslot.symm.trans hslot')
  simp [lookup, hkey, hslot, ha]

theorem lookup_of_none {key : κ} (h : r.keyToSlot.get key = none) : r.lookup key = none := by
  simp [lookup, h]

/-! ## Using a slot -/

section Slot

variable (hslot : r.slots[i]? = some slot)
include hslot

theorem WellFormed.touch (h : r.WellFormed) (now : Nat) :
    (r.touch i slot now).WellFormed := by
  -- every slot keeps its handle, activity and key
  have hslots : ∀ (j : Nat) s, (r.touch i slot now).slots[j]? = some s →
      ∃ s', r.slots[j]? = some s' ∧ s.handle = s'.handle ∧ s.active = s'.active ∧ s.key = s'.key := by
    intro j s hs
    rw [HybridRegistry.touch, getElem?_set_of_some hslot] at hs
    split at hs
    · next hj =>
      obtain rfl := some.inj hs
      exact ⟨slot, hj ▸ hslot, rfl, rfl, rfl⟩
    · exact ⟨s, hs, rfl, rfl, rfl⟩
  have hslots' : ∀ (j : Nat) s, r.slots[j]? = some s → ∃ s', (r.touch i slot now).slots[j]? = some s' ∧
      s'.handle = s.handle ∧ s'.active = s.active ∧ s'.key = s.key := by
    intro j s hs
    rw [HybridRegistry.touch, getElem?_set_of_some hslot]
    split
    · next hj =>
      obtain rfl := some.inj (hs.symm.trans (hj ▸ hslot))
      exact ⟨_, rfl, rfl, rfl, rfl⟩
    · exact ⟨s, hs, rfl, rfl, rfl⟩
  constructor
  · intro key j hkey
    obtain ⟨s, hs, ha, hk⟩ := h.slot_of_key key j hkey
    obtain ⟨s', hs', -, ha', hk'⟩ := hslots' j s hs
    exact ⟨s', hs', ha'.trans ha, hk'.trans hk⟩
  · intro j s hs ha
    obtain ⟨s', hs', -, ha', hk'⟩ := hslots j s hs
    obtain ⟨key, hk, hget⟩ := h.key_of_slot j s' hs' (ha'.symm.trans ha)
    exact ⟨key, hk'.trans hk, hget⟩
  · intro j s hs ha
    obtain ⟨s', hs', hh, ha', -⟩ := hslots j s hs
    rw [hh]
    exact h.handle_lt j s' hs' (ha'.symm.trans ha)
  · intro j k s t hs ht ha hb heq
    obtain ⟨s', hs', hh, ha', -⟩ := hslots j s hs
    obtain ⟨t', ht', hh', hb', -⟩ := hslots k t ht
    exact h.handle_injective j k s' t' hs' ht' (ha'.symm.trans ha) (hb'.symm.trans hb)
      (hh.symm.trans (heq.trans hh'))
  · intro j s hs ha
    obtain ⟨s', hs', hh, ha', -⟩ := hslots j s hs
    rw [hh]
    exact h.value_of_slot j s' hs' (ha'.symm.trans ha)
  · intro handle value hv
    obtain ⟨j, s, hs, ha, hh⟩ := h.slot_of_handle handle value hv
    obtain ⟨s', hs', hh', ha', -⟩ := hslots' j s hs
    exact ⟨j, s', hs', ha'.trans ha, hh'.trans hh⟩
  · exact h.nextHandle_pos
  · show r.size = _
    rw [HybridRegistry.touch, countP_set_of_some _ hslot, h.size_eq]
    dsimp only
    have hpos : slot.active = true → 0 < r.slots.countP (·.active) := fun ha =>
      countP_pos_iff.mpr ⟨slot, mem_of_getElem? hslot, ha⟩
    cases ha : slot.active with
    | false => simp
    | true =>
      have := hpos ha
      simp only [if_true]
      omega

theorem lookup_touch (now : Nat) (key : κ) :
    (r.touch i slot now).lookup key = r.lookup key := by
  have hkeys : (r.touch i slot now).keyToSlot = r.keyToSlot := rfl
  unfold lookup
  rw [hkeys]
  cases hkey : r.keyToSlot.get key with
  | none => rfl
  | some j =>
    dsimp only
    rw [touch, getElem?_set_of_some hslot]
    by_cases hj : j = i
    · simp [hj, hslot]
    · simp [hj]

/-! ## Giving a slot up -/

section Evict

variable {key : κ}

theorem evictSlot_eq (ha : slot.active = true)
    (hkey : slot.key = some key) (hpos : 0 < slot.handle) :
    r.evictSlot i = ⟨r.slots.set i .empty, r.keyToSlot.pop key, r.handles.pop slot.handle,
      r.nextHandle, r.size - 1⟩ := by
  simp [evictSlot, hslot, hkey, ha, Nat.pos_iff_ne_zero.mp hpos]

theorem WellFormed.evictSlot (h : r.WellFormed)
    (ha : slot.active = true) (hkey : slot.key = some key) : (r.evictSlot i).WellFormed := by
  have hpos := (h.handle_lt i slot hslot ha).1
  have hget : r.keyToSlot.get key = some i := by
    obtain ⟨key', hkey', hget⟩ := h.key_of_slot i slot hslot ha
    rwa [some.inj (hkey.symm.trans hkey')]
  rw [evictSlot_eq hslot ha hkey hpos]
  have hslots : ∀ (j : Nat) s, (r.slots.set i .empty)[j]? = some s → s.active = true →
      j ≠ i ∧ r.slots[j]? = some s := by
    intro j s hs hactive
    rw [getElem?_set_of_some hslot] at hs
    split at hs
    · rw [← some.inj hs] at hactive
      cases hactive
    · exact ⟨‹_›, hs⟩
  have hother : ∀ (j : Nat) s, j ≠ i → r.slots[j]? = some s →
      (r.slots.set i .empty)[j]? = some s := by
    intro j s hj hs
    rw [getElem?_set_of_some hslot, if_neg hj, hs]
  constructor <;> dsimp only
  · intro key' j hkey'
    by_cases hk : key' = key
    · rw [hk, get_pop_self] at hkey'
      cases hkey'
    · rw [get_pop_of_ne _ hk] at hkey'
      obtain ⟨s, hs, hactive, hsk⟩ := h.slot_of_key key' j hkey'
      refine ⟨s, hother j s ?_ hs, hactive, hsk⟩
      rintro rfl
      obtain rfl := some.inj (hs.symm.trans hslot)
      exact hk (some.inj (hsk.symm.trans hkey))
  · intro j s hs hactive
    obtain ⟨hj, hs⟩ := hslots j s hs hactive
    obtain ⟨key', hk', hget'⟩ := h.key_of_slot j s hs hactive
    refine ⟨key', hk', ?_⟩
    rw [get_pop_of_ne _ ?_]
    · exact hget'
    · rintro rfl
      exact hj (some.inj (hget'.symm.trans hget))
  · intro j s hs hactive
    exact h.handle_lt j s (hslots j s hs hactive).2 hactive
  · intro j k s t hs ht hactive hactive' heq
    exact h.handle_injective j k s t (hslots j s hs hactive).2 (hslots k t ht hactive').2 hactive
      hactive' heq
  · intro j s hs hactive
    obtain ⟨hj, hs⟩ := hslots j s hs hactive
    rw [get_pop_of_ne _ fun heq => hj (h.handle_injective j i s slot hs hslot hactive ha heq)]
    exact h.value_of_slot j s hs hactive
  · intro handle value hv
    by_cases hh : handle = slot.handle
    · rw [hh, get_pop_self] at hv
      cases hv
    · rw [get_pop_of_ne _ hh] at hv
      obtain ⟨j, s, hs, hactive, hsh⟩ := h.slot_of_handle handle value hv
      refine ⟨j, s, hother j s ?_ hs, hactive, hsh⟩
      rintro rfl
      obtain rfl := some.inj (hs.symm.trans hslot)
      exact hh hsh.symm
  · exact h.nextHandle_pos
  · rw [countP_set_of_some _ hslot, h.size_eq]
    simp [ha, Slot.empty]

theorem WellFormed.lookup_evictSlot (h : r.WellFormed)
    (ha : slot.active = true) (hkey : slot.key = some key) (key' : κ) :
    (r.evictSlot i).lookup key' = if key' = key then none else r.lookup key' := by
  rw [evictSlot_eq hslot ha hkey (h.handle_lt i slot hslot ha).1]
  split
  · next hk =>
    refine lookup_of_none ?_
    rw [hk]
    exact get_pop_self ..
  · next hk =>
    unfold lookup
    dsimp only
    rw [get_pop_of_ne _ hk]
    cases hget : r.keyToSlot.get key' with
    | none => rfl
    | some j =>
      obtain ⟨s, hs, hactive, hsk⟩ := h.slot_of_key key' j hget
      have hj : j ≠ i := by
        rintro rfl
        obtain rfl := some.inj (hs.symm.trans hslot)
        exact hk (some.inj (hsk.symm.trans hkey))
      dsimp only
      rw [getElem?_set_of_some hslot, if_neg hj, hs]
      dsimp only
      rw [if_pos hactive, if_pos hactive, get_pop_of_ne]
      exact fun heq => hj (h.handle_injective j i s slot hs hslot hactive ha heq)

theorem getElem?_evictSlot :
    (r.evictSlot i).slots[i]? = some .empty := by
  simp only [evictSlot, hslot]
  rw [getElem?_set_of_some hslot, if_pos rfl]

end Evict

/-! ## Taking a slot -/

section Occupy

variable {key : κ} {value : α} {now : Nat}

theorem WellFormed.occupy (h : r.WellFormed)
    (ha : slot.active = false) (hkey : r.keyToSlot.get key = none) :
    (r.occupy i key value now).WellFormed := by
  have hslots : ∀ (j : Nat) s, (r.occupy i key value now).slots[j]? = some s →
      (j = i ∧ s = ⟨1, now, r.nextHandle, true, some key⟩) ∨ (j ≠ i ∧ r.slots[j]? = some s) := by
    intro j s hs
    rw [HybridRegistry.occupy, getElem?_set_of_some hslot] at hs
    split at hs
    · exact .inl ⟨‹_›, (some.inj hs).symm⟩
    · exact .inr ⟨‹_›, hs⟩
  have hself : (r.occupy i key value now).slots[i]? = some ⟨1, now, r.nextHandle, true, some key⟩ := by
    rw [HybridRegistry.occupy, getElem?_set_of_some hslot, if_pos rfl]
  have hother : ∀ (j : Nat) s, r.slots[j]? = some s → s.active = true →
      j ≠ i ∧ (r.occupy i key value now).slots[j]? = some s := by
    intro j s hs hactive
    have hj : j ≠ i := by
      rintro rfl
      rw [some.inj (hs.symm.trans hslot), ha] at hactive
      cases hactive
    refine ⟨hj, ?_⟩
    rw [HybridRegistry.occupy, getElem?_set_of_some hslot, if_neg hj, hs]
  have hfresh : ∀ handle v, r.handles.get handle = some v → handle ≠ r.nextHandle := by
    intro handle v hv heq
    obtain ⟨j, s, hs, hactive, hh⟩ := h.slot_of_handle handle v hv
    have := (h.handle_lt j s hs hactive).2
    omega
  constructor
  · intro key' j hkey'
    by_cases hk : key' = key
    · rw [HybridRegistry.occupy, hk, PyDict.get_set_self] at hkey'
      obtain rfl := some.inj hkey'
      exact ⟨_, hself, rfl, by rw [hk]⟩
    · rw [HybridRegistry.occupy, PyDict.get_set_of_ne _ _ hk] at hkey'
      obtain ⟨s, hs, hactive, hsk⟩ := h.slot_of_key key' j hkey'
      exact ⟨s, (hother j s hs hactive).2, hactive, hsk⟩
  · intro j s hs hactive
    rcases hslots j s hs with ⟨rfl, rfl⟩ | ⟨hj, hs⟩
    · exact ⟨key, rfl, get_set_self ..⟩
    · obtain ⟨key', hk', hget⟩ := h.key_of_slot j s hs hactive
      refine ⟨key', hk', ?_⟩
      rw [HybridRegistry.occupy, PyDict.get_set_of_ne]
      · exact hget
      · rintro rfl
        rw [hkey] at hget
        cases hget
  · intro j s hs hactive
    show 0 < s.handle ∧ s.handle < r.nextHandle + 1
    rcases hslots j s hs with ⟨rfl, rfl⟩ | ⟨hj, hs⟩
    · exact ⟨h.nextHandle_pos, Nat.lt_succ_self _⟩
    · have := h.handle_lt j s hs hactive
      omega
  · intro j k s t hs ht hactive hactive' heq
    rcases hslots j s hs with ⟨rfl, rfl⟩ | ⟨hj, hs'⟩ <;>
      rcases hslots k t ht with ⟨rfl, rfl⟩ | ⟨hk, ht'⟩
    · rfl
    · have := (h.handle_lt k t ht' hactive').2
      have heq' : r.nextHandle = t.handle := heq
      omega
    · have := (h.handle_lt j s hs' hactive).2
      have heq' : s.handle = r.nextHandle := heq
      omega
    · exact h.handle_injective j k s t hs' ht' hactive hactive' heq
  · intro j s hs hactive
    rcases hslots j s hs with ⟨rfl, rfl⟩ | ⟨hj, hs⟩
    · exact ⟨value, get_set_self ..⟩
    · obtain ⟨v, hv⟩ := h.value_of_slot j s hs hactive
      exact ⟨v, (get_set_of_ne _ _ (hfresh _ v hv)).trans hv⟩
  · intro handle v hv
    by_cases hh : handle = r.nextHandle
    · exact ⟨i, _, hself, rfl, hh.symm⟩
    · rw [HybridRegistry.occupy, PyDict.get_set_of_ne _ _ hh] at hv
      obtain ⟨j, s, hs, hactive, hsh⟩ := h.slot_of_handle handle v hv
      exact ⟨j, s, (hother j s hs hactive).2, hactive, hsh⟩
  · exact Nat.succ_pos _
  · show r.size + 1 = _
    rw [HybridRegistry.occupy, countP_set_of_some _ hslot, h.size_eq]
    simp [ha]

theorem WellFormed.lookup_occupy (h : r.WellFormed)
    (ha : slot.active = false) (hkey : r.keyToSlot.get key = none) (value : α) (now : Nat)
    (key' : κ) : (r.occupy i key value now).lookup key' = if key' = key then some value else r.lookup key' := by
  split
  · next hk =>
    have hself : (r.occupy i key value now).slots[i]? =
        some ⟨1, now, r.nextHandle, true, some key⟩ := by
      rw [HybridRegistry.occupy, getElem?_set_of_some hslot, if_pos rfl]
    rw [hk, (h.occupy hslot ha hkey).lookup_of_slot (get_set_self ..) hself]
    exact get_set_self ..
  · next hk =>
    have hget : (r.occupy i key value now).keyToSlot.get key' = r.keyToSlot.get key' :=
      get_set_of_ne _ _ hk
    cases hkey' : r.keyToSlot.get key' with
    | none => rw [lookup_of_none (hget.trans hkey'), lookup_of_none hkey']
    | some j =>
      obtain ⟨s, hs, hactive, -⟩ := h.slot_of_key key' j hkey'
      have hj : j ≠ i := by
        rintro rfl
        rw [some.inj (hs.symm.trans hslot), ha] at hactive
        cases hactive
      have hs' : (r.occupy i key value now).slots[j]? = some s := by
        rw [HybridRegistry.occupy, getElem?_set_of_some hslot, if_neg hj, hs]
      rw [(h.occupy hslot ha hkey).lookup_of_slot (hget.trans hkey') hs', h.lookup_of_slot hkey' hs]
      exact get_set_of_ne _ _ (Nat.ne_of_lt (h.handle_lt j s hs hactive).2)

end Occupy

end Slot

section Value

variable {key : κ} (value : α)

theorem WellFormed.setValue (h : r.WellFormed) (hslot : r.slots[i]? = some slot)
    (ha : slot.active = true) :
    ({ r with handles := r.handles.set slot.handle value } : HybridRegistry κ α).WellFormed := by
  constructor <;> dsimp only
  · exact h.slot_of_key
  · exact h.key_of_slot
  · exact h.handle_lt
  · exact h.handle_injective
  · intro j s hs hactive
    by_cases hh : s.handle = slot.handle
    · exact ⟨value, by rw [hh, get_set_self]⟩
    · rw [get_set_of_ne _ _ hh]
      exact h.value_of_slot j s hs hactive
  · intro handle v hv
    by_cases hh : handle = slot.handle
    · exact ⟨i, slot, hslot, ha, hh.symm⟩
    · rw [get_set_of_ne _ _ hh] at hv
      exact h.slot_of_handle handle v hv
  · exact h.nextHandle_pos
  · exact h.size_eq

theorem WellFormed.lookup_setValue (h : r.WellFormed) (hkey : r.keyToSlot.get key = some i)
    (hslot : r.slots[i]? = some slot) (ha : slot.active = true) (key' : κ) :
    ({ r with handles := r.handles.set slot.handle value } : HybridRegistry κ α).lookup key' =
      if key' = key then some value else r.lookup key' := by
  have h' := h.setValue value hslot ha
  split
  · next hk =>
    rw [h'.lookup_of_slot (hk ▸ hkey) hslot]
    exact get_set_self ..
  · next hk =>
    cases hkey' : r.keyToSlot.get key' with
    | none =>
      rw [lookup_of_none hkey']
      exact lookup_of_none hkey'
    | some j =>
      obtain ⟨s, hs, hactive, hsk⟩ := h.slot_of_key key' j hkey'
      rw [h'.lookup_of_slot hkey' hs, h.lookup_of_slot hkey' hs]
      refine get_set_of_ne _ _ fun heq => hk ?_
      -- the same handle would be the same slot, and so the same key
      obtain rfl := h.handle_injective j i s slot hs hslot hactive ha heq
      obtain ⟨s', hs', -, hsk'⟩ := h.slot_of_key key j hkey
      obtain rfl := some.inj (hs.symm.trans hs')
      exact some.inj (hsk.symm.trans hsk')

end Value

/-! ## The operations -/

theorem WellFormed.get (h : r.WellFormed) (key : κ) (now : Nat) :
    (r.get key now).1 = r.lookup key ∧ (r.get key now).2.WellFormed ∧
      ((r.get key now).2.slots = [] ↔ r.slots = []) ∧
      ∀ key', (r.get key now).2.lookup key' = r.lookup key' := by
  unfold HybridRegistry.get
  split
  · next i hkey =>
    obtain ⟨slot, hslot, ha, -⟩ := h.slot_of_key key i hkey
    rw [hslot]
    dsimp only
    rw [if_pos ha]
    exact ⟨(h.lookup_of_slot hkey hslot).symm, h.touch hslot now, by simp [HybridRegistry.touch],
      lookup_touch hslot now⟩
  · next hkey => exact ⟨(lookup_of_none hkey).symm, h, Iff.rfl, fun _ => rfl⟩

theorem WellFormed.remove (h : r.WellFormed) (key : κ) :
    (r.remove key).WellFormed ∧ ((r.remove key).slots = [] ↔ r.slots = []) ∧
      ∀ key', (r.remove key).lookup key' = if key' = key then none else r.lookup key' := by
  unfold HybridRegistry.remove
  split
  · next i hkey =>
    obtain ⟨slot, hslot, ha, hk⟩ := h.slot_of_key key i hkey
    refine ⟨h.evictSlot hslot ha hk, ?_, h.lookup_evictSlot hslot ha hk⟩
    simp [HybridRegistry.evictSlot, hslot]
  · next hkey =>
    refine ⟨h, Iff.rfl, fun key' => ?_⟩
    split
    · next hk => rw [hk, lookup_of_none hkey]
    · rfl

section Put

variable [Scores]

omit [DecidableEq κ] in
theorem freeSlot_lt (r : HybridRegistry κ α) (hcap : r.slots ≠ []) (now : Nat) :
    r.freeSlot now < r.slots.length := by
  unfold freeSlot
  split
  · next j hj => exact (findIdx?_eq_some_iff_getElem.mp hj).1
  · refine lt_of_lt_of_eq (Scores.argmin_lt _ now ?_) (length_map ..)
    simpa using hcap

/-- `put` keeps the invariant; the key then has the value, and another key keeps its value unless it
gave way. -/
theorem WellFormed.put (h : r.WellFormed) (hcap : r.slots ≠ []) (key : κ) (value : α)
    (now scan : Nat) :
    (r.put key value now scan).WellFormed ∧ (r.put key value now scan).slots ≠ [] ∧
      (r.put key value now scan).lookup key = some value ∧
      ∀ key' ≠ key, (r.put key value now scan).lookup key' = r.lookup key' ∨
        (r.put key value now scan).lookup key' = none := by
  unfold HybridRegistry.put
  split
  · next i hkey =>
    obtain ⟨slot, hslot, ha, -⟩ := h.slot_of_key key i hkey
    rw [hslot]
    dsimp only
    have htouch := h.touch hslot now
    have hself : (r.touch i slot now).slots[i]? =
        some { slot with count := slot.count + 1, time := now } := by
      rw [HybridRegistry.touch, getElem?_set_of_some hslot, if_pos rfl]
    have hset := htouch.setValue value hself ha
    have hlookup := htouch.lookup_setValue value hkey hself ha
    refine ⟨hset, ?_, (hlookup key).trans (if_pos rfl), fun key' hk => ?_⟩
    · simpa [HybridRegistry.touch] using hcap
    · exact .inl ((hlookup key').trans ((if_neg hk).trans (lookup_touch hslot now key')))
  · next hkey =>
    have hlt := freeSlot_lt r hcap scan
    dsimp only
    rw [getElem?_eq_getElem hlt]
    dsimp only
    have hslot := getElem?_eq_getElem hlt
    generalize r.slots[r.freeSlot scan] = slot at hslot
    generalize r.freeSlot scan = i at hslot
    cases ha : slot.active with
    | false =>
      have hlookup := h.lookup_occupy hslot ha hkey value now
      refine ⟨h.occupy hslot ha hkey, ?_, (hlookup key).trans (if_pos rfl), fun key' hk => ?_⟩
      · simpa [HybridRegistry.occupy] using hcap
      · exact .inl ((hlookup key').trans (if_neg hk))
    | true =>
      obtain ⟨old, hold, hget⟩ := h.key_of_slot i slot hslot ha
      have hevict := h.evictSlot hslot ha hold
      have hkey' : (r.evictSlot i).keyToSlot.get key = none := by
        rw [evictSlot_eq hslot ha hold (h.handle_lt i slot hslot ha).1]
        dsimp only
        by_cases hk : key = old
        · rw [hk, PyDict.get_pop_self]
        · rw [PyDict.get_pop_of_ne _ hk, hkey]
      have hslot' := getElem?_evictSlot hslot
      have hlookup := hevict.lookup_occupy hslot' rfl hkey' value now
      refine ⟨hevict.occupy hslot' rfl hkey', ?_, (hlookup key).trans (if_pos rfl), fun key' hk => ?_⟩
      · simp only [if_true, HybridRegistry.occupy, ne_eq, set_eq_nil_iff]
        exact fun hnil => by simp [hnil] at hslot'
      · rw [if_pos rfl, hlookup key', if_neg hk, h.lookup_evictSlot hslot ha hold key']
        split
        · exact .inr rfl
        · exact .inl rfl

end Put

end

end HybridRegistry

end FileSystem
