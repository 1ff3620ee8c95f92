import Tds.FileSystem.JsonCodec
import Tds.FileSystem.Proofs.Registry

/-!
# The entry cache over whole histories

Any sequence of `put`, `get` and `remove` calls on a new registry. A key has the value last put under
it exactly as long as nothing has removed it and it did not have to give way.
-/

namespace FileSystem

open Python

namespace HybridRegistry

variable {κ α : Type} [DecidableEq κ] [Scores]

/-- A call on the registry, with the times that it reads from the clock. -/
inductive Call (κ α : Type) where
  | put (key : κ) (value : α) (now scan : Nat)
  | get (key : κ) (now : Nat)
  | remove (key : κ)

def afterCall (r : HybridRegistry κ α) : Call κ α → HybridRegistry κ α
  | .put key value now scan => r.put key value now scan
  | .get key now => (r.get key now).2
  | .remove key => r.remove key

def afterCalls (r : HybridRegistry κ α) (calls : List (Call κ α)) : HybridRegistry κ α :=
  calls.foldl afterCall r

/-- The key that a call evicts. -/
def evicted (r : HybridRegistry κ α) : Call κ α → Option κ
  | .put key _ _ scan =>
    match r.keyToSlot.get key, r.slots[r.freeSlot scan]? with
    | none, some slot => if slot.active then slot.key else none
    | _, _ => none
  | _ => none

/-- No call evicts, removes or replaces the key. -/
def Undisturbed (key : κ) : HybridRegistry κ α → List (Call κ α) → Prop
  | _, [] => True
  | r, call :: calls =>
    (∀ value now scan, call ≠ .put key value now scan) ∧ call ≠ .remove key ∧
      r.evicted call ≠ some key ∧ Undisturbed key (r.afterCall call) calls

/-- The maps are inverse to each other on the active slots, every handle belongs to one active slot,
and the size counts the active slots. -/
structure Consistent (r : HybridRegistry κ α) (capacity : Nat) : Prop where
  inverse : ∀ key i, r.keyToSlot.get key = some i ↔
    ∃ slot, r.slots[i]? = some slot ∧ slot.active = true ∧ slot.key = some key
  keyed : ∀ (i : Nat) slot, r.slots[i]? = some slot → slot.active = true → ∃ key, slot.key = some key
  handle : ∀ handle, (∃ value, r.handles.get handle = some value) ↔
    ∃ (i : Nat) (slot : Slot κ), r.slots[i]? = some slot ∧ slot.active = true ∧ slot.handle = handle
  handle_unique : ∀ (i j : Nat) slot slot', r.slots[i]? = some slot → r.slots[j]? = some slot' →
    slot.active = true → slot'.active = true → slot.handle = slot'.handle → i = j
  size_eq : r.size = r.slots.countP (·.active)
  size_le : r.size ≤ capacity

variable {r : HybridRegistry κ α}

omit [Scores] in
theorem WellFormed.consistent (h : r.WellFormed) : r.Consistent r.slots.length := by
  constructor
  · intro key i
    refine ⟨h.slot_of_key key i, ?_⟩
    rintro ⟨slot, hslot, ha, hkey⟩
    obtain ⟨key', hkey', hget⟩ := h.key_of_slot i slot hslot ha
    rwa [Option.some.inj (hkey.symm.trans hkey')]
  · intro i slot hslot ha
    obtain ⟨key, hkey, -⟩ := h.key_of_slot i slot hslot ha
    exact ⟨key, hkey⟩
  · intro handle
    constructor
    · rintro ⟨value, hvalue⟩
      exact h.slot_of_handle handle value hvalue
    · rintro ⟨i, slot, hslot, ha, rfl⟩
      exact h.value_of_slot i slot hslot ha
  · exact h.handle_injective
  · exact h.size_eq
  · rw [h.size_eq]
    exact List.countP_le_length

/-! ## One call -/

omit [Scores] [DecidableEq κ] in
@[simp] theorem length_slots_touch (r : HybridRegistry κ α) (i : Nat) (slot : Slot κ) (now : Nat) :
    (r.touch i slot now).slots.length = r.slots.length :=
  List.length_set ..

omit [Scores] in
@[simp] theorem length_slots_evictSlot (r : HybridRegistry κ α) (i : Nat) :
    (r.evictSlot i).slots.length = r.slots.length := by
  unfold evictSlot
  split
  · rfl
  · exact List.length_set ..

omit [Scores] in
@[simp] theorem length_slots_occupy (r : HybridRegistry κ α) (i : Nat) (key : κ) (value : α)
    (now : Nat) : (r.occupy i key value now).slots.length = r.slots.length :=
  List.length_set ..

theorem length_slots_afterCall (r : HybridRegistry κ α) (call : Call κ α) :
    (r.afterCall call).slots.length = r.slots.length := by
  cases call with
  | put key value now scan =>
    simp only [afterCall, put]
    split
    · split
      · simp
      · rfl
    · split
      · split <;> simp
      · rfl
  | get key now =>
    simp only [afterCall, get]
    split
    · split
      · split <;> simp
      · rfl
    · rfl
  | remove key =>
    simp only [afterCall, remove]
    split
    · simp
    · rfl

theorem WellFormed.afterCall (h : r.WellFormed) (hcap : r.slots ≠ []) (call : Call κ α) :
    (r.afterCall call).WellFormed ∧ (r.afterCall call).slots ≠ [] := by
  refine ⟨?_, ?_⟩
  · cases call with
    | put key value now scan => exact (h.put hcap key value now scan).1
    | get key now => exact (h.get key now).2.1
    | remove key => exact (h.remove key).1
  · have hlength := length_slots_afterCall r call
    have hpos := List.length_pos_iff.mpr hcap
    exact List.length_pos_iff.mp (by omega)

/-- A key that is not evicted by a `put` of another key keeps its value, and an evicted one loses it. -/
theorem WellFormed.lookup_put (h : r.WellFormed) (hcap : r.slots ≠ []) {key key' : κ}
    (hkey : key' ≠ key) (value : α) (now scan : Nat) :
    (r.put key value now scan).lookup key' =
      if r.evicted (.put key value now scan) = some key' then none else r.lookup key' := by
  cases hget : r.keyToSlot.get key with
  | some i =>
    obtain ⟨slot, hslot, ha, -⟩ := h.slot_of_key key i hget
    have hnone : r.evicted (.put key value now scan) = none := by simp [evicted, hget]
    have hself : (r.touch i slot now).slots[i]? =
        some { slot with count := slot.count + 1, time := now } := by
      rw [HybridRegistry.touch, getElem?_set_of_some hslot, if_pos rfl]
    have hput : r.put key value now scan =
        { r.touch i slot now with handles := r.handles.set slot.handle value } := by
      simp only [HybridRegistry.put, hget, hslot]
    rw [hnone, if_neg (by simp), hput]
    refine ((h.touch hslot now).lookup_setValue value hget hself ha key').trans ?_
    rw [if_neg hkey, lookup_touch hslot now key']
  | none =>
    have hlt := freeSlot_lt r hcap scan
    have hslot := List.getElem?_eq_getElem hlt
    generalize r.slots[r.freeSlot scan] = slot at hslot
    have hput : r.put key value now scan = (if slot.active then r.evictSlot (r.freeSlot scan)
        else r).occupy (r.freeSlot scan) key value now := by
      simp only [HybridRegistry.put, hget, hslot]
    have hevicted : r.evicted (.put key value now scan) =
        if slot.active then slot.key else none := by
      simp only [evicted, hget, hslot]
    rw [hput, hevicted]
    cases ha : slot.active with
    | false =>
      have hlookup := h.lookup_occupy hslot ha hget value now key'
      simpa [hkey] using hlookup
    | true =>
      obtain ⟨old, hold, -⟩ := h.key_of_slot _ slot hslot ha
      have hfree : (r.evictSlot (r.freeSlot scan)).keyToSlot.get key = none := by
        rw [evictSlot_eq hslot ha hold (h.handle_lt _ slot hslot ha).1]
        dsimp only
        by_cases hk : key = old
        · rw [hk, PyDict.get_pop_self]
        · rw [PyDict.get_pop_of_ne _ hk, hget]
      have hlookup := (h.evictSlot hslot ha hold).lookup_occupy (getElem?_evictSlot hslot) rfl hfree
        value now key'
      rw [if_neg hkey, h.lookup_evictSlot hslot ha hold key'] at hlookup
      rw [if_pos rfl, if_pos rfl, hold, hlookup]
      simp only [Option.some.injEq, eq_comm (a := old)]

/-- What a call does to the value of a key: a `put` of the key sets it, a `remove` of the key and an
eviction take it away, and everything else leaves it. -/
theorem WellFormed.lookup_afterCall (h : r.WellFormed) (hcap : r.slots ≠ []) (call : Call κ α)
    (key : κ) (value : α) :
    (r.afterCall call).lookup key = some value ↔ (∃ now scan, call = .put key value now scan) ∨
      (r.lookup key = some value ∧ (∀ v now scan, call ≠ .put key v now scan) ∧ call ≠ .remove key ∧
        r.evicted call ≠ some key) := by
  cases call with
  | put key' v now scan =>
    by_cases hkey : key = key'
    · subst hkey
      rw [HybridRegistry.afterCall, (h.put hcap key v now scan).2.2.1]
      simp
    · rw [HybridRegistry.afterCall, h.lookup_put hcap hkey]
      split
      · next he => simp [he, Ne.symm hkey]
      · next he => simp [he, Ne.symm hkey]
  | get key' now =>
    rw [HybridRegistry.afterCall, (h.get key' now).2.2.2 key]
    simp [evicted]
  | remove key' =>
    rw [HybridRegistry.afterCall, (h.remove key').2.2 key]
    by_cases hkey : key = key'
    · simp [hkey]
    · simp [hkey, Ne.symm hkey, evicted]

/-! ## Histories -/

theorem WellFormed.afterCalls (h : r.WellFormed) (hcap : r.slots ≠ []) (calls : List (Call κ α)) :
    (r.afterCalls calls).WellFormed ∧ (r.afterCalls calls).slots.length = r.slots.length := by
  induction calls generalizing r with
  | nil => exact ⟨h, rfl⟩
  | cons call calls ih =>
    obtain ⟨hcall, hcap'⟩ := h.afterCall hcap call
    obtain ⟨hwf, hlength⟩ := ih hcall hcap'
    exact ⟨hwf, hlength.trans (length_slots_afterCall r call)⟩

/-- The value of a key after a sequence of calls: the one last put under it within the sequence, or the
one that it had before, if nothing has disturbed it since. -/
theorem WellFormed.lookup_afterCalls (h : r.WellFormed) (hcap : r.slots ≠ [])
    (calls : List (Call κ α)) (key : κ) (value : α) :
    (r.afterCalls calls).lookup key = some value ↔
      (r.lookup key = some value ∧ Undisturbed key r calls) ∨
      ∃ before now scan after, calls = before ++ .put key value now scan :: after ∧
        Undisturbed key (r.afterCalls (before ++ [.put key value now scan])) after := by
  induction calls generalizing r with
  | nil => simp [HybridRegistry.afterCalls, Undisturbed]
  | cons call calls ih =>
    obtain ⟨hcall, hcap'⟩ := h.afterCall hcap call
    have hstep := h.lookup_afterCall hcap call key value
    rw [show r.afterCalls (call :: calls) = (r.afterCall call).afterCalls calls from rfl,
      ih hcall hcap', hstep]
    constructor
    · rintro (⟨⟨now, scan, rfl⟩ | ⟨hlookup, hput, hremove, hevict⟩, hrest⟩ |
        ⟨before, now, scan, after, rfl, hafter⟩)
      · exact .inr ⟨[], now, scan, calls, rfl, hrest⟩
      · exact .inl ⟨hlookup, hput, hremove, hevict, hrest⟩
      · exact .inr ⟨call :: before, now, scan, after, rfl, hafter⟩
    · rintro (⟨hlookup, hput, hremove, hevict, hrest⟩ | ⟨before, now, scan, after, heq, hafter⟩)
      · exact .inl ⟨.inr ⟨hlookup, hput, hremove, hevict⟩, hrest⟩
      · cases before with
        | nil =>
          obtain ⟨rfl, rfl⟩ := List.cons.inj heq
          exact .inl ⟨.inl ⟨now, scan, rfl⟩, hafter⟩
        | cons first before =>
          obtain ⟨rfl, rfl⟩ := List.cons.inj heq
          exact .inr ⟨before, now, scan, after, rfl, hafter⟩

/-- After every sequence of calls on a new registry of any capacity the books are consistent, and
`get` returns a value if and only if it is the one last put under the key and the key was neither
removed nor evicted since. -/
theorem consistent_afterCalls (capacity : Nat) (hcap : 0 < capacity) (calls : List (Call κ α)) :
    ((init capacity : HybridRegistry κ α).afterCalls calls).Consistent capacity ∧
      ∀ key now value, (((init capacity).afterCalls calls).get key now).1 = some value ↔
        ∃ before putNow scan after, calls = before ++ .put key value putNow scan :: after ∧
          Undisturbed key ((init capacity).afterCalls (before ++ [.put key value putNow scan]))
            after := by
  have hinit : (init capacity : HybridRegistry κ α).WellFormed := wellFormed_init capacity
  have hlength : (init capacity : HybridRegistry κ α).slots.length = capacity :=
    List.length_replicate
  have hslots : (init capacity : HybridRegistry κ α).slots ≠ [] := by
    apply List.length_pos_iff.mp
    omega
  obtain ⟨hwf, hsame⟩ := hinit.afterCalls hslots calls
  refine ⟨?_, fun key now value => ?_⟩
  · have hconsistent := hwf.consistent
    rwa [hsame, hlength] at hconsistent
  · have hnone : (init capacity : HybridRegistry κ α).lookup key = none := lookup_of_none rfl
    rw [(hwf.get key now).1, hinit.lookup_afterCalls hslots, hnone]
    simp

omit [Scores] in
/-- A registry of one slot, in which the second key takes the place of the first. -/
theorem consistent_afterCalls_one :
    letI := sampleScores
    ((init 1 : HybridRegistry Nat Nat).afterCalls [.put 0 5 0 0, .put 1 6 0 0]).Consistent 1 ∧
      (((init 1 : HybridRegistry Nat Nat).afterCalls [.put 0 5 0 0, .put 1 6 0 0]).get 1 0).1 =
        some 6 := by
  have h := @consistent_afterCalls Nat Nat _ sampleScores 1 Nat.one_pos
    [.put 0 5 0 0, .put 1 6 0 0]
  exact ⟨h.1, (h.2 1 0 6).mpr ⟨[.put 0 5 0 0], 0, 0, [], rfl, trivial⟩⟩

end HybridRegistry

end FileSystem
