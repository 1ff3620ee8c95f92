import Tds.FileSystem.Index

/-!
# The entry index is a map, and the Bloom filter has no false negatives
-/

namespace FileSystem

open Python PyDict

namespace EntryIndex

variable {α : Type} {index : EntryIndex α} {key : Key}

structure WellFormed (index : EntryIndex α) : Prop where
  maps_ne_nil : index.maps ≠ []
  handle_lt : ∀ key handle, (index.shard key).get key = some handle → handle < index.nextHandle
  handle_injective : ∀ key key' handle, (index.shard key).get key = some handle →
    (index.shard key').get key' = some handle → key = key'
  value_of_handle : ∀ key handle, (index.shard key).get key = some handle →
    ∃ entry, index.values.get handle = some entry

theorem shard_init (key : Key) : (init : EntryIndex α).shard key = [] := by
  unfold shard
  cases h : (init : EntryIndex α).maps[(init : EntryIndex α).shardId key]? with
  | none => rfl
  | some map => exact List.eq_of_mem_replicate (List.mem_of_getElem? h)

theorem get_init (key : Key) : (init : EntryIndex α).get key = none := by
  rw [get, shard_init]
  rfl

theorem wellFormed_init : (init : EntryIndex α).WellFormed := by
  constructor
  · simp [init]
  · intro key handle h
    rw [shard_init] at h
    cases h
  · intro key key' handle h
    rw [shard_init] at h
    cases h
  · intro key handle h
    rw [shard_init] at h
    cases h

@[simp] theorem shardId_setShard (map : PyDict Key Nat) (key' : Key) :
    (index.setShard key map).shardId key' = index.shardId key' := by
  simp [setShard, shardId]

theorem shard_setShard (hm : index.maps ≠ []) (map : PyDict Key Nat) (key' : Key) :
    (index.setShard key map).shard key' =
      if index.shardId key' = index.shardId key then map else index.shard key' := by
  have hlt : index.shardId key < index.maps.length :=
    Nat.mod_lt _ (List.length_pos_of_ne_nil hm)
  unfold shard
  rw [shardId_setShard]
  simp only [setShard, List.getElem?_set]
  by_cases h : index.shardId key' = index.shardId key
  · simp [h, hlt]
  · simp [h, Ne.symm h]

theorem get_shard_setShard (hm : index.maps ≠ []) {map : PyDict Key Nat} {key' : Key}
    (hmap : map.get key' = (index.shard key).get key') :
    ((index.setShard key map).shard key').get key' = (index.shard key').get key' := by
  rw [shard_setShard hm]
  split
  · next h =>
    rw [hmap]
    unfold shard
    rw [h]
  · rfl

theorem contains_eq (h : index.WellFormed) : index.contains key = (index.get key).isSome := by
  unfold contains get
  cases hget : (index.shard key).get key with
  | none => rfl
  | some handle =>
    obtain ⟨entry, hv⟩ := h.value_of_handle key handle hget
    simp [hv]

theorem get_congr {index' : EntryIndex α} {key' : Key}
    (hshard : (index'.shard key').get key' = (index.shard key').get key')
    (hvalues : ∀ handle, (index.shard key').get key' = some handle →
      index'.values.get handle = index.values.get handle) : index'.get key' = index.get key' := by
  unfold get
  rw [hshard]
  cases h : (index.shard key').get key' with
  | none => rfl
  | some handle => exact hvalues handle h

theorem get_of_handle {key : Key} {handle : Nat} (h : (index.shard key).get key = some handle) :
    index.get key = index.values.get handle := by
  rw [get, h]

theorem get_of_none {key : Key} (h : (index.shard key).get key = none) : index.get key = none := by
  rw [get, h]

theorem WellFormed.put (h : index.WellFormed) (key : Key) (entry : α) :
    (index.put key entry).WellFormed ∧
      ∀ key', (index.put key entry).get key' = if key' = key then some entry else index.get key' := by
  unfold EntryIndex.put
  cases hget : (index.shard key).get key with
  | some handle =>
    dsimp only
    refine ⟨⟨h.maps_ne_nil, h.handle_lt, h.handle_injective, fun key' handle' hget' => ?_⟩,
      fun key' => ?_⟩
    · by_cases hh : handle' = handle
      · exact ⟨entry, by rw [hh, get_set_self]⟩
      · rw [get_set_of_ne _ _ hh]
        exact h.value_of_handle key' handle' hget'
    · split
      · next hk =>
        subst hk
        refine Eq.trans (get_of_handle ?_) (get_set_self ..)
        exact hget
      · next hk =>
        refine get_congr rfl fun handle' hget' => get_set_of_ne _ _ ?_
        rintro rfl
        exact hk (h.handle_injective key' key _ hget' hget)
  | none =>
    dsimp only
    -- the handle of each name: the new one for the key, what it was for the others
    have hself : ((index.setShard key ((index.shard key).set key index.nextHandle)).shard key).get
        key = some index.nextHandle := by
      rw [shard_setShard h.maps_ne_nil, if_pos rfl, get_set_self]
    have hother : ∀ key' ≠ key, ((index.setShard key ((index.shard key).set key
        index.nextHandle)).shard key').get key' = (index.shard key').get key' := fun key' hk =>
      get_shard_setShard h.maps_ne_nil (get_set_of_ne _ _ hk)
    have hcases : ∀ key' handle, ((index.setShard key ((index.shard key).set key
        index.nextHandle)).shard key').get key' = some handle →
        (key' = key ∧ handle = index.nextHandle) ∨
          (key' ≠ key ∧ (index.shard key').get key' = some handle) := by
      intro key' handle hget'
      by_cases hk : key' = key
      · subst hk
        exact .inl ⟨rfl, (Option.some.inj (hself.symm.trans hget')).symm⟩
      · exact .inr ⟨hk, (hother key' hk).symm.trans hget'⟩
    refine ⟨⟨?_, ?_, ?_, ?_⟩, fun key' => ?_⟩
    · simpa [setShard] using h.maps_ne_nil
    · intro key' handle hget'
      show handle < index.nextHandle + 1
      rcases hcases key' handle hget' with ⟨-, rfl⟩ | ⟨-, hget'⟩
      · exact Nat.lt_succ_self _
      · exact Nat.lt_succ_of_lt (h.handle_lt key' handle hget')
    · intro key₁ key₂ handle h₁ h₂
      rcases hcases key₁ handle h₁ with ⟨rfl, hn⟩ | ⟨-, h₁'⟩ <;>
        rcases hcases key₂ handle h₂ with ⟨rfl, hn'⟩ | ⟨-, h₂'⟩
      · rfl
      · exact absurd (h.handle_lt key₂ handle h₂') (by omega)
      · exact absurd (h.handle_lt key₁ handle h₁') (by omega)
      · exact h.handle_injective key₁ key₂ handle h₁' h₂'
    · intro key' handle hget'
      rcases hcases key' handle hget' with ⟨-, rfl⟩ | ⟨-, hget'⟩
      · exact ⟨entry, get_set_self ..⟩
      · obtain ⟨v, hv⟩ := h.value_of_handle key' handle hget'
        refine ⟨v, (get_set_of_ne _ _ ?_).trans hv⟩
        exact Nat.ne_of_lt (h.handle_lt key' handle hget')
    · split
      · next hk =>
        subst hk
        refine Eq.trans (get_of_handle ?_) (get_set_self ..)
        exact hself
      · next hk =>
        refine get_congr (hother key' hk) fun handle' hget' => get_set_of_ne _ _ ?_
        exact Nat.ne_of_lt (h.handle_lt key' handle' hget')

theorem WellFormed.pop (h : index.WellFormed) (key : Key) :
    (index.pop key).WellFormed ∧
      ∀ key', (index.pop key).get key' = if key' = key then none else index.get key' := by
  unfold EntryIndex.pop
  cases hget : (index.shard key).get key with
  | none =>
    dsimp only
    refine ⟨h, fun key' => ?_⟩
    split
    · next hk =>
      subst hk
      exact get_of_none hget
    · rfl
  | some handle =>
    dsimp only
    have hself : ((index.setShard key ((index.shard key).pop key)).shard key).get key = none := by
      rw [shard_setShard h.maps_ne_nil, if_pos rfl, get_pop_self]
    have hother : ∀ key' ≠ key, ((index.setShard key ((index.shard key).pop key)).shard key').get
        key' = (index.shard key').get key' := fun key' hk =>
      get_shard_setShard h.maps_ne_nil (get_pop_of_ne _ hk)
    have hold : ∀ key' handle', ((index.setShard key ((index.shard key).pop key)).shard key').get
        key' = some handle' → key' ≠ key ∧ (index.shard key').get key' = some handle' := by
      intro key' handle' hget'
      by_cases hk : key' = key
      · rw [hk, hself] at hget'
        cases hget'
      · exact ⟨hk, (hother key' hk).symm.trans hget'⟩
    have hhandle : ∀ key' ≠ key, ∀ handle', (index.shard key').get key' = some handle' →
        handle' ≠ handle := by
      rintro key' hk handle' hget' rfl
      exact hk (h.handle_injective key' key _ hget' hget)
    refine ⟨⟨?_, ?_, ?_, ?_⟩, fun key' => ?_⟩
    · simpa [setShard] using h.maps_ne_nil
    · intro key' handle' hget'
      exact h.handle_lt key' handle' (hold key' handle' hget').2
    · intro key₁ key₂ handle' h₁ h₂
      exact h.handle_injective key₁ key₂ handle' (hold key₁ handle' h₁).2 (hold key₂ handle' h₂).2
    · intro key' handle' hget'
      obtain ⟨hk, hget'⟩ := hold key' handle' hget'
      obtain ⟨v, hv⟩ := h.value_of_handle key' handle' hget'
      exact ⟨v, (get_pop_of_ne _ (hhandle key' hk handle' hget')).trans hv⟩
    · split
      · next hk =>
        subst hk
        exact get_of_none hself
      · next hk =>
        exact get_congr (hother key' hk) fun handle' hget' =>
          get_pop_of_ne _ (hhandle key' hk handle' hget')

end EntryIndex

namespace BloomFilter

theorem getBit_setBit (bits : Nat → Nat) (bit bit' : Nat) :
    getBit (setBit bits bit) bit' = (getBit bits bit' || decide (bit' = bit)) := by
  unfold getBit setBit
  by_cases h : bit' / 8 = bit / 8
  · rw [h, Function.update_self, Nat.testBit_or, Nat.testBit_two_pow]
    congr 1
    exact decide_eq_decide.mpr (by omega)
  · rw [Function.update_of_ne h]
    simp [show bit' ≠ bit by rintro rfl; exact h rfl]

theorem getBit_foldl (places : List Nat) (bits : Nat → Nat) (bit : Nat) :
    getBit (places.foldl setBit bits) bit = (getBit bits bit || decide (bit ∈ places)) := by
  induction places generalizing bits with
  | nil => simp
  | cons place places ih =>
    rw [List.foldl_cons, ih, getBit_setBit, Bool.or_assoc]
    congr 1
    rw [← Bool.decide_or]
    simp

theorem getBit_add (filter : BloomFilter) (key : Key) (bit : Nat) :
    getBit (filter.add key).bits bit =
      (getBit filter.bits bit || decide (bit ∈ (List.range filter.k).map (filter.place key))) := by
  rw [← getBit_foldl, List.foldl_map]
  rfl

theorem contains_add_self (filter : BloomFilter) (key : Key) :
    (filter.add key).contains key = true := by
  refine List.all_eq_true.mpr fun i hi => ?_
  rw [getBit_add, Bool.or_eq_true]
  exact .inr (decide_eq_true (List.mem_map_of_mem hi))

theorem contains_add {filter : BloomFilter} {key' : Key} (h : filter.contains key' = true)
    (key : Key) : (filter.add key).contains key' = true := by
  refine List.all_eq_true.mpr fun i hi => ?_
  rw [getBit_add, Bool.or_eq_true]
  exact .inl (List.all_eq_true.mp h i hi)

end BloomFilter

end FileSystem
