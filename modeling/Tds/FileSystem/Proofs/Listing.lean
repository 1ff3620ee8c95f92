import Tds.FileSystem.Locking
import Tds.FileSystem.Proofs.Calls

/-!
# What the index lists

Every name is in its own shard, once. So `keys()` lists exactly the names that `get` finds, and
`values()` their entries.
-/

namespace FileSystem

open Python Process List

namespace EntryIndex

variable {α : Type} {index : EntryIndex α} {key : Key}

structure Placed (index : EntryIndex α) : Prop where
  nodup : ∀ map ∈ index.maps, map.keys.Nodup
  shardId : ∀ i map, index.maps[i]? = some map → ∀ key ∈ map.keys, index.shardId key = i

theorem placed_init : (init : EntryIndex α).Placed := by
  have hmap : ∀ map ∈ (init : EntryIndex α).maps, map = [] := fun map h => eq_of_mem_replicate h
  constructor
  · intro map hmem
    rw [hmap map hmem]
    exact nodup_nil
  · intro i map hget key hkey
    rw [hmap map (mem_of_getElem? hget)] at hkey
    cases hkey

theorem shardId_lt (hm : index.maps ≠ []) (key : Key) : index.shardId key < index.maps.length :=
  Nat.mod_lt _ (length_pos_of_ne_nil hm)

theorem getElem?_shardId (hm : index.maps ≠ []) (key : Key) :
    index.maps[index.shardId key]? = some (index.shard key) := by
  rw [shard, getElem?_eq_getElem (shardId_lt hm key), Option.getD_some]

theorem Placed.setShard (h : index.Placed) {map : PyDict Key Nat} (hnodup : map.keys.Nodup)
    (hmap : ∀ key' ∈ map.keys, index.shardId key' = index.shardId key) :
    (index.setShard key map).Placed := by
  constructor
  · intro map' hmem
    rcases mem_or_eq_of_mem_set hmem with hmem | rfl
    · exact h.nodup map' hmem
    · exact hnodup
  · intro i map' hget key' hkey'
    rw [shardId_setShard]
    simp only [EntryIndex.setShard, getElem?_set] at hget
    split at hget
    · next hi =>
      split at hget
      · cases hget
        rw [← hi]
        exact hmap key' hkey'
      · cases hget
    · exact h.shardId i map' hget key' hkey'

theorem Placed.shard (h : index.Placed) (hm : index.maps ≠ []) (key : Key) :
    (index.shard key).keys.Nodup ∧
      ∀ key' ∈ (index.shard key).keys, index.shardId key' = index.shardId key := by
  have hget := getElem?_shardId hm key
  exact ⟨h.nodup _ (mem_of_getElem? hget), h.shardId _ _ hget⟩

theorem Placed.put (h : index.Placed) (hm : index.maps ≠ []) (key : Key) (entry : α) :
    (index.put key entry).Placed := by
  obtain ⟨hnodup, hshard⟩ := h.shard hm key
  unfold EntryIndex.put
  split
  · exact ⟨h.nodup, h.shardId⟩
  · have hset : (index.setShard key ((index.shard key).set key index.nextHandle)).Placed := by
      refine h.setShard (PyDict.nodup_keys_set hnodup _ _) fun key' hkey' => ?_
      rw [PyDict.keys_set] at hkey'
      split at hkey'
      · exact hshard key' hkey'
      · rcases mem_append.mp hkey' with hkey' | hkey'
        · exact hshard key' hkey'
        · rw [mem_singleton.mp hkey']
    exact ⟨hset.nodup, hset.shardId⟩

theorem Placed.pop (h : index.Placed) (hm : index.maps ≠ []) (key : Key) : (index.pop key).Placed := by
  obtain ⟨hnodup, hshard⟩ := h.shard hm key
  unfold EntryIndex.pop
  split
  · have hsub : ((index.shard key).pop key).keys.Sublist (index.shard key).keys :=
      filter_sublist.map _
    have hset : (index.setShard key ((index.shard key).pop key)).Placed :=
      h.setShard (hsub.nodup hnodup) fun key' hkey' => hshard key' (hsub.subset hkey')
    exact ⟨hset.nodup, hset.shardId⟩
  · exact h

theorem Placed.nodup_keys (h : index.Placed) : index.keys.Nodup := by
  rw [keys, nodup_flatMap]
  refine ⟨h.nodup, pairwise_iff_getElem.mpr fun i j hi hj hij => ?_⟩
  refine disjoint_left.mpr fun key hkey hkey' => ?_
  have hleft := h.shardId i _ (getElem?_eq_getElem hi) key hkey
  have hright := h.shardId j _ (getElem?_eq_getElem hj) key hkey'
  omega

theorem Placed.shard_of_mem (h : index.Placed) {map : PyDict Key Nat} (hmap : map ∈ index.maps)
    (hkey : key ∈ map.keys) : index.shard key = map := by
  obtain ⟨i, hi, rfl⟩ := mem_iff_getElem.mp hmap
  have hget := getElem?_eq_getElem hi
  rw [EntryIndex.shard, h.shardId i _ hget key hkey, hget, Option.getD_some]

theorem Placed.get_of_mem (h : index.Placed) {map : PyDict Key Nat} (hmap : map ∈ index.maps)
    {item : Key × Nat} (hitem : item ∈ map) : index.get item.1 = index.values.get item.2 := by
  have hhandle : map.get item.1 = some item.2 := (PyDict.get_eq_some_iff (h.nodup _ hmap)).mpr hitem
  rw [get, h.shard_of_mem hmap (mem_map_of_mem hitem), hhandle]

theorem Placed.allValues_eq (h : index.Placed) : index.allValues = index.keys.filterMap index.get := by
  rw [allValues, keys, filterMap_flatMap, filterMap_flatMap]
  refine flatMap_congr fun map hmap => ?_
  rw [filterMap_map, PyDict.keys, filterMap_map]
  exact filterMap_congr fun item hitem => (h.get_of_mem hmap hitem).symm

theorem Placed.exists_get (h : index.Placed) (hw : index.WellFormed) (hkey : key ∈ index.keys) :
    ∃ entry, index.get key = some entry := by
  obtain ⟨map, hmap, hmem⟩ := mem_flatMap.mp hkey
  obtain ⟨item, hitem, rfl⟩ := mem_map.mp hmem
  have hhandle : (index.shard item.1).get item.1 = some item.2 := by
    rw [h.shard_of_mem hmap hmem]
    exact (PyDict.get_eq_some_iff (h.nodup _ hmap)).mpr hitem
  obtain ⟨entry, hentry⟩ := hw.value_of_handle item.1 item.2 hhandle
  exact ⟨entry, (h.get_of_mem hmap hitem).trans hentry⟩

theorem mem_keys_of_get (hm : index.maps ≠ []) {entry : α}
    (hget : index.get key = some entry) : key ∈ index.keys := by
  rw [get] at hget
  split at hget
  · next handle hhandle =>
    refine mem_flatMap.mpr ⟨_, mem_of_getElem? (getElem?_shardId hm key), ?_⟩
    exact (PyDict.mem_keys_iff _ _).mpr ⟨handle, hhandle⟩
  · cases hget

end EntryIndex

/-! ## Entries under their own names -/

/-- The index is in order, and every entry has the name that it is found under. -/
structure Directory.Filed (d : Directory) : Prop where
  index : d.entries.WellFormed
  placed : d.entries.Placed
  named : ∀ key entry, d.entries.get key = some entry → entry.name = key.val

theorem Directory.filed_init (name path : Str) (config : RuntimeConfig) (clock : Nat → Nat) :
    (init name path config clock).Filed where
  index := EntryIndex.wellFormed_init
  placed := EntryIndex.placed_init
  named key entry h := by
    rw [init, EntryIndex.get_init] at h
    cases h

/-- An entry is filed under its own name. -/
def Files : Op → Prop
  | .indexPut key entry => entry.name = key.val
  | _ => True

theorem Directory.Filed.exec [Scores] {d : Directory} (h : d.Filed) {op : Op} (hop : Files op) :
    (d.exec op).2.Filed := by
  cases op with
  | indexPut key entry =>
    obtain ⟨hindex, hget⟩ := h.index.put key entry
    refine ⟨hindex, h.placed.put h.index.maps_ne_nil key entry, fun key' entry' hentry' => ?_⟩
    rw [show (d.exec (.indexPut key entry)).2.entries = d.entries.put key entry from rfl, hget] at hentry'
    split at hentry'
    · next hkey =>
      cases hentry'
      exact hkey ▸ hop
    · exact h.named key' entry' hentry'
  | indexPop key =>
    obtain ⟨hindex, hget⟩ := h.index.pop key
    refine ⟨hindex, h.placed.pop h.index.maps_ne_nil key, fun key' entry' hentry' => ?_⟩
    rw [show (d.exec (.indexPop key)).2.entries = d.entries.pop key from rfl, hget] at hentry'
    split at hentry'
    · cases hentry'
    · exact h.named key' entry' hentry'
  | policy config =>
    have hentries : (d.exec (.policy config)).2.entries = d.entries := by
      dsimp only [Directory.exec]
      split <;> rfl
    exact ⟨hentries ▸ h.index, hentries ▸ h.placed, hentries ▸ h.named⟩
  | _ => exact ⟨h.index, h.placed, h.named⟩

end FileSystem
