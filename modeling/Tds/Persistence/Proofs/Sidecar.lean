import Tds.FileSystem.JsonCodec
import Tds.Persistence.Proofs.Writer

/-!
# What the sidecar says about a slot

`metaForSlot_eq`: with distinct slot keys a reader finds for each slot the record of `recordedSlot`.
-/

namespace Persistence

open Python FileSystem List PyDict

/-! ## Fields of a document that was read back -/

def canonicalItems (fields : List (Str × Value)) : Items :=
  (sortByKey (fields.map fun f => (f.1, f.2.canonical))).map fun f => (.str f.1, f.2)

theorem canonical_record_eq (fields : List (Str × Value)) :
    (Value.record fields).canonical = .dict (canonicalItems fields) := canonical_record fields

theorem itemAt_map (fields : List (Str × Value)) (key : Str) :
    itemAt (fields.map fun f => (.str f.1, f.2)) key = get fields key := by
  induction fields with
  | nil => rfl
  | cons f fields ih => rw [map_cons, itemAt, ih, get_cons]

variable {α : Type}

theorem get_map_snd {β : Type} (f : α → β) (d : PyDict Str α) (key : Str) :
    get (d.map fun item => (item.1, f item.2)) key = (d.get key).map f := by
  induction d with
  | nil => rfl
  | cons item d ih =>
    rw [map_cons, get_cons, get_cons, ih]
    split <;> rfl

theorem get_sortByKey {d : PyDict Str α} (h : d.keys.Nodup) (key : Str) :
    get (sortByKey d) key = d.get key :=
  (get_perm (perm_sortByKey d).symm h key).symm

theorem itemAt_canonicalItems {fields : List (Str × Value)} (h : (fields.map Prod.fst).Nodup) (key : Str) :
    itemAt (canonicalItems fields) key = (get fields key).map Value.canonical := by
  have hkeys : PyDict.keys (fields.map fun f => (f.1, f.2.canonical)) = fields.map Prod.fst := by
    rw [PyDict.keys, map_map]
    rfl
  rw [canonicalItems, itemAt_map, get_sortByKey (by rwa [hkeys]), get_map_snd]

/-! ## The record of a slot -/

theorem nodup_entryFields (epoch : Nat) (slot : SnapshotSlot) :
    ((entryFields epoch slot).map Prod.fst).Nodup := by
  simp only [entryFields, map_cons, map_nil]
  decide

def slotItems (epoch : Nat) (slot : SnapshotSlot) : Items := canonicalItems (entryFields epoch slot)

section Fields

variable (epoch : Nat) (slot : SnapshotSlot)

theorem itemAt_slotItems (key : Str) :
    itemAt (slotItems epoch slot) key = (get (entryFields epoch slot) key).map Value.canonical :=
  itemAt_canonicalItems (nodup_entryFields epoch slot) key

variable {epoch slot} {key : Str}

theorem itemAt_text {s : Str} (h : get (entryFields epoch slot) key = some (.str s)) :
    itemAt (slotItems epoch slot) key = some (.str s) := by
  rw [itemAt_slotItems, h, Option.map_some, Value.canonical]
  all_goals simp

theorem itemAt_number {i : Int} (h : get (entryFields epoch slot) key = some (.int i)) :
    itemAt (slotItems epoch slot) key = some (.int i) := by
  rw [itemAt_slotItems, h, Option.map_some, Value.canonical]
  all_goals simp

variable [Objects]

theorem textOr_of_str {items : Items} {key : String} {s : Str} (h : itemAt items (lit key) = some (.str s)) :
    textOr items key = s := by
  rw [textOr, h]
  cases s <;> rfl

theorem slotKeyOf_slotItems : slotKeyOf (slotItems epoch slot) = slot.slotKey := by
  rw [slotKeyOf, itemAt_text rfl]
  rfl

theorem textOr_codec : textOr (slotItems epoch slot) "codec" = slot.codec :=
  textOr_of_str (itemAt_text rfl)

theorem textOr_contentHash : textOr (slotItems epoch slot) "content_hash" = slot.contentHash :=
  textOr_of_str (itemAt_text rfl)

end Fields

section Entries

variable (epoch : Nat) (slots : List SnapshotSlot)

def slotFields : PyDict Str (List (Str × Value)) :=
  slots.foldl (fun fields slot => fields.set slot.shortName (entryFields epoch slot)) []

theorem map_set {β : Type} (f : α → β) (d : PyDict Str α) (key : Str) (value : α) :
    (d.set key value).map (fun item => (item.1, f item.2)) =
      set (d.map fun item => (item.1, f item.2)) key (f value) := by
  induction d with
  | nil => rfl
  | cons item d ih =>
    rw [map_cons, PyDict.set, PyDict.set]
    split
    · rfl
    · rw [map_cons, ih]

theorem sidecarEntries_eq : sidecarEntries epoch slots =
    (slotFields epoch slots).map fun item => (item.1, Value.record item.2) := by
  rw [sidecarEntries, slotFields, ← foldl_hom fun d : PyDict Str (List (Str × Value)) =>
    d.map fun item => (item.1, Value.record item.2)]
  · rfl
  · exact fun d slot => (map_set Value.record d slot.shortName _).symm

theorem nodup_slotFields : (slotFields epoch slots).keys.Nodup :=
  nodup_keys_foldl_set _ _ slots nodup_nil

theorem get_slotFields (shortName : Str) : (slotFields epoch slots).get shortName =
    (lastSlot slots shortName).map (entryFields epoch) := by
  rw [slotFields, get_foldl_set, lastSlot]
  cases slots.reverse.find? fun slot => slot.shortName = shortName <;> rfl

/-- The metadata of a reader: the records of the sidecar, with the short names in order. -/
def slotMeta : PyDict Str Items :=
  sortByKey ((slotFields epoch slots).map fun item => (item.1, canonicalItems item.2))

theorem nodup_slotMeta : (slotMeta epoch slots).keys.Nodup := by
  have hperm := (perm_sortByKey ((slotFields epoch slots).map fun item =>
    (item.1, canonicalItems item.2))).map Prod.fst
  rw [slotMeta, PyDict.keys, hperm.nodup_iff, map_map]
  exact nodup_slotFields epoch slots

theorem get_slotMeta (shortName : Str) : (slotMeta epoch slots).get shortName =
    (lastSlot slots shortName).map (slotItems epoch) := by
  have hkeys : PyDict.keys ((slotFields epoch slots).map fun item => (item.1, canonicalItems item.2)) =
      (slotFields epoch slots).keys := by
    rw [PyDict.keys, map_map]
    rfl
  rw [slotMeta, get_sortByKey (by rw [hkeys]; exact nodup_slotFields epoch slots),
    get_map_snd canonicalItems, get_slotFields, Option.map_map]
  rfl

variable {epoch slots} in
theorem mem_slotMeta {item : Str × Items} : item ∈ slotMeta epoch slots ↔
    ∃ last, lastSlot slots item.1 = some last ∧ slotItems epoch last = item.2 := by
  have hget : (slotMeta epoch slots).get item.1 = some item.2 ↔ item ∈ slotMeta epoch slots :=
    get_eq_some_iff (nodup_slotMeta epoch slots)
  rw [← hget, get_slotMeta, Option.map_eq_some_iff]

theorem canonicalItems_sidecarEntries : canonicalItems (sidecarEntries epoch slots) =
    (slotMeta epoch slots).map fun item => (.str item.1, .dict item.2) := by
  rw [canonicalItems, sidecarEntries_eq, map_map, slotMeta]
  have hvalues : ((fun f : Str × Value => (f.1, f.2.canonical)) ∘
      fun item : Str × List (Str × Value) => (item.1, Value.record item.2)) =
      fun item => (item.1, Value.dict (canonicalItems item.2)) := by
    funext item
    exact congrArg _ (canonical_record_eq item.2)
  rw [hvalues, sortByKey_map fun fields => Value.dict (canonicalItems fields),
    sortByKey_map canonicalItems, map_map, map_map]
  rfl

variable [Objects]

theorem entryMetaOf_eq : entryMetaOf (canonicalItems (sidecarEntries epoch slots)) =
    slotMeta epoch slots := by
  rw [canonicalItems_sidecarEntries, entryMetaOf, foldl_map]
  have hset := foldl_set_of_nodup Prod.fst Prod.snd (slotMeta epoch slots) []
    (nodup_slotMeta epoch slots)
  simp only [nil_append, Prod.mk.eta, map_id'] at hset
  exact hset

theorem get_metaBySlotOf (entryMeta : PyDict Str Items) {key : Str} (hkey : key ≠ []) :
    (metaBySlotOf entryMeta).get key =
      (entryMeta.find? fun item => slotKeyOf item.2 = key).map Prod.snd := by
  suffices hfold : ∀ metaBySlot : PyDict Str Items, get (entryMeta.foldl (fun metaBySlot item =>
      let key := slotKeyOf item.2
      if key = [] ∨ (metaBySlot.get key).isSome then metaBySlot else metaBySlot.set key item.2)
        metaBySlot) key =
      (metaBySlot.get key).or ((entryMeta.find? fun item => slotKeyOf item.2 = key).map Prod.snd) from hfold []
  induction entryMeta with
  | nil =>
    intro metaBySlot
    cases h : metaBySlot.get key <;> simp [h]
  | cons item entryMeta ih =>
    intro metaBySlot
    rw [foldl_cons, ih]
    dsimp only
    by_cases hitem : slotKeyOf item.2 = key
    · subst hitem
      cases h : metaBySlot.get (slotKeyOf item.2) with
      | some items => simp [h]
      | none => simp [hkey]
    · have hget : get (if slotKeyOf item.2 = [] ∨ (metaBySlot.get (slotKeyOf item.2)).isSome then
          metaBySlot else metaBySlot.set (slotKeyOf item.2) item.2) key = metaBySlot.get key := by
        split
        · rfl
        · exact get_set_of_ne _ _ (Ne.symm hitem)
      rw [hget, find?_cons_of_neg (by simpa using hitem)]

end Entries

/-! ## The record that a reader finds -/

section Found

variable {slots : List SnapshotSlot} {slot : SnapshotSlot}

theorem mem_of_lastSlot {shortName : Str} (h : lastSlot slots shortName = some slot) :
    slot ∈ slots ∧ slot.shortName = shortName :=
  ⟨mem_reverse.mp (mem_of_find?_eq_some h), by simpa using find?_some h⟩

theorem exists_lastSlot (h : slot ∈ slots) : ∃ last, lastSlot slots slot.shortName = some last := by
  cases hlast : lastSlot slots slot.shortName with
  | some last => exact ⟨last, rfl⟩
  | none => simpa using find?_eq_none.mp hlast slot (mem_reverse.mpr h)

theorem lastSlot_self (hnodup : (slots.map SnapshotSlot.shortName).Nodup) (h : slot ∈ slots) :
    lastSlot slots slot.shortName = some slot := by
  obtain ⟨last, hlast⟩ := exists_lastSlot h
  obtain ⟨hmem, hname⟩ := mem_of_lastSlot hlast
  rw [hlast, inj_on_of_nodup_map hnodup hmem h hname]

theorem recordedSlot_self (hnodup : (slots.map SnapshotSlot.shortName).Nodup) (h : slot ∈ slots) :
    recordedSlot slots slot = some slot := by
  rw [recordedSlot, lastSlot_self hnodup h]
  exact if_pos rfl

theorem slotKey_ne_nil (nodePath name : Str) : slotKey nodePath name ≠ [] := by
  simp [slotKey, lit]

variable [Objects] (epoch : Nat)

/-- A slot key finds the record of its slot, if no later slot with the same short name has replaced
it. -/
theorem get_metaBySlotOf_slotMeta (hnodup : (slots.map SnapshotSlot.slotKey).Nodup) (hslot : slot ∈ slots)
    (hkey : slot.slotKey ≠ []) :
    (metaBySlotOf (slotMeta epoch slots)).get slot.slotKey =
      if lastSlot slots slot.shortName = some slot then some (slotItems epoch slot) else none := by
  -- a record with this slot key is that of the slot
  have hfound : ∀ item ∈ slotMeta epoch slots, slotKeyOf item.2 = slot.slotKey →
      lastSlot slots slot.shortName = some slot ∧ item.2 = slotItems epoch slot := by
    intro item hitem hitemKey
    obtain ⟨last, hlast, hitems⟩ := mem_slotMeta.mp hitem
    obtain ⟨hlastMem, hlastName⟩ := mem_of_lastSlot hlast
    rw [← hitems, slotKeyOf_slotItems] at hitemKey
    obtain rfl := inj_on_of_nodup_map hnodup hlastMem hslot hitemKey
    rw [hlastName]
    exact ⟨hlast, hitems.symm⟩
  rw [get_metaBySlotOf _ hkey]
  cases hfind : (slotMeta epoch slots).find? fun item => slotKeyOf item.2 = slot.slotKey with
  | some item =>
    obtain ⟨hlast, hitems⟩ := hfound item (mem_of_find?_eq_some hfind)
      (by simpa using find?_some hfind)
    rw [if_pos hlast, Option.map_some, hitems]
  | none =>
    rw [if_neg, Option.map_none]
    intro hlast
    have hrecord : (slot.shortName, slotItems epoch slot) ∈ slotMeta epoch slots :=
      mem_slotMeta.mpr ⟨slot, hlast, rfl⟩
    have hnot := find?_eq_none.mp hfind _ hrecord
    simp [slotKeyOf_slotItems] at hnot

theorem metaForSlot_eq (r : Reader) (hmeta : r.entryMeta = slotMeta epoch slots)
    (hbySlot : r.metaBySlot = metaBySlotOf (slotMeta epoch slots))
    (hnodup : (slots.map SnapshotSlot.slotKey).Nodup) (hslot : slot ∈ slots) (hkey : slot.slotKey ≠ []) :
    r.metaForSlot slot.slotKey = ((recordedSlot slots slot).map (slotItems epoch)).getD [] := by
  obtain ⟨last, hlast⟩ := exists_lastSlot hslot
  have hiff : last.slotKey = slot.slotKey ↔ last = slot :=
    ⟨fun h => inj_on_of_nodup_map hnodup (mem_of_lastSlot hlast).1 hslot h, fun h => h ▸ rfl⟩
  rw [Reader.metaForSlot, hmeta, hbySlot, get_metaBySlotOf_slotMeta epoch hnodup hslot hkey, recordedSlot,
    hlast]
  dsimp only
  by_cases h : last = slot
  · rw [if_pos (congrArg some h), if_pos (hiff.mpr h), h]
    rfl
  · rw [if_neg fun heq => h (Option.some.inj heq), if_neg fun heq => h (hiff.mp heq), get_slotMeta]

end Found

section Load

variable {slots : List SnapshotSlot} {ts : Nat} {name path : Str}

theorem nodup_sidecarFields (header : FileHeader) (total slotCount : Nat) :
    ((sidecarFields header total name path slotCount slots).map Prod.fst).Nodup := by
  simp only [sidecarFields, map_cons, map_nil]
  decide

theorem document_snapshotSidecar : (snapshotSidecar slots ts name path).Document 3 := by
  have hentry : ∀ slot, (Value.record (entryFields ts slot)).Document 1 := by
    intro slot
    refine .record 0 _ (nodup_entryFields ts slot) fun f hf => ?_
    simp only [entryFields, mem_cons, not_mem_nil, or_false] at hf
    rcases hf with rfl | rfl | rfl | rfl | rfl | rfl | rfl | rfl
    all_goals first | exact .str .. | exact .int ..
  have hentries : (Value.record (sidecarEntries ts slots)).Document 2 := by
    refine .record 1 _ (nodup_keys_foldl_set _ _ slots nodup_nil) fun f hf => ?_
    rw [sidecarEntries_eq] at hf
    obtain ⟨item, hitem, rfl⟩ := mem_map.mp hf
    have hget := (get_eq_some_iff (nodup_slotFields ts slots)).mpr hitem
    rw [get_slotFields, Option.map_eq_some_iff] at hget
    obtain ⟨slot, -, hfields⟩ := hget
    exact hfields ▸ hentry slot
  refine .record 2 _ (nodup_sidecarFields ..) fun f hf => ?_
  simp only [sidecarFields, mem_cons, not_mem_nil, or_false] at hf
  rcases hf with rfl | rfl | rfl | rfl | rfl | rfl | rfl | rfl | rfl | rfl
  all_goals first | exact .str .. | exact .int .. | exact hentries

def sidecarItemsOf (slots : List SnapshotSlot) (ts : Nat) (name path : Str) : Items :=
  canonicalItems (sidecarFields (snapshotHeader slots ts) (snapshotFile slots ts).length name path
    slots.length slots)

theorem itemAt_sidecar {key : Str} {value : Value}
    (h : get (sidecarFields (snapshotHeader slots ts) (snapshotFile slots ts).length name path
      slots.length slots) key = some value) :
    itemAt (sidecarItemsOf slots ts name path) key = some value.canonical := by
  rw [sidecarItemsOf, itemAt_canonicalItems (nodup_sidecarFields ..), h]
  rfl

variable [Objects]

variable {raw : Bytes}

theorem entriesOf_snapshot : entriesOf (sidecarItemsOf slots ts name path) =
    some (canonicalItems (sidecarEntries ts slots)) := by
  have hentries : itemAt (sidecarItemsOf slots ts name path) (lit "entries") =
      some (.dict (canonicalItems (sidecarEntries ts slots))) :=
    (itemAt_sidecar rfl).trans (congrArg some (canonical_record_eq (sidecarEntries ts slots)))
  rw [entriesOf, hentries]
  dsimp only
  cases hitems : canonicalItems (sidecarEntries ts slots) with
  | nil => rfl
  | cons item items => rfl

theorem checkEpoch_eq_ok {found expected : Nat} {message : String} :
    checkEpoch (some (.int found)) expected message = .ok () ↔ found = expected := by
  have hraise : checkEpoch (some (.int found)) expected message =
      integrityIf ((found : Int) ≠ expected) .snapshotEpochMismatch message := rfl
  rw [hraise, integrityIf_eq_ok, not_ne_iff, Nat.cast_inj]

variable (hjson : JsonLaw) (hraw : Objects.jsonDumps (snapshotSidecar slots ts name path) = .ok raw)
include hjson hraw

theorem jsonLoads_snapshot :
    Objects.jsonLoads raw = .ok (.dict (sidecarItemsOf slots ts name path)) := by
  rw [hjson.loads _ raw document_snapshotSidecar hraw, snapshotSidecar, canonical_record_eq]
  rfl

theorem loadSidecar_eq (header : FileHeader)
    (size : Nat) : loadSidecar header size (some raw) = do
      checkEpoch (some (.int ts)) header.ts
        "TDS data file and sidecar metadata describe different snapshots"
      checkEpoch (some (.int (snapshotFile slots ts).length)) size
        "TDS data file size and sidecar metadata size disagree"
      return slotMeta ts slots := by
  have hts : itemAt (sidecarItemsOf slots ts name path) (lit "tds_header_ts") = some (.int ts) := by
    rw [itemAt_sidecar rfl, Value.canonical]
    · rfl
    all_goals simp
  have hsize : itemAt (sidecarItemsOf slots ts name path) (lit "tds_file_size") =
      some (.int (snapshotFile slots ts).length) := by
    rw [itemAt_sidecar rfl, Value.canonical]
    all_goals simp
  rw [loadSidecar, jsonLoads_snapshot hjson hraw]
  dsimp only
  rw [hts, hsize, entriesOf_snapshot]
  dsimp only
  rw [entryMetaOf_eq]

/-- The sidecar of a snapshot is accepted for a data file with its epoch and size. -/
theorem loadSidecar_eq_ok {header : FileHeader}
    {size : Nat} {entryMeta : PyDict Str Items} :
    loadSidecar header size (some raw) = .ok entryMeta ↔
      ts = header.ts ∧ (snapshotFile slots ts).length = size ∧ entryMeta = slotMeta ts slots := by
  rw [loadSidecar_eq hjson hraw, bind_eq_ok]
  constructor
  · rintro ⟨_, hepoch, hrest⟩
    obtain ⟨_, hlength, hmeta⟩ := bind_eq_ok.mp hrest
    exact ⟨checkEpoch_eq_ok.mp hepoch, checkEpoch_eq_ok.mp hlength, (Except.ok.inj hmeta).symm⟩
  · rintro ⟨hepoch, hlength, rfl⟩
    exact ⟨(), checkEpoch_eq_ok.mpr hepoch, bind_eq_ok.mpr ⟨(), checkEpoch_eq_ok.mpr hlength, rfl⟩⟩

theorem loadSidecar_snapshot :
    loadSidecar (snapshotHeader slots ts) (snapshotFile slots ts).length (some raw) =
      .ok (slotMeta ts slots) :=
  (loadSidecar_eq_ok hjson hraw).mpr ⟨rfl, rfl, rfl⟩

end Load

end Persistence
