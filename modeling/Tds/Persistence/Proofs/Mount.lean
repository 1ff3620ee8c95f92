import Tds.FileSystem.Proofs.Listing
import Tds.Persistence.Proofs.Tree

/-!
# A directory that was flushed is loaded again

`node_reloaded`: a directory of faithful entries that was flushed is loaded with the same names, and every
entry has its format, codec and value.
-/

namespace Persistence

open Python FileSystem Storage List EntryIndex

section Slots

variable {d : Directory}

theorem names_of_filed (h : d.Filed) : d.entries.allValues.map Entry.name =
    d.entries.keys.map Subtype.val := by
  have hname : ∀ key ∈ d.entries.keys, (d.entries.get key).map Entry.name = some key.val := by
    intro key hkey
    obtain ⟨entry, hentry⟩ := h.placed.exists_get h.index hkey
    rw [hentry, Option.map_some, h.named key entry hentry]
  rw [h.placed.allValues_eq, map_filterMap, filterMap_congr hname]
  exact congrFun filterMap_eq_map d.entries.keys

theorem nodup_names (h : d.Filed) : (d.entries.allValues.map Entry.name).Nodup := by
  rw [names_of_filed h]
  exact h.placed.nodup_keys.map Subtype.val_injective

theorem mem_allValues (h : d.Filed) {entry : Entry} :
    entry ∈ d.entries.allValues ↔ ∃ key, d.entries.get key = some entry := by
  rw [h.placed.allValues_eq, mem_filterMap]
  constructor
  · rintro ⟨key, -, hentry⟩
    exact ⟨key, hentry⟩
  · rintro ⟨key, hentry⟩
    exact ⟨key, mem_keys_of_get h.index.maps_ne_nil hentry, hentry⟩

theorem slotKey_injective (path : Str) : Function.Injective (slotKey path) :=
  fun _ _ h => append_cancel_left h

theorem nodup_slotKeys {slots : List SnapshotSlot} {path : Str}
    (hkeys : ∀ slot ∈ slots, slot.slotKey = slotKey path slot.shortName)
    (hnames : (slots.map SnapshotSlot.shortName).Nodup) : (slots.map SnapshotSlot.slotKey).Nodup := by
  have hslotKeys : slots.map SnapshotSlot.slotKey =
      (slots.map SnapshotSlot.shortName).map (slotKey path) := by
    rw [map_map]
    exact map_congr_left hkeys
  rw [hslotKeys]
  exact hnames.map (slotKey_injective path)

end Slots

section Load

variable {slots : List SnapshotSlot} {slot : SnapshotSlot}

def loadedEntry (slot : SnapshotSlot) : LazyEntry :=
  ⟨slot.shortName, slot.slotKey, slot.fmtId, slot.payloadKind, slot.contentHash, slot.rawSize,
    slot.storedSize, slot.codec⟩

section Items

variable (epoch : Nat)

theorem itemAt_entryMeta (shortName : Str) :
    itemAt ((slotMeta epoch slots).map fun item => (.str item.1, .dict item.2)) shortName =
      (lastSlot slots shortName).map fun slot => Value.dict (slotItems epoch slot) := by
  have hitem := itemAt_map ((slotMeta epoch slots).map fun item => (item.1, Value.dict item.2)) shortName
  rw [map_map] at hitem
  refine hitem.trans ?_
  rw [get_map_snd, get_slotMeta, Option.map_map]
  rfl

theorem slotItems_ne_nil (slot : SnapshotSlot) : slotItems epoch slot ≠ [] := by
  intro h
  have hkey : itemAt (slotItems epoch slot) (lit "slot_key") = some (.str slot.slotKey) := itemAt_text rfl
  rw [h] at hkey
  cases hkey

variable [Objects]

theorem get_slotToName (hnames : (slots.map SnapshotSlot.shortName).Nodup)
    (hkeys : ∀ slot ∈ slots, slot.slotKey ≠ []) (hnodup : (slots.map SnapshotSlot.slotKey).Nodup)
    (hslot : slot ∈ slots) :
    (slotToName (canonicalItems (sidecarEntries epoch slots))).get slot.slotKey = some slot.shortName := by
  have hitems : ∀ item ∈ slotMeta epoch slots, ∃ found ∈ slots,
      found.shortName = item.1 ∧ slotItems epoch found = item.2 := by
    intro item hitem
    obtain ⟨found, hfound, hfields⟩ := mem_slotMeta.mp hitem
    exact ⟨found, (mem_of_lastSlot hfound).1, (mem_of_lastSlot hfound).2, hfields⟩
  -- every record has a slot key, so that each of them names its slot
  have hfold : slotToName (canonicalItems (sidecarEntries epoch slots)) =
      (slotMeta epoch slots).foldl (fun (names : PyDict Str Str) item => names.set (slotKeyOf item.2) item.1) [] := by
    rw [canonicalItems_sidecarEntries, slotToName, foldl_map]
    refine foldl_ext _ _ _ fun names item hitem => ?_
    obtain ⟨found, hfound, -, hfields⟩ := hitems item hitem
    have hkey : itemAt item.2 (lit "slot_key") = some (.str found.slotKey) := by
      rw [← hfields]
      exact itemAt_text rfl
    have htruthy : (Value.str found.slotKey).truthy = true := by
      cases hcases : found.slotKey with
      | nil => exact absurd hcases (hkeys found hfound)
      | cons c rest => rfl
    dsimp only
    rw [hkey]
    dsimp only
    rw [if_pos htruthy, slotKeyOf, hkey]
    rfl
  rw [hfold, PyDict.get_foldl_set]
  cases hfind : (slotMeta epoch slots).reverse.find? fun item => slotKeyOf item.2 = slot.slotKey with
  | some item =>
    have hmem := mem_reverse.mp (mem_of_find?_eq_some hfind)
    have hkey : slotKeyOf item.2 = slot.slotKey := by simpa using find?_some hfind
    obtain ⟨found, hfound, hname, hfields⟩ := hitems item hmem
    rw [← hfields, slotKeyOf_slotItems] at hkey
    dsimp only
    rw [← hname, inj_on_of_nodup_map hnodup hfound hslot hkey]
  | none =>
    have hmem : (slot.shortName, slotItems epoch slot) ∈ slotMeta epoch slots :=
      mem_slotMeta.mpr ⟨slot, lastSlot_self hnames hslot, rfl⟩
    have hnot := find?_eq_none.mp hfind _ (mem_reverse.mpr hmem)
    simp [slotKeyOf_slotItems] at hnot

theorem textAt_of_str {items : Items} {key : String} {s : Str}
    (h : itemAt items (lit key) = some (.str s)) : textAt items key = s := by
  rw [textAt, h]
  rfl

theorem numberAt_of_int {items : Items} {key : String} {i : Int}
    (h : itemAt items (lit key) = some (.int i)) : numberAt items key = .ok i := by
  rw [numberAt, h]
  dsimp only
  split
  · rfl
  · next hfalse =>
    have hzero : i = 0 := by simpa [Value.truthy] using hfalse
    rw [hzero]

theorem lazyEntry_eq (hnames : (slots.map SnapshotSlot.shortName).Nodup)
    (hkeys : ∀ slot ∈ slots, slot.slotKey ≠ []) (hnodup : (slots.map SnapshotSlot.slotKey).Nodup)
    (hslot : slot ∈ slots) (cursor : Nat) :
    lazyEntry (canonicalItems (sidecarEntries epoch slots)) (slot.record cursor) =
      .ok (loadedEntry slot) := by
  have hname : ((slotToName (canonicalItems (sidecarEntries epoch slots))).get
      (slot.record cursor).name).getD (shortNameOf (slot.record cursor).name) = slot.shortName := by
    rw [show (slot.record cursor).name = slot.slotKey from rfl,
      get_slotToName epoch hnames hkeys hnodup hslot, Option.getD_some]
  have hitem : itemAt (canonicalItems (sidecarEntries epoch slots)) slot.shortName =
      some (.dict (slotItems epoch slot)) := by
    rw [canonicalItems_sidecarEntries, itemAt_entryMeta, lastSlot_self hnames hslot]
    rfl
  obtain ⟨field, fields, hfields⟩ := exists_cons_of_ne_nil (slotItems_ne_nil epoch slot)
  unfold lazyEntry
  dsimp only
  rw [hname, hitem, hfields]
  dsimp only
  rw [← hfields, numberAt_of_int (itemAt_number rfl), ok_bind, numberAt_of_int (itemAt_number rfl), ok_bind,
    textAt_of_str (itemAt_text rfl), textAt_of_str (itemAt_text rfl), textAt_of_str (itemAt_text rfl)]
  rfl

end Items

variable [Objects]

theorem putRecords_slotRecords {entryMeta : Items} (cursor : Nat) {entries : EntryIndex LazyEntry}
    (bloom : BloomFilter) (hindex : entries.WellFormed) (hplaced : entries.Placed)
    (hlazy : ∀ slot ∈ slots, ∀ cursor, lazyEntry entryMeta (slot.record cursor) = .ok (loadedEntry slot))
    (hscalar : ∀ slot ∈ slots, slot.shortName.all isScalar = true) :
    ∃ loaded, putRecords entryMeta (slotRecords cursor slots) (entries, bloom) = .ok loaded ∧
      loaded.1.WellFormed ∧ loaded.1.Placed ∧
      ∀ key : Key, loaded.1.get key = match lastSlot slots key.val with
        | some slot => some (loadedEntry slot)
        | none => entries.get key := by
  induction slots generalizing cursor entries bloom with
  | nil => exact ⟨_, rfl, hindex, hplaced, fun key => rfl⟩
  | cons slot slots ih =>
    obtain ⟨hlazy, hlazys⟩ := forall_mem_cons.mp hlazy
    obtain ⟨hscalar, hscalars⟩ := forall_mem_cons.mp hscalar
    have hkey : keyOf (loadedEntry slot).name = .ok ⟨slot.shortName, hscalar⟩ := dif_pos hscalar
    obtain ⟨hindex', hget'⟩ := hindex.put ⟨slot.shortName, hscalar⟩ (loadedEntry slot)
    have hplaced' := hplaced.put hindex.maps_ne_nil ⟨slot.shortName, hscalar⟩ (loadedEntry slot)
    obtain ⟨loaded, hrun, hwell, hplace, hget⟩ := ih (cursor + slot.payload.length)
      (bloom.add ⟨slot.shortName, hscalar⟩) hindex' hplaced' hlazys hscalars
    refine ⟨loaded, ?_, hwell, hplace, fun key => ?_⟩
    · rw [slotRecords, putRecords, hlazy cursor, ok_bind, hkey, ok_bind]
      exact hrun
    · rw [hget key, lastSlot, lastSlot, reverse_cons, find?_append]
      cases slots.reverse.find? fun slot => slot.shortName = key.val with
      | some found => rfl
      | none =>
        dsimp only
        rw [hget', Option.none_or]
        by_cases h : slot.shortName = key.val
        · rw [if_pos (Subtype.ext h.symm), find?_cons_of_pos (by simpa using h)]
        · rw [if_neg fun heq => h (congrArg Subtype.val heq).symm, find?_cons_of_neg (by simpa using h)]
          rfl

theorem loadNode_snapshot (fileName stem : Str) {ts : Nat} {name path : Str} {raw : Bytes}
    (h : Storable slots ts) (hjson : JsonLaw)
    (hraw : Objects.jsonDumps (snapshotSidecar slots ts name path) = .ok raw)
    (hnames : (slots.map SnapshotSlot.shortName).Nodup)
    (hkeys : ∀ slot ∈ slots, slot.slotKey = slotKey path slot.shortName) :
    ∃ node, loadNode fileName stem (snapshotFile slots ts) (some raw) = .ok node ∧ node.name = name ∧
      node.reader = snapshotReader fileName slots ts ∧ node.entries.WellFormed ∧ node.entries.Placed ∧
      ∀ key : Key, node.entries.get key = (lastSlot slots key.val).map loadedEntry := by
  have hnodup := nodup_slotKeys hkeys hnames
  have hne : ∀ slot ∈ slots, slot.slotKey ≠ [] := by
    intro slot hslot
    rw [hkeys slot hslot]
    exact slotKey_ne_nil _ _
  have hscalar : ∀ slot ∈ slots, slot.shortName.all isScalar = true := by
    intro slot hslot
    have hall := scalar_of_storable h hslot
    rw [hkeys slot hslot, slotKey, all_append, Bool.and_eq_true] at hall
    exact hall.2
  obtain ⟨loaded, hput, hwell, hplaced, hget⟩ := putRecords_slotRecords 0 .init
    wellFormed_init placed_init
    (fun slot hslot cursor => lazyEntry_eq ts hnames hne hnodup hslot cursor) hscalar
  have hname : itemAt (sidecarItemsOf slots ts name path) (lit "node_name") = some (.str name) := by
    rw [itemAt_sidecar rfl, Value.canonical]
    all_goals simp
  have hmeta : entryMeta (sidecarItemsOf slots ts name path) =
      .ok (canonicalItems (sidecarEntries ts slots)) := by
    have hfmt : itemAt (sidecarItemsOf slots ts name path) (lit "fmt_id") = none := by
      rw [sidecarItemsOf, itemAt_canonicalItems (nodup_sidecarFields ..)]
      rfl
    rw [entryMeta, hfmt, entriesOf_snapshot]
    rfl
  refine ⟨⟨name, loaded.1, loaded.2, snapshotReader fileName slots ts⟩, ?_, rfl, rfl, hwell, hplaced,
    fun key => ?_⟩
  · unfold loadNode
    rw [openReader_snapshot fileName h hjson hraw, if_pos hnodup, ok_bind]
    dsimp only
    rw [sidecarItems, jsonLoads_snapshot hjson hraw]
    dsimp only
    rw [hname, hmeta, show plainly (.ok (canonicalItems (sidecarEntries ts slots))) =
        .ok (canonicalItems (sidecarEntries ts slots)) from rfl, ok_bind,
      show (snapshotReader fileName slots ts).records = slotRecords 0 slots from rfl, hput]
    rfl
  · rw [hget key]
    cases lastSlot slots key.val with
    | some slot => rfl
    | none => exact get_init key

end Load

section Flush

variable [Runtime] [Objects] {d : Directory} {parallel syncs : Bool} {ts n : Nat} {v v' : Volume FileName}

/-- A directory that was flushed is loaded with the same names, and every entry is read from its own
payload. -/
theorem loadVolume_flushed (hjson : JsonLaw) (hfiled : d.Filed)
    (hflush : (flushNode d parallel ts).run (Volume.exec syncs) v = (.ok n, v')) (fileName stem : Str) :
    ∃ node, loadVolume fileName stem v' = .ok node ∧ node.name = d.name ∧
      node.entries.keys.Perm d.entries.keys ∧
      ∀ key entry, d.entries.get key = some entry →
        ∃ payload, serializeEntry entry = .ok payload ∧
          node.entries.get key = some (loadedEntry (snapshotSlot d.path entry payload)) ∧
          node.data (loadedEntry (snapshotSlot d.path entry payload)) =
            .ok (readSnapshot payload entry.fmtId entry.codec entry.contentHash) := by
  obtain ⟨slots, hslots, hstorable, -, raw, hraw, rfl⟩ := run_flushNode_eq_ok.mp hflush
  have hslotted : ∀ slot ∈ slots, ∃ entry payload, serializeEntry entry = .ok payload ∧
      slot = snapshotSlot d.path entry payload := by
    intro slot hslot
    obtain ⟨visit, hvisit, payload, hpayload, -, rfl⟩ := exists_of_forall₂_left hslots.flip hslot
    obtain ⟨entry, -, rfl⟩ := mem_map.mp hvisit
    exact ⟨entry, payload, hpayload, rfl⟩
  have hshort : slots.map SnapshotSlot.shortName = d.entries.allValues.map Entry.name := by
    have hvisits : (d.entries.allValues.map (d.path, ·)).map (fun visit => visit.2.name) =
        slots.map SnapshotSlot.shortName := by
      refine map_eq_map_of_forall₂ hslots fun visit slot hslot => ?_
      obtain ⟨payload, -, -, rfl⟩ := hslot
      rfl
    rw [← hvisits, map_map]
    rfl
  have hnames : (slots.map SnapshotSlot.shortName).Nodup := hshort ▸ nodup_names hfiled
  have hkeys : ∀ slot ∈ slots, slot.slotKey = slotKey d.path slot.shortName := by
    intro slot hslot
    obtain ⟨entry, payload, -, rfl⟩ := hslotted slot hslot
    rfl
  obtain ⟨node, hload, hname, hreader, hwell, hplaced, hget⟩ :=
    loadNode_snapshot fileName stem hstorable hjson hraw hnames hkeys
  have hentry : ∀ key entry, d.entries.get key = some entry → ∃ payload,
      serializeEntry entry = .ok payload ∧ snapshotSlot d.path entry payload ∈ slots ∧
      node.entries.get key = some (loadedEntry (snapshotSlot d.path entry payload)) := by
    intro key entry hentry
    have hmem : (d.path, entry) ∈ d.entries.allValues.map (d.path, ·) :=
      mem_map_of_mem ((mem_allValues hfiled).mpr ⟨key, hentry⟩)
    obtain ⟨slot, hslot, payload, hpayload, -, rfl⟩ := exists_of_forall₂_left hslots hmem
    refine ⟨payload, hpayload, hslot, ?_⟩
    rw [hget key, ← hfiled.named key entry hentry]
    exact congrArg (Option.map loadedEntry) (lastSlot_self hnames hslot)
  refine ⟨node, ?_, hname, ?_, fun key entry h => ?_⟩
  · rw [loadVolume, read_committed_path, read_committed_sidecar]
    exact hload
  · refine (perm_ext_iff_of_nodup hplaced.nodup_keys hfiled.placed.nodup_keys).mpr fun key => ?_
    constructor
    · intro hkey
      obtain ⟨entry, hentry⟩ := hplaced.exists_get hwell hkey
      rw [hget key, Option.map_eq_some_iff] at hentry
      obtain ⟨slot, hslot, -⟩ := hentry
      obtain ⟨hmem, hslotName⟩ := mem_of_lastSlot hslot
      have hname : key.val ∈ d.entries.allValues.map Entry.name := by
        rw [← hshort, ← hslotName]
        exact mem_map_of_mem hmem
      rw [names_of_filed hfiled] at hname
      obtain ⟨key', hkey', heq⟩ := mem_map.mp hname
      exact Subtype.ext heq ▸ hkey'
    · intro hkey
      obtain ⟨entry, h⟩ := hfiled.placed.exists_get hfiled.index hkey
      obtain ⟨payload, -, -, hnode⟩ := hentry key entry h
      exact mem_keys_of_get hwell.maps_ne_nil hnode
  · obtain ⟨payload, hpayload, hslot, hnode⟩ := hentry key entry h
    refine ⟨payload, hpayload, hnode, ?_⟩
    have hread := read_snapshot fileName ts (nodup_slotKeys hkeys hnames) hslot (slotKey_ne_nil d.path entry.name)
      (some entry.codec) (some entry.contentHash)
    rw [LoadedNode.data, hreader]
    exact hread

/-- Loading a directory of faithful entries that was flushed gives the same names, each with its format,
codec and value. -/
theorem node_reloaded (hjson : JsonLaw) (hfiled : d.Filed)
    (hfaithful : ∀ key entry, d.entries.get key = some entry → Faithful entry)
    (hflush : (flushNode d parallel ts).run (Volume.exec syncs) v = (.ok n, v')) (fileName stem : Str) :
    ∃ node, loadVolume fileName stem v' = .ok node ∧ node.entries.keys.Perm d.entries.keys ∧
      ∀ key entry, d.entries.get key = some entry → ∃ loaded, node.entries.get key = some loaded ∧
        loaded.name = key.val ∧ loaded.fmtId = entry.fmtId ∧ loaded.codec = entry.codec ∧
        node.data loaded = .ok (.value entry.data) := by
  obtain ⟨node, hload, -, hkeys, hentries⟩ := loadVolume_flushed hjson hfiled hflush fileName stem
  refine ⟨node, hload, hkeys, fun key entry hentry => ?_⟩
  obtain ⟨payload, hpayload, hget, hdata⟩ := hentries key entry hentry
  refine ⟨_, hget, hfiled.named key entry hentry, rfl, rfl, hdata.trans (congrArg Except.ok ?_)⟩
  have hreads := (hfaithful key entry hentry).readsAs d.path
  rw [slotOf_eq (d.path, entry) hpayload] at hreads
  exact (readSnapshot_eq_value (snapshotSlot d.path entry payload)).mpr hreads

theorem exists_flush_iff (hjson : JsonLaw) (hfiled : d.Filed)
    (hfaithful : ∀ key entry, d.entries.get key = some entry → Faithful entry) :
    (∃ n v', (flushNode d parallel ts).run (Volume.exec syncs) v = (.ok n, v')) ↔
      Storable (d.entries.allValues.map fun entry => slotOf (d.path, entry)) ts ∧
      (snapshotSidecar (d.entries.allValues.map fun entry => slotOf (d.path, entry)) ts d.name
        d.path).isEncodable = true := by
  have hserialize : ∀ visit ∈ d.entries.allValues.map (d.path, ·),
      ∃ payload, serializeEntry visit.2 = .ok payload := by
    intro visit hvisit
    obtain ⟨entry, hentry, rfl⟩ := mem_map.mp hvisit
    obtain ⟨key, hget⟩ := (mem_allValues hfiled).mp hentry
    exact (hfaithful key entry hget).serializeEntry
  have hmap : (d.entries.allValues.map (d.path, ·)).map slotOf =
      d.entries.allValues.map fun entry => slotOf (d.path, entry) := map_map ..
  rw [← hmap]
  constructor
  · rintro ⟨n, v', hflush⟩
    obtain ⟨slots, hslots, hstorable, -, raw, hraw, -⟩ := run_flushNode_eq_ok.mp hflush
    obtain ⟨rfl, -⟩ := (forall₂_slotted_iff hserialize).mp hslots
    exact ⟨hstorable, (hjson.dumps _ document_snapshotSidecar).mp ⟨raw, hraw⟩⟩
  · rintro ⟨hstorable, hencodable⟩
    obtain ⟨raw, hraw⟩ := (hjson.dumps _ document_snapshotSidecar).mpr hencodable
    refine ⟨_, _, run_flushNode_eq_ok.mpr ⟨_, (forall₂_slotted_iff hserialize).mpr ⟨rfl, ?_⟩, hstorable, rfl,
      raw, hraw, rfl⟩⟩
    exact fun visit hvisit => scalar_of_storable hstorable (mem_map_of_mem hvisit)

end Flush

section Sample

attribute [local instance] sampleScores

def filedUnder (d : Directory) (name : String) (entry : Entry) : Directory :=
  (d.exec (.indexPut ⟨lit name, all_isScalar_lit name⟩ entry)).2

theorem filed_emptySample : emptySample.Filed where
  index := (Directory.filed_init (lit "root") (lit "/root") sampleConfig id).index
  placed := (Directory.filed_init (lit "root") (lit "/root") sampleConfig id).placed
  named := (Directory.filed_init (lit "root") (lit "/root") sampleConfig id).named

theorem filed_filedUnder {d : Directory} (h : d.Filed) {name : String} {entry : Entry}
    (hname : entry.name = lit name) : (filedUnder d name entry).Filed := by
  have hop : Files (.indexPut ⟨lit name, all_isScalar_lit name⟩ entry) := hname
  exact h.exec hop

theorem get_filedUnder {d : Directory} (h : d.Filed) (name : String) (entry : Entry) (key : Key) :
    (filedUnder d name entry).entries.get key =
      if key = ⟨lit name, all_isScalar_lit name⟩ then some entry else d.entries.get key :=
  (h.index.put _ entry).2 key

attribute [local instance] sampleRuntime documentObjects

def sampleNode : Directory :=
  filedUnder (filedUnder emptySample "a/b" (textEntry "a/b" "one")) "x__y" (textEntry "x__y" "two")

theorem filed_sampleNode : sampleNode.Filed :=
  filed_filedUnder (filed_filedUnder filed_emptySample rfl) rfl

theorem faithful_sampleNode : ∀ key entry, sampleNode.entries.get key = some entry → Faithful entry := by
  intro key entry hentry
  rw [sampleNode, get_filedUnder (filed_filedUnder filed_emptySample rfl),
    get_filedUnder filed_emptySample] at hentry
  split at hentry
  · cases hentry
    exact faithful_textEntry ..
  · split at hentry
    · cases hentry
      exact faithful_textEntry ..
    · rw [emptySample, Directory.init, get_init] at hentry
      cases hentry

/-- The theorem at this directory. -/
theorem node_reloaded_sample :
    ∃ n v', (flushNode sampleNode true 7).run (Volume.exec true) emptyVolume = (.ok n, v') ∧
      ∃ node, loadVolume (lit "root.tds") (lit "root") v' = .ok node ∧
        node.entries.keys.Perm sampleNode.entries.keys ∧
        ∀ key entry, sampleNode.entries.get key = some entry →
          ∃ loaded, node.entries.get key = some loaded ∧ loaded.name = key.val ∧
            loaded.fmtId = entry.fmtId ∧ loaded.codec = entry.codec ∧
            node.data loaded = .ok (.value entry.data) := by
  have hjson : JsonLaw := jsonLaw_document rfl rfl
  have hflushes : ∃ n v', (flushNode sampleNode true 7).run (Volume.exec true) emptyVolume = (.ok n, v') :=
    (exists_flush_iff hjson filed_sampleNode faithful_sampleNode).mpr
      (by decide +kernel)
  obtain ⟨n, v', hflush⟩ := hflushes
  exact ⟨n, v', hflush, node_reloaded hjson filed_sampleNode faithful_sampleNode hflush (lit "root.tds")
    (lit "root")⟩

end Sample

section Codec

variable [Objects] {entry : Entry} {payload : Bytes}

theorem plainPayload_serializeEntry
    (hcompress : ∀ raw stored, Objects.compress entry.codec raw = .ok stored →
      Objects.decompress entry.codec stored = .ok raw)
    (hpayload : serializeEntry entry = .ok payload) :
    ∃ raw, serializePayload entry.data entry.fmtId = .ok raw ∧
      plainPayload payload entry.fmtId entry.codec = some raw := by
  obtain ⟨raw, hraw, hpayload⟩ := bind_eq_ok.mp hpayload
  refine ⟨raw, hraw, ?_⟩
  unfold plainPayload
  split at hpayload
  · next h => rw [if_pos h, hcompress raw payload hpayload]
  · next h =>
    cases hpayload
    exact if_neg h

variable [Runtime] [Scores] {same : Value → Value → Prop}

/-- A value whose write was acknowledged is read back after a flush, up to what the codec identifies, just
when encoding the stored value again gives the bytes that were hashed. -/
theorem value_reloaded_iff (hjson : JsonLaw) (hsame : Equivalence same) {config : RuntimeConfig}
    {args : WriteArgs} {d₀ d₁ d : Directory} {key : Key}
    (hcodec : ∀ value raw, serialize value (baseFmt args.fmtId) = .ok raw →
      ∃ value', deserialize raw (baseFmt args.fmtId) = .ok value' ∧ same value' value)
    (hcompress : ∀ raw stored, Objects.compress entry.codec raw = .ok stored →
      Objects.decompress entry.codec stored = .ok raw)
    (hwrite : (writeEntry config args).run Directory.exec d₀ = (.ok entry, d₁))
    (hfiled : d.Filed) (hentry : d.entries.get key = some entry) {parallel syncs : Bool} {ts n : Nat}
    {v v' : Volume FileName}
    (hflush : (flushNode d parallel ts).run (Volume.exec syncs) v = (.ok n, v')) (fileName stem : Str) :
    (∃ node loaded value, loadVolume fileName stem v' = .ok node ∧ node.entries.get key = some loaded ∧
      node.data loaded = .ok (.value value) ∧ same value args.value) ↔
      ∃ raw, serializePayload entry.data entry.fmtId = .ok raw ∧ (sha256 raw).hex = entry.contentHash := by
  obtain ⟨policy, hmake⟩ := makeEntry_of_run hwrite
  obtain ⟨first, hfirst, hfrozen, -, hhash, hfmt⟩ := of_makeEntry hmake
  obtain ⟨node, hload, -, -, hentries⟩ := loadVolume_flushed hjson hfiled hflush fileName stem
  obtain ⟨payload, hpayload, hget, hdata⟩ := hentries key entry hentry
  obtain ⟨raw, hraw, hplain⟩ := plainPayload_serializeEntry hcompress hpayload
  have hne : entry.contentHash ≠ [] := by
    rw [hhash]
    exact (sha256 first).hex_ne_nil
  have hvalue : ∀ value, node.data (loadedEntry (snapshotSlot d.path entry payload)) = .ok (.value value) ↔
      (sha256 raw).hex = entry.contentHash ∧ deserialize raw (baseFmt entry.fmtId) = .ok value := by
    intro value
    rw [hdata, Except.ok.injEq]
    refine (readSnapshot_eq_value (snapshotSlot d.path entry payload)).trans ?_
    constructor
    · rintro ⟨raw', hraw', hor, hdecode⟩
      obtain rfl := Option.some.inj (hplain.symm.trans hraw')
      exact ⟨(hor.resolve_left hne).symm, hdecode⟩
    · rintro ⟨hequal, hdecode⟩
      exact ⟨raw, hplain, .inr hequal.symm, hdecode⟩
  constructor
  · rintro ⟨node', loaded, value, hload', hget', hdata', -⟩
    obtain rfl := Except.ok.inj (hload.symm.trans hload')
    obtain rfl := Option.some.inj (hget.symm.trans hget')
    exact ⟨raw, hraw, ((hvalue value).mp hdata').1⟩
  · rintro ⟨raw', hraw', hequal⟩
    obtain rfl := Except.ok.inj (hraw.symm.trans hraw')
    rw [serializePayload, hfmt] at hraw
    obtain ⟨value, hdecode, hstored⟩ := hcodec entry.data raw hraw
    obtain ⟨frozen, hfrozen', hwritten⟩ := hcodec args.value first hfirst
    obtain rfl := Except.ok.inj (hfrozen.symm.trans hfrozen')
    refine ⟨node, _, value, hload, hget, (hvalue value).mpr ⟨hequal, ?_⟩, hsame.trans hstored hwritten⟩
    rw [hfmt]
    exact hdecode

end Codec

section Equal

/-- Python where any two objects are equal. The first of them is pickled to other bytes than the second,
and only the second is ever loaded; so do sets whose elements were inserted in another order. -/
@[reducible] def pickleObjects : Objects := { documentObjects with
  pickleDumps := fun value => match value with
    | .object 0 => .ok [0]
    | .object 1 => .ok [1]
    | _ => raise .typeError []
  pickleLoads := fun _ => .ok (.object 1) }

/-- Equal, or both opaque. -/
def SameObject (a b : Value) : Prop := a = b ∨ ∃ i j, a = .object i ∧ b = .object j

theorem equivalence_sameObject : Equivalence SameObject where
  refl a := .inl rfl
  symm := by
    rintro a b (rfl | ⟨i, j, rfl, rfl⟩)
    · exact .inl rfl
    · exact .inr ⟨j, i, rfl, rfl⟩
  trans := by
    rintro a b c (rfl | ⟨i, j, rfl, rfl⟩) (rfl | ⟨k, l, hb, rfl⟩)
    · exact .inl rfl
    · exact .inr ⟨k, l, hb, rfl⟩
    · exact .inr ⟨i, j, rfl, rfl⟩
    · exact .inr ⟨i, l, rfl, rfl⟩

attribute [local instance] sampleRuntime pickleObjects sampleScores

theorem deserialize_pickle (value : Value) (raw : Bytes)
    (h : serialize value (baseFmt pickleObj) = .ok raw) :
    ∃ value', deserialize raw (baseFmt pickleObj) = .ok value' ∧ SameObject value' value := by
  have hdumps : Objects.pickleDumps value = .ok raw := h
  refine ⟨.object 1, rfl, .inr ⟨1, ?_⟩⟩
  cases value with
  | object i => exact ⟨i, rfl, rfl⟩
  | _ => cases hdumps

def objectArgs (i : Nat) : WriteArgs := ⟨lit "x", .object i, pickleObj, some false, []⟩

def objectEntry (raw : Bytes) : Entry where
  name := lit "x"
  fmtId := pickleObj
  data := .object 1
  codec := lit "zlib"
  payloadKind := kindName pickleObj
  contentHash := (sha256 raw).hex
  rawSize := raw.length
  storedSize := raw.length

def objectNode (raw : Bytes) : Directory := filedUnder emptySample "x" (objectEntry raw)

theorem filed_objectNode (raw : Bytes) : (objectNode raw).Filed := filed_filedUnder filed_emptySample rfl

def objectKey : Key := ⟨lit "x", all_isScalar_lit "x"⟩

theorem get_objectNode (raw : Bytes) : (objectNode raw).entries.get objectKey = some (objectEntry raw) := by
  rw [objectNode, get_filedUnder filed_emptySample]
  exact if_pos rfl

/-- The theorem at the object that is pickled alike again. -/
theorem value_reloaded_sample :
    ∃ n v', (flushNode (objectNode [1]) false 7).run (Volume.exec true) emptyVolume = (.ok n, v') ∧
      ∃ node loaded value, loadVolume (lit "root.tds") (lit "root") v' = .ok node ∧
        node.entries.get objectKey = some loaded ∧ node.data loaded = .ok (.value value) ∧
        SameObject value (.object 1) := by
  obtain ⟨n, v', hflush, -⟩ := exists_of_okAnd_fst
    ((flushNode (objectNode [1]) false 7).run (Volume.exec true) emptyVolume) (fun _ => true)
    (by decide +kernel)
  obtain ⟨d₁, hwrite⟩ : ∃ d₁, (writeEntry sampleConfig (objectArgs 1)).run Directory.exec emptySample =
      (.ok (objectEntry [1]), d₁) := ⟨_, rfl⟩
  have hcodec : ∀ value raw, serialize value (baseFmt (objectArgs 1).fmtId) = .ok raw →
      ∃ value', deserialize raw (baseFmt (objectArgs 1).fmtId) = .ok value' ∧ SameObject value' value :=
    deserialize_pickle
  have hcompress : ∀ raw stored, Objects.compress (objectEntry [1]).codec raw = .ok stored →
      Objects.decompress (objectEntry [1]).codec stored = .ok raw := by
    intro raw stored hstored
    cases hstored
    rfl
  exact ⟨n, v', hflush, (value_reloaded_iff (jsonLaw_document rfl rfl) equivalence_sameObject hcodec hcompress
    hwrite (filed_objectNode [1]) (get_objectNode [1]) hflush (lit "root.tds") (lit "root")).mpr
      ⟨[1], rfl, rfl⟩⟩

/-- The object that is pickled differently is not returned, though its write was acknowledged and the codec
gives an equal object back. -/
theorem value_lost_sample :
    (∀ value raw, serialize value (baseFmt pickleObj) = .ok raw →
      ∃ value', deserialize raw (baseFmt pickleObj) = .ok value' ∧ SameObject value' value) ∧
    (∃ d₁, (writeEntry sampleConfig (objectArgs 0)).run Directory.exec emptySample =
      (.ok (objectEntry [0]), d₁)) ∧
    ∃ n v', (flushNode (objectNode [0]) false 7).run (Volume.exec true) emptyVolume = (.ok n, v') ∧
      ∃ node loaded, loadVolume (lit "root.tds") (lit "root") v' = .ok node ∧
        node.entries.get objectKey = some loaded ∧
        node.data loaded = .ok (.failed .payloadHashMismatch
          (lit "Persisted payload content_hash mismatch; data not returned.")) := by
  obtain ⟨n, v', hflush, hload⟩ := exists_of_okAnd_fst
    ((flushNode (objectNode [0]) false 7).run (Volume.exec true) emptyVolume)
    (fun v' => okAnd (loadVolume (lit "root.tds") (lit "root") v') fun node =>
      (node.entries.get objectKey).any fun loaded => isMismatch (node.data loaded)) (by decide +kernel)
  obtain ⟨node, hnode, hdata⟩ := exists_of_okAnd hload
  obtain ⟨loaded, hget, hmismatch⟩ := (Option.any_eq_true _ _).mp hdata
  exact ⟨deserialize_pickle, ⟨_, rfl⟩, n, v', hflush, node, loaded, hnode, hget,
    eq_of_isMismatch hmismatch⟩

end Equal

end Persistence
