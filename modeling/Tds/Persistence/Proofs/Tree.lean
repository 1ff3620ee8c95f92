import Tds.Persistence.Proofs.Reader

/-!
# A tree is restored from its snapshot

`tree_restored_iff`: writing a tree and opening the file gives all entries back if and only if all of
it fits into the format, no two slots have one key, and the record that the sidecar has for each slot
is good enough to read it.
-/

namespace Persistence

open Python FileSystem Storage List

section Restore

theorem scalar_of_storable {slots : List SnapshotSlot} {ts : Nat} (h : Storable slots ts) {slot : SnapshotSlot}
    (hslot : slot ∈ slots) : slot.slotKey.all isScalar = true := by
  obtain ⟨cursor, hrecord, -⟩ := exists_record hslot
  exact (h.records _ hrecord).scalar

variable [Objects]

theorem slotOf_eq (visit : Str × Entry) {payload : Bytes} (h : serializeEntry visit.2 = .ok payload) :
    slotOf visit = snapshotSlot visit.1 visit.2 payload := by
  rw [slotOf, h]
  rfl

/-- The slots of a tree whose entries can be serialised are those that the writer makes. -/
theorem forall₂_slotted_iff {visits : List (Str × Entry)} {slots : List SnapshotSlot}
    (h : ∀ visit ∈ visits, ∃ payload, serializeEntry visit.2 = .ok payload) :
    List.Forall₂ Slotted visits slots ↔
      slots = visits.map slotOf ∧ ∀ visit ∈ visits, (slotKey visit.1 visit.2.name).all isScalar = true := by
  constructor
  · intro hslots
    induction hslots with
    | nil => simp
    | cons hslot _ ih =>
      obtain ⟨payload, hpayload, hscalar, rfl⟩ := hslot
      obtain ⟨hrest, hscalars⟩ := ih (forall_mem_cons.mp h).2
      rw [map_cons, ← hrest, slotOf_eq _ hpayload]
      exact ⟨rfl, forall_mem_cons.mpr ⟨hscalar, hscalars⟩⟩
  · rintro ⟨rfl, hscalar⟩
    rw [forall₂_map_right_iff, forall₂_same]
    intro visit hvisit
    obtain ⟨payload, hpayload⟩ := h visit hvisit
    exact ⟨payload, hpayload, hscalar visit hvisit, slotOf_eq _ hpayload⟩

variable [Runtime]

/-- Writing the tree and opening the file succeeds, and every entry has the value it had. -/
def Restored (tree : Tree) (path : Str) (ts : Nat) (fileName : Str) (syncs : Bool) (v : Volume FileName) :
    Prop :=
  ∃ n v', (write tree path true ts).run (Volume.exec syncs) v = (.ok n, v') ∧
    ∃ r, openVolume fileName v' = .ok r ∧
      ∀ visit ∈ tree.visits true path,
        r.read (slotKey visit.1 visit.2.name) none none = .ok (.value visit.2.data)

/-- The slots and the sidecar fit into the format, the slot keys are distinct, and every slot can be read
with the codec and the hash that the sidecar has for it. -/
structure Restorable (tree : Tree) (path : Str) (ts : Nat) : Prop where
  storable : Storable (tree.slots path) ts
  encodable : (snapshotSidecar (tree.slots path) ts tree.name path).isEncodable = true
  distinct : ((tree.slots path).map SnapshotSlot.slotKey).Nodup
  recorded : ∀ visit ∈ tree.visits true path, (slotOf visit).ReadsAs
    (recordedCodec (tree.slots path) (slotOf visit)).1 (recordedCodec (tree.slots path) (slotOf visit)).2
    visit.2.data

theorem Faithful.serializeEntry {entry : Entry} (h : Faithful entry) :
    ∃ payload, serializeEntry entry = .ok payload := by
  obtain ⟨raw, hraw, -, -, hcompress⟩ := h
  rw [Persistence.serializeEntry, hraw, ok_bind]
  split
  · next hcompressed =>
    obtain ⟨stored, hstored, -⟩ := hcompress hcompressed
    exact ⟨stored, hstored⟩
  · exact ⟨raw, rfl⟩

theorem Faithful.readsAs {entry : Entry} (h : Faithful entry) (path : Str) :
    (slotOf (path, entry)).ReadsAs entry.codec entry.contentHash entry.data := by
  obtain ⟨raw, hraw, hhash, hvalue, hcompress⟩ := h
  by_cases hcompressed : isCompressed entry.fmtId = true
  · obtain ⟨stored, hstored, hplain⟩ := hcompress hcompressed
    have hpayload : Persistence.serializeEntry entry = .ok stored := by
      rw [Persistence.serializeEntry, hraw, ok_bind, if_pos hcompressed, hstored]
    rw [slotOf_eq (path, entry) hpayload]
    refine ⟨raw, ?_, .inr hhash.symm, hvalue⟩
    rw [plainPayload, show (snapshotSlot path entry stored).fmtId = entry.fmtId from rfl,
      if_pos hcompressed, show (snapshotSlot path entry stored).payload = stored from rfl, hplain]
  · have hpayload : Persistence.serializeEntry entry = .ok raw := by
      rw [Persistence.serializeEntry, hraw, ok_bind, if_neg hcompressed]
      rfl
    rw [slotOf_eq (path, entry) hpayload]
    exact ⟨raw, if_neg hcompressed, .inr hhash.symm, hvalue⟩

/-- A tree whose entries have distinct names is restorable if it fits into the format. -/
theorem restorable_of_nodup {tree : Tree} {path : Str} {ts : Nat}
    (hfaithful : ∀ visit ∈ tree.visits true path, Faithful visit.2)
    (hnames : ((tree.slots path).map SnapshotSlot.shortName).Nodup)
    (hkeys : ((tree.slots path).map SnapshotSlot.slotKey).Nodup) (hstorable : Storable (tree.slots path) ts)
    (hencodable : (snapshotSidecar (tree.slots path) ts tree.name path).isEncodable = true) :
    Restorable tree path ts where
  storable := hstorable
  encodable := hencodable
  distinct := hkeys
  recorded visit hvisit := by
    rw [recordedCodec, recordedSlot_self hnames (mem_map_of_mem hvisit)]
    exact (hfaithful visit hvisit).readsAs visit.1

theorem restored_iff_restorable (hjson : JsonLaw) {tree : Tree} {path : Str}
    (hfaithful : ∀ visit ∈ tree.visits true path, Faithful visit.2) (ts : Nat) (fileName : Str)
    (syncs : Bool) (v : Volume FileName) :
    Restored tree path ts fileName syncs v ↔ Restorable tree path ts := by
  have hserialize := fun visit hvisit => (hfaithful visit hvisit).serializeEntry
  have hread : ∀ (_ : ((tree.slots path).map SnapshotSlot.slotKey).Nodup),
      ∀ visit ∈ tree.visits true path,
        (snapshotReader fileName (tree.slots path) ts).read (slotKey visit.1 visit.2.name) none none =
            .ok (.value visit.2.data) ↔
          (slotOf visit).ReadsAs (recordedCodec (tree.slots path) (slotOf visit)).1
            (recordedCodec (tree.slots path) (slotOf visit)).2 visit.2.data := by
    intro hnodup visit hvisit
    have hslot : slotOf visit ∈ tree.slots path := mem_map_of_mem hvisit
    have hmain := read_snapshot fileName ts hnodup hslot
      (slotKey_ne_nil visit.1 visit.2.name) none none
    rw [show (slotOf visit).slotKey = slotKey visit.1 visit.2.name from rfl] at hmain
    rw [hmain, Except.ok.injEq]
    exact readSnapshot_eq_value _
  constructor
  · rintro ⟨n, v', hrun, r, hopen, hvalues⟩
    obtain ⟨slots, hslots, hstorable, -, raw, hraw, rfl⟩ := run_write_eq_ok.mp hrun
    obtain ⟨rfl, -⟩ := (forall₂_slotted_iff hserialize).mp hslots
    rw [openVolume_committed fileName hstorable hjson hraw] at hopen
    split at hopen
    · next hnodup =>
      cases hopen
      exact ⟨hstorable, (hjson.dumps _ document_snapshotSidecar).mp ⟨raw, hraw⟩, hnodup,
        fun visit hvisit => (hread hnodup visit hvisit).mp (hvalues visit hvisit)⟩
    · cases hopen
  · intro h
    obtain ⟨raw, hraw⟩ := (hjson.dumps _ document_snapshotSidecar).mpr h.encodable
    have hscalar : ∀ visit ∈ tree.visits true path, (slotKey visit.1 visit.2.name).all isScalar = true :=
      fun visit hvisit => scalar_of_storable h.storable (mem_map_of_mem hvisit)
    refine ⟨_, _, run_write_eq_ok.mpr ⟨tree.slots path, (forall₂_slotted_iff hserialize).mpr ⟨rfl, hscalar⟩,
      h.storable, rfl, raw, hraw, rfl⟩, snapshotReader fileName (tree.slots path) ts, ?_, ?_⟩
    · rw [openVolume_committed fileName h.storable hjson hraw, if_pos h.distinct]
    · exact fun visit hvisit => (hread h.distinct visit hvisit).mpr (h.recorded visit hvisit)

end Restore

/-! ## Two directories with an entry of the same name -/

section Sample

instance (record : SlotRecord) : Decidable record.InRange :=
  decidable_of_iff (record.name.all isScalar = true ∧ (utf8 record.name).length ≤ 0xFFFF ∧
    record.length ≤ 0xFFFFFFFF ∧ record.offset ≤ 0xFFFFFFFFFFFFFFFF ∧ record.fmtId ≤ 0xFFFF)
    ⟨fun h => ⟨h.1, h.2.1, h.2.2.1, h.2.2.2.1, h.2.2.2.2⟩,
      fun h => ⟨h.scalar, h.name, h.length, h.offset, h.fmtId⟩⟩

instance (header : FileHeader) : Decidable header.Fits :=
  decidable_of_iff (header.version < 256 ^ 4 ∧ header.slotCount < 256 ^ 8 ∧
    header.indexOffset < 256 ^ 8 ∧ header.dataOffset < 256 ^ 8 ∧ header.ts < 256 ^ 8)
    ⟨fun h => ⟨h.1, h.2.1, h.2.2.1, h.2.2.2.1, h.2.2.2.2⟩,
      fun h => ⟨h.version, h.slotCount, h.indexOffset, h.dataOffset, h.ts⟩⟩

instance (slots : List SnapshotSlot) (ts : Nat) : Decidable (Storable slots ts) :=
  decidable_of_iff ((∀ record ∈ slotRecords 0 slots, record.InRange) ∧ (snapshotHeader slots ts).Fits)
    ⟨fun h => ⟨h.1, h.2⟩, fun h => ⟨h.records, h.header⟩⟩

attribute [local instance] sampleRuntime documentObjects

def textEntry (name text : String) : Entry where
  name := lit name
  fmtId := textUtf8
  data := .str (lit text)
  codec := []
  payloadKind := kindName textUtf8
  contentHash := (sha256 (utf8 (lit text))).hex
  rawSize := (utf8 (lit text)).length
  storedSize := (utf8 (lit text)).length

theorem faithful_textEntry (name text : String) : Faithful (textEntry name text) := by
  have hencode : encodeUtf8 (lit text) = some (utf8 (lit text)) := if_pos (all_isScalar_lit text)
  have hdecode : decodeUtf8 (utf8 (lit text)) = some (lit text) := decodeUtf8_flatMap (all_isScalar_lit text)
  have hbase : baseFmt textUtf8 = textUtf8 := by decide
  refine ⟨utf8 (lit text), ?_, rfl, ?_, fun h => absurd h (by decide : ¬ isCompressed textUtf8 = true)⟩
  · have hdumps : dumpsText (.str (lit text)) = .ok (utf8 (lit text)) := by rw [dumpsText, hencode]
    rw [serializePayload, show (textEntry name text).fmtId = textUtf8 from rfl, hbase]
    exact hdumps
  · have hloads : loadsText (utf8 (lit text)) = .ok (.str (lit text)) := by rw [loadsText, hdecode]
    rw [show (textEntry name text).fmtId = textUtf8 from rfl, hbase]
    exact hloads

def sampleTree (name : String) : Tree :=
  .node (lit "root") [textEntry "x" "one"] [.node (lit "sub") [textEntry name "two"] []]

theorem faithful_sampleTree (name : String) :
    ∀ visit ∈ (sampleTree name).visits true (lit "/root"), Faithful visit.2 := by
  have hvisits : (sampleTree name).visits true (lit "/root") =
      [(lit "/root", textEntry "x" "one"), (lit "/root/sub", textEntry name "two")] := rfl
  rw [hvisits]
  intro visit hvisit
  rcases mem_cons.mp hvisit with rfl | hvisit
  · exact faithful_textEntry ..
  · rw [mem_singleton.mp hvisit]
    exact faithful_textEntry ..

def emptyVolume : Volume FileName := .settled fun _ => none

theorem sampleTree_fits : Storable ((sampleTree "y").slots (lit "/root")) 7 ∧
    (snapshotSidecar ((sampleTree "y").slots (lit "/root")) 7 (sampleTree "y").name
      (lit "/root")).isEncodable = true ∧
    (((sampleTree "y").slots (lit "/root")).map SnapshotSlot.slotKey).Nodup := by
  decide +kernel

def isMismatch (result : Checked Reading) : Bool :=
  okAnd result fun
    | .failed .payloadHashMismatch message =>
      message = lit "Persisted payload content_hash mismatch; data not returned."
    | _ => false

theorem eq_of_isMismatch {result : Checked Reading} (h : isMismatch result = true) :
    result = .ok (.failed .payloadHashMismatch
      (lit "Persisted payload content_hash mismatch; data not returned.")) := by
  obtain ⟨a, rfl, ha⟩ := exists_of_okAnd h
  split at ha
  · rw [of_decide_eq_true ha]
  · cases ha

end Sample

end Persistence
