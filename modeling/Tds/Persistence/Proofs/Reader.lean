import Tds.Persistence.Proofs.Sidecar

/-!
# What a reader makes of a snapshot

`openVolume_committed`: what a writer has left behind is opened if and only if its slot keys are
distinct. `read_snapshot`: a slot is then read from its own payload, with the codec and the hash of the
record that the sidecar has for it.
-/

namespace Persistence

open Python FileSystem Storage List

section Open

variable {slots : List SnapshotSlot} {ts : Nat}

theorem hashed_slotRecords (cursor : Nat) (slots : List SnapshotSlot) :
    ∀ record ∈ slotRecords cursor slots, record.Hashed := by
  induction slots generalizing cursor with
  | nil => simp [slotRecords]
  | cons slot slots ih => exact forall_mem_cons.mpr ⟨rfl, ih _⟩

theorem validateSlotGeometry_slotRecords {header : FileHeader} {cursor : Nat}
    (h : cursor + (payloads slots).length ≤ header.indexOffset - header.dataOffset) :
    validateSlotGeometry header (slotRecords cursor slots) = .ok () := by
  induction slots generalizing cursor with
  | nil => rfl
  | cons slot slots ih =>
    rw [length_payloads_cons] at h
    have hbounds : ¬ (header.indexOffset - header.dataOffset < (slot.record cursor).offset ∨
        header.indexOffset - header.dataOffset <
          (slot.record cursor).offset + (slot.record cursor).length) := by
      simp only [SnapshotSlot.record]
      omega
    rw [slotRecords, validateSlotGeometry, integrityIf_neg hbounds, ok_bind, ih (by omega)]

variable [Objects]

theorem openData_snapshot (h : Storable slots ts) : openData (snapshotFile slots ts) =
    if (slots.map SnapshotSlot.slotKey).Nodup then .ok (snapshotHeader slots ts, slotRecords 0 slots)
    else .error (.integrity .indexCorrupt (lit "Duplicate slot name in TDS index")) := by
  have hheader := (snapshotHeader slots ts).length_octets (snapshotHeader slots ts).crc
  have hlength : (snapshotFile slots ts).length =
      fileHdrSize + (payloads slots).length + ((slotRecords 0 slots).flatMap SlotRecord.octets).length := by
    rw [length_snapshotFile, hheader]
  have htake : (snapshotFile slots ts).take fileHdrSize =
      (snapshotHeader slots ts).octets (snapshotHeader slots ts).crc := by
    rw [snapshotFile, append_assoc]
    exact take_left' hheader
  have hdrop : (snapshotFile slots ts).drop (snapshotHeader slots ts).indexOffset =
      (slotRecords 0 slots).flatMap SlotRecord.octets := by
    rw [snapshotFile]
    exact drop_left' (by rw [length_append, hheader]; rfl)
  have hgeometry : validateFileGeometry (snapshotHeader slots ts) (snapshotFile slots ts).length =
      .ok () := by
    have h₁ : ¬ (snapshotHeader slots ts).dataOffset < fileHdrSize := Nat.lt_irrefl _
    have h₂ : ¬ (snapshotHeader slots ts).indexOffset < (snapshotHeader slots ts).dataOffset :=
      Nat.not_lt.mpr (Nat.le_add_right ..)
    have h₃ : ¬ (snapshotFile slots ts).length < (snapshotHeader slots ts).indexOffset := by
      rw [hlength]
      exact Nat.not_lt.mpr (Nat.le_add_right ..)
    rw [validateFileGeometry, integrityIf_neg h₁, ok_bind, integrityIf_neg h₂, ok_bind, integrityIf_neg h₃]
  have hindex : SlotIndex.fromBytes ((slotRecords 0 slots).flatMap SlotRecord.octets)
      (snapshotHeader slots ts).slotCount =
      if (slots.map SnapshotSlot.slotKey).Nodup then .ok (slotRecords 0 slots)
      else .error (.integrity .indexCorrupt (lit "Duplicate slot name in TDS index")) := by
    rw [← map_name_slotRecords 0, ← fromBytes_octets h.records (hashed_slotRecords 0 slots),
      length_slotRecords]
    rfl
  rw [openData, integrityIf_neg (by rw [hlength]; omega), ok_bind, htake,
    parseFileHeader_octets h.header rfl, Except.mapError, ok_bind, hgeometry, ok_bind, hdrop, hindex]
  split
  · rw [ok_bind, validateSlotGeometry_slotRecords (by simp [snapshotHeader])]
    rfl
  · rfl

variable {v : Volume FileName} {syncs : Bool} {raw : Bytes} {name path : Str}

def snapshotReader (fileName : Str) (slots : List SnapshotSlot) (ts : Nat) : Reader :=
  ⟨fileName, snapshotFile slots ts, snapshotHeader slots ts, slotRecords 0 slots, slotMeta ts slots,
    metaBySlotOf (slotMeta ts slots)⟩

theorem openReader_snapshot (fileName : Str) (h : Storable slots ts) (hjson : JsonLaw)
    (hraw : Objects.jsonDumps (snapshotSidecar slots ts name path) = .ok raw) :
    openReader fileName (snapshotFile slots ts) (some raw) =
      if (slots.map SnapshotSlot.slotKey).Nodup then .ok (snapshotReader fileName slots ts)
      else .error (.integrity .indexCorrupt (lit "Duplicate slot name in TDS index")) := by
  rw [openReader, openData_snapshot h]
  split
  · rw [ok_bind]
    dsimp only
    rw [loadSidecar_snapshot hjson hraw]
    rfl
  · rfl

omit [Objects] in
theorem read_committed_path : (committed syncs v slots ts raw).read .path =
    some (snapshotFile slots ts) := by
  rw [committed, read_commitFile_of_ne (by decide) (by decide), read_commitFile_self (by decide)]

omit [Objects] in
theorem read_committed_sidecar : (committed syncs v slots ts raw).read .sidecar = some raw := by
  rw [committed, read_commitFile_self (by decide)]

theorem openVolume_committed (fileName : Str) (h : Storable slots ts) (hjson : JsonLaw)
    (hraw : Objects.jsonDumps (snapshotSidecar slots ts name path) = .ok raw) :
    openVolume fileName (committed syncs v slots ts raw) =
      if (slots.map SnapshotSlot.slotKey).Nodup then .ok (snapshotReader fileName slots ts)
      else .error (.integrity .indexCorrupt (lit "Duplicate slot name in TDS index")) := by
  rw [openVolume, read_committed_path, read_committed_sidecar]
  exact openReader_snapshot fileName h hjson hraw

end Open

section Read

variable [Runtime] [Objects] {slots : List SnapshotSlot} {slot : SnapshotSlot}

omit [Runtime] [Objects] in
theorem exists_record (h : slot ∈ slots) : ∃ cursor, slot.record cursor ∈ slotRecords 0 slots ∧
    ((payloads slots).drop cursor).take slot.payload.length = slot.payload ∧
    cursor + slot.payload.length ≤ (payloads slots).length := by
  obtain ⟨before, after, rfl⟩ := append_of_mem h
  refine ⟨(payloads before).length, ?_, ?_, ?_⟩
  · rw [slotRecords_append, slotRecords, Nat.zero_add]
    exact mem_append_right _ mem_cons_self
  · rw [show payloads (before ++ slot :: after) = payloads before ++ (slot.payload ++ payloads after) by
      simp [payloads], drop_left' rfl, take_left' rfl]
  · simp [payloads]

omit [Runtime] [Objects] in
theorem storedPayload_eq {r : Reader} {record : SlotRecord}
    (hindex : r.header.dataOffset + record.offset + record.length ≤ r.header.indexOffset)
    (hfile : r.header.dataOffset + record.offset + record.length ≤ r.file.length) :
    r.storedPayload record =
      .ok ((r.file.drop (r.header.dataOffset + record.offset)).take record.length) := by
  have hbounds : ¬ (r.header.indexOffset < r.header.dataOffset + record.offset + record.length ∨
      r.file.length < r.header.dataOffset + record.offset + record.length) := by omega
  have hshort : ¬ ((r.file.drop (r.header.dataOffset + record.offset)).take record.length).length ≠
      record.length := by
    rw [length_take, length_drop]
    omega
  unfold Reader.storedPayload
  dsimp only
  rw [integrityIf_neg hbounds, ok_bind, integrityIf_neg hshort, ok_bind]
  rfl

theorem read_snapshot (fileName : Str) (ts : Nat) (hnodup : (slots.map SnapshotSlot.slotKey).Nodup)
    (hslot : slot ∈ slots) (hkey : slot.slotKey ≠ []) (codec contentHash : Option Str) :
    (snapshotReader fileName slots ts).read slot.slotKey codec contentHash =
      .ok (readSnapshot slot.payload slot.fmtId (codec.getD (recordedCodec slots slot).1)
        (contentHash.getD (recordedCodec slots slot).2)) := by
  obtain ⟨cursor, hrecord, hpayload, hbound⟩ := exists_record hslot
  have hlookup : SlotIndex.lookup (slotRecords 0 slots) slot.slotKey = some (slot.record cursor) :=
    lookup_eq_some (by rwa [map_name_slotRecords]) hrecord
  have hmeta := metaForSlot_eq ts (snapshotReader fileName slots ts) rfl rfl hnodup hslot hkey
  have hcodec : textOr ((snapshotReader fileName slots ts).metaForSlot slot.slotKey) "codec" =
      (recordedCodec slots slot).1 := by
    rw [hmeta, recordedCodec]
    cases recordedSlot slots slot with
    | none => rfl
    | some found => exact textOr_codec
  have hhash : textOr ((snapshotReader fileName slots ts).metaForSlot slot.slotKey) "content_hash" =
      (recordedCodec slots slot).2 := by
    rw [hmeta, recordedCodec]
    cases recordedSlot slots slot with
    | none => rfl
    | some found => exact textOr_contentHash
  have hstored : (snapshotReader fileName slots ts).storedPayload (slot.record cursor) =
      .ok slot.payload := by
    have hheader := (snapshotHeader slots ts).length_octets (snapshotHeader slots ts).crc
    have hlength := length_snapshotFile slots ts
    rw [hheader] at hlength
    have hindex : fileHdrSize + cursor + slot.payload.length ≤ (snapshotHeader slots ts).indexOffset := by
      simp only [snapshotHeader]
      omega
    have hfile : fileHdrSize + cursor + slot.payload.length ≤ (snapshotFile slots ts).length := by omega
    have hslice : ((snapshotFile slots ts).drop (fileHdrSize + cursor)).take slot.payload.length =
        slot.payload := by
      rw [snapshotFile, append_assoc, ← drop_drop, drop_left' hheader,
        drop_append_of_le_length (by omega), take_append_of_le_length, hpayload]
      rw [length_drop]
      omega
    exact (storedPayload_eq hindex hfile).trans (congrArg _ hslice)
  rw [Reader.read, show (snapshotReader fileName slots ts).records = slotRecords 0 slots from rfl, hlookup]
  dsimp only
  rw [hstored, hcodec, hhash]
  rfl

theorem readSnapshot_eq_value (slot : SnapshotSlot) {codec contentHash : Str} {value : Value} :
    readSnapshot slot.payload slot.fmtId codec contentHash = .value value ↔
      slot.ReadsAs codec contentHash value := by
  rw [readSnapshot, SnapshotSlot.ReadsAs]
  cases plainPayload slot.payload slot.fmtId codec with
  | none => simp
  | some raw =>
    dsimp only
    by_cases hhash : contentHash ≠ [] ∧ (sha256 raw).hex ≠ contentHash
    · rw [if_pos hhash]
      constructor
      · intro h
        cases h
      · rintro ⟨_, heq, hor, -⟩
        cases heq
        exact (hor.elim hhash.1 fun h => hhash.2 h.symm).elim
    · rw [if_neg hhash]
      have hor : contentHash = [] ∨ contentHash = (sha256 raw).hex := by
        by_cases hempty : contentHash = []
        · exact .inl hempty
        · exact .inr (Classical.byContradiction fun hne => hhash ⟨hempty, fun heq => hne heq.symm⟩)
      cases hvalue : deserialize raw (baseFmt slot.fmtId) with
      | error e => simp [hvalue]
      | ok found => simp [hor, hvalue]

end Read

/-! ## Arbitrary files -/

section Geometry

variable [Runtime] [Objects] {fileName : Str} {file : Bytes} {sidecar : Option Bytes} {r : Reader}

structure Reader.Holds (r : Reader) (record : SlotRecord) : Prop where
  start : fileHdrSize ≤ r.header.dataOffset
  bounds : r.header.dataOffset + record.offset + record.length ≤ r.header.indexOffset
  stop : r.header.indexOffset ≤ r.file.length

omit [Runtime] [Objects] in
theorem validateSlotGeometry_eq_ok {header : FileHeader} {records : List SlotRecord} {u : Unit}
    (h : validateSlotGeometry header records = .ok u) : ∀ record ∈ records,
      record.offset + record.length ≤ header.indexOffset - header.dataOffset := by
  induction records with
  | nil => simp
  | cons record records ih =>
    rw [validateSlotGeometry, bind_eq_ok] at h
    obtain ⟨_, hrecord, hrest⟩ := h
    have hbounds := integrityIf_eq_ok.mp hrecord
    refine forall_mem_cons.mpr ⟨?_, ih hrest⟩
    omega

omit [Runtime] in
theorem openReader_eq_ok (h : openReader fileName file sidecar = .ok r) :
    r.file = file ∧ ∀ record ∈ r.records, r.Holds record := by
  obtain ⟨⟨header, records⟩, hdata, hrest⟩ := bind_eq_ok.mp h
  obtain ⟨entryMeta, -, hr⟩ := bind_eq_ok.mp hrest
  obtain rfl := Except.ok.inj hr
  simp only [openData, validateFileGeometry, bind_eq_ok, integrityIf_eq_ok, pure_eq_ok,
    Except.ok.injEq, Prod.mk.injEq] at hdata
  obtain ⟨_, -, _, -, _, ⟨_, hstart, _, hindex, hfile⟩, _, -, _, hslots, rfl, rfl⟩ := hdata
  refine ⟨rfl, fun record hrecord => ?_⟩
  have hbounds := validateSlotGeometry_eq_ok hslots record hrecord
  constructor <;> dsimp only <;> omega

/-- **Slot bounds.** Every slot of a file that the reader has accepted lies in the data region. A read
of a name yields what its payload, a part of that region, is decoded to, or says that there is no such
name; it never fails for the bounds of a slot. -/
theorem read_within_bounds (h : openReader fileName file sidecar = .ok r) :
    (∀ record ∈ r.records, r.Holds record ∧
      r.storedPayload record =
        .ok ((file.drop (r.header.dataOffset + record.offset)).take record.length)) ∧
    (∀ name codec contentHash message,
      r.read name codec contentHash ≠ .error (.integrity .slotBoundsError message)) ∧
    ∀ name codec contentHash reading, r.read name codec contentHash = .ok reading →
      ∃ record ∈ r.records, record.name = name ∧ ∃ codec contentHash,
        reading = readSnapshot ((file.drop (r.header.dataOffset + record.offset)).take record.length)
          record.fmtId codec contentHash := by
  obtain ⟨rfl, hholds⟩ := openReader_eq_ok h
  have hstored : ∀ record ∈ r.records, r.storedPayload record =
      .ok ((r.file.drop (r.header.dataOffset + record.offset)).take record.length) := by
    intro record hrecord
    obtain ⟨-, hbounds, hstop⟩ := hholds record hrecord
    exact storedPayload_eq hbounds (hbounds.trans hstop)
  have hread : ∀ name codec contentHash, (∃ e, r.read name codec contentHash = .error (.exception e)) ∨
      ∃ record ∈ r.records, record.name = name ∧ ∃ codec' contentHash',
        r.read name codec contentHash = .ok (readSnapshot
          ((r.file.drop (r.header.dataOffset + record.offset)).take record.length) record.fmtId codec'
          contentHash') := by
    intro name codec contentHash
    rw [Reader.read]
    cases hlookup : SlotIndex.lookup r.records name with
    | none => exact .inl ⟨_, rfl⟩
    | some record =>
      have hrecord : record ∈ r.records := mem_reverse.mp (mem_of_find?_eq_some hlookup)
      have hname : record.name = name := by simpa using find?_some hlookup
      dsimp only
      rw [hstored record hrecord]
      exact .inr ⟨record, hrecord, hname, _, _, rfl⟩
  refine ⟨fun record hrecord => ⟨hholds record hrecord, hstored record hrecord⟩, ?_, ?_⟩
  · intro name codec contentHash message heq
    rcases hread name codec contentHash with ⟨e, he⟩ | ⟨record, -, -, codec', hash', hok⟩
    · rw [he] at heq
      cases heq
    · rw [hok] at heq
      cases heq
  · intro name codec contentHash reading heq
    rcases hread name codec contentHash with ⟨e, he⟩ | ⟨record, hrecord, hname, codec', hash', hok⟩
    · rw [he] at heq
      cases heq
    · rw [hok] at heq
      exact ⟨record, hrecord, hname, codec', hash', (Except.ok.inj heq).symm⟩

end Geometry

section Sample

attribute [local instance] sampleRuntime sampleObjects

def sampleFile : Bytes :=
  FileHeader.octets ⟨1, 1, 47, 44, 7⟩ (FileHeader.crc ⟨1, 1, 47, 44, 7⟩) ++ [97, 98, 99] ++
    SlotRecord.octets ⟨lit "a", hashName [97], 0, 3, 1⟩

/-- The one slot of a file that is accepted. -/
theorem read_within_bounds_sample : ∃ r, openReader (lit "a.tds") sampleFile none = .ok r ∧
    ∀ record ∈ r.records, r.Holds record := by
  have hok : (openReader (lit "a.tds") sampleFile none).toBool = true := by decide +kernel
  cases hr : openReader (lit "a.tds") sampleFile none with
  | error e =>
    rw [hr] at hok
    cases hok
  | ok r => exact ⟨r, rfl, fun record hrecord => ((read_within_bounds hr).1 record hrecord).1⟩

end Sample

end Persistence
