import Tds.FileSystem.Proofs.Chunk
import Tds.Persistence.Format

/-!
# What the reader makes of a header and of a slot index

`parseFileHeader_octets`: the header that was built is read back. `fromBytes_octets`: an index is read
back if and only if its names are distinct.
-/

namespace Persistence

open Python FileSystem List FileHeader SlotRecord

@[simp] theorem integrityIf_eq_ok {c : Prop} [Decidable c] {code : IntegrityCode} {message : String}
    {u : Unit} : integrityIf c code message = .ok u ↔ ¬ c := by
  unfold integrityIf
  split <;> simp_all

theorem integrityIf_neg {c : Prop} [Decidable c] (h : ¬ c) (code : IntegrityCode) (message : String) :
    integrityIf c code message = .ok () := if_neg h

variable {records : List SlotRecord} {raw buf : Bytes} {n : Nat}

theorem encodeText_eq_ok {s : Str} :
    encodeText s = .ok raw ↔ s.all isScalar = true ∧ raw = utf8 s := by
  unfold encodeText encodeUtf8
  split
  · next heq =>
    split at heq
    · next hs =>
      cases heq
      simp [hs, eq_comm]
    · cases heq
  · next heq =>
    split at heq
    · cases heq
    · next hs => simp [hs, raise]

theorem packUInt_eq_ok {width : Nat} :
    packUInt width n = .ok raw ↔ n < 256 ^ width ∧ raw = beBytes width n := by
  unfold packUInt raise
  split <;> simp_all [eq_comm]

/-! ## The header -/

structure FileHeader.Fits (header : FileHeader) : Prop where
  version : header.version < 256 ^ 4
  slotCount : header.slotCount < 256 ^ 8
  indexOffset : header.indexOffset < 256 ^ 8
  dataOffset : header.dataOffset < 256 ^ 8
  ts : header.ts < 256 ^ 8

def FileHeader.octets (header : FileHeader) (crc : Nat) : Bytes :=
  fileMagic ++ beBytes 4 header.version ++ beBytes 8 header.slotCount ++ beBytes 8 header.indexOffset ++
    beBytes 8 header.dataOffset ++ beBytes 8 header.ts ++ beBytes 4 crc

theorem packFileHeader_eq_ok {header : FileHeader} {crc : Nat} :
    packFileHeader header crc = .ok raw ↔
      header.Fits ∧ crc < 256 ^ 4 ∧ raw = header.octets crc := by
  simp only [packFileHeader, bind_eq_ok, packUInt_eq_ok, pure_eq_ok, Except.ok.injEq]
  constructor
  · rintro ⟨_, ⟨h₁, rfl⟩, _, ⟨h₂, rfl⟩, _, ⟨h₃, rfl⟩, _, ⟨h₄, rfl⟩, _, ⟨h₅, rfl⟩, _, ⟨h₆, rfl⟩, rfl⟩
    exact ⟨⟨h₁, h₂, h₃, h₄, h₅⟩, h₆, rfl⟩
  · rintro ⟨h, hcrc, rfl⟩
    exact ⟨_, ⟨h.version, rfl⟩, _, ⟨h.slotCount, rfl⟩, _, ⟨h.indexOffset, rfl⟩, _,
      ⟨h.dataOffset, rfl⟩, _, ⟨h.ts, rfl⟩, _, ⟨hcrc, rfl⟩, rfl⟩

theorem FileHeader.length_octets (header : FileHeader) (crc : Nat) :
    (header.octets crc).length = fileHdrSize := by
  simp [octets, fileMagic, fileHdrSize]

def FileHeader.crc (header : FileHeader) : Nat := (crc32 (header.octets 0)).toNat

theorem FileHeader.crc_lt (header : FileHeader) : header.crc < 256 ^ 4 :=
  (crc32 (header.octets 0)).toNat_lt

theorem buildFileHeader_eq_ok {slotCount indexOffset dataOffset ts : Nat} :
    buildFileHeader slotCount indexOffset dataOffset ts = .ok raw ↔
      (mk fileVersion slotCount indexOffset dataOffset ts).Fits ∧
        raw = octets ⟨fileVersion, slotCount, indexOffset, dataOffset, ts⟩
          (crc ⟨fileVersion, slotCount, indexOffset, dataOffset, ts⟩) := by
  simp only [buildFileHeader, bind_eq_ok, packFileHeader_eq_ok]
  constructor
  · rintro ⟨_, ⟨h, -, rfl⟩, -, -, rfl⟩
    exact ⟨h, rfl⟩
  · rintro ⟨h, rfl⟩
    exact ⟨_, ⟨h, by decide, rfl⟩, h, crc_lt _, rfl⟩

section Header

variable {header : FileHeader} {crc : Nat}

theorem unpackUInt_version (h : header.Fits) : unpackUInt (header.octets crc) 4 4 = header.version := by
  simp only [octets, append_assoc]
  exact unpackUInt_append rfl h.version

theorem unpackUInt_slotCount (h : header.Fits) :
    unpackUInt (header.octets crc) 8 8 = header.slotCount := by
  rw [octets, show ∀ a b c d e f g : Bytes, a ++ b ++ c ++ d ++ e ++ f ++ g =
    (a ++ b) ++ (c ++ (d ++ (e ++ (f ++ g)))) by simp]
  exact unpackUInt_append (by simp [fileMagic]) h.slotCount

theorem unpackUInt_indexOffset (h : header.Fits) :
    unpackUInt (header.octets crc) 16 8 = header.indexOffset := by
  rw [octets, show ∀ a b c d e f g : Bytes, a ++ b ++ c ++ d ++ e ++ f ++ g =
    (a ++ b ++ c) ++ (d ++ (e ++ (f ++ g))) by simp]
  exact unpackUInt_append (by simp [fileMagic]) h.indexOffset

theorem unpackUInt_dataOffset (h : header.Fits) :
    unpackUInt (header.octets crc) 24 8 = header.dataOffset := by
  rw [octets, show ∀ a b c d e f g : Bytes, a ++ b ++ c ++ d ++ e ++ f ++ g =
    (a ++ b ++ c ++ d) ++ (e ++ (f ++ g)) by simp]
  exact unpackUInt_append (by simp [fileMagic]) h.dataOffset

theorem unpackUInt_ts (h : header.Fits) : unpackUInt (header.octets crc) 32 8 = header.ts := by
  rw [octets, show ∀ a b c d e f g : Bytes, a ++ b ++ c ++ d ++ e ++ f ++ g =
    (a ++ b ++ c ++ d ++ e) ++ (f ++ g) by simp]
  exact unpackUInt_append (by simp [fileMagic]) h.ts

theorem unpackUInt_crc (hcrc : crc < 256 ^ 4) : unpackUInt (header.octets crc) 40 4 = crc := by
  rw [octets, show ∀ a b : Bytes, a ++ b = a ++ (b ++ []) by simp]
  exact unpackUInt_append (by simp [fileMagic]) hcrc

end Header

theorem parseFileHeader_octets [Objects] {header : FileHeader} (h : header.Fits)
    (hversion : header.version = fileVersion) :
    parseFileHeader (header.octets header.crc) = .ok header := by
  have hlength : ¬ (header.octets header.crc).length < fileHdrSize := by
    rw [header.length_octets]
    exact Nat.lt_irrefl _
  have hmagic : (header.octets header.crc).take 4 = fileMagic := by
    simp only [octets, append_assoc]
    exact take_left' rfl
  have hpack : packFileHeader header 0 = .ok (header.octets 0) :=
    packFileHeader_eq_ok.mpr ⟨h, by decide, rfl⟩
  unfold parseFileHeader
  dsimp only
  rw [raiseIf_neg hlength, ok_bind, hmagic, raiseIf_neg (by simp), ok_bind, unpackUInt_version h,
    raiseIf_neg (by simp [hversion]), ok_bind, unpackUInt_slotCount h, unpackUInt_indexOffset h,
    unpackUInt_dataOffset h, unpackUInt_ts h, hpack, ok_bind, unpackUInt_crc header.crc_lt,
    raiseIf_neg (by simp [crc])]
  rfl

/-! ## The slot index -/

/-- What `to_bytes` accepts. -/
structure SlotRecord.InRange (record : SlotRecord) : Prop where
  scalar : record.name.all isScalar = true
  name : (utf8 record.name).length ≤ 0xFFFF
  length : record.length ≤ 0xFFFFFFFF
  offset : record.offset ≤ 0xFFFFFFFFFFFFFFFF
  fmtId : record.fmtId ≤ 0xFFFF

def SlotRecord.octets (record : SlotRecord) : Bytes := record.pack (utf8 record.name)

theorem packSlotFixed_eq (nameHash offset length fmtId nameLen : Nat) :
    packSlotFixed nameHash offset length fmtId nameLen =
      beBytes 8 nameHash ++ beBytes 8 offset ++ beBytes 4 length ++ beBytes 2 fmtId ++
        beBytes 2 nameLen := rfl

theorem checkRange_eq_ok [Objects] {record : SlotRecord} {name : Bytes} {u : Unit} :
    record.checkRange name = .ok u ↔ name.length ≤ 0xFFFF ∧ record.length ≤ 0xFFFFFFFF ∧
      record.offset ≤ 0xFFFFFFFFFFFFFFFF ∧ record.fmtId ≤ 0xFFFF := by
  simp only [checkRange, bind_eq_ok, raiseIf_eq_ok, not_lt, exists_const]

theorem toBytes_eq_ok [Objects] :
    SlotIndex.toBytes records = .ok raw ↔
      (∀ record ∈ records, record.InRange) ∧ raw = records.flatMap octets := by
  have hnames : ∀ names : List Bytes, records.mapM (fun record => encodeText record.name) = .ok names ↔
      (∀ record ∈ records, record.name.all isScalar = true) ∧
        names = records.map fun record => utf8 record.name := by
    intro names
    rw [mapM_eq_ok]
    constructor
    · intro h
      induction h with
      | nil => simp
      | cons hhead _ ih =>
        obtain ⟨hscalar, rfl⟩ := encodeText_eq_ok.mp hhead
        exact ⟨forall_mem_cons.mpr ⟨hscalar, ih.1⟩, congrArg _ ih.2⟩
    · rintro ⟨h, rfl⟩
      rw [forall₂_map_right_iff, forall₂_same]
      exact fun record hrecord => encodeText_eq_ok.mpr ⟨h record hrecord, rfl⟩
  have hzip : records.zip (records.map fun record => utf8 record.name) =
      records.map fun record => (record, utf8 record.name) := by
    rw [zip_map_right, zip_eq_zipWith, zipWith_self, map_map]
    rfl
  have hchecks : (∃ us, (records.map fun record => (record, utf8 record.name)).mapM
      (fun item => item.1.checkRange item.2) = .ok us) ↔
        ∀ record ∈ records, (utf8 record.name).length ≤ 0xFFFF ∧ record.length ≤ 0xFFFFFFFF ∧
          record.offset ≤ 0xFFFFFFFFFFFFFFFF ∧ record.fmtId ≤ 0xFFFF := by
    simp only [exists_mapM_eq_ok, forall_mem_map, checkRange_eq_ok, exists_const]
  have hpack : ((records.map fun record => (record, utf8 record.name)).flatMap fun item =>
      item.1.pack item.2) = records.flatMap octets := flatMap_map ..
  unfold SlotIndex.toBytes
  simp only [bind_eq_ok, pure_eq_ok, Except.ok.injEq]
  constructor
  · rintro ⟨_, hencode, us, hcheck, rfl⟩
    obtain ⟨hscalar, rfl⟩ := (hnames _).mp hencode
    rw [hzip] at hcheck ⊢
    have hrange := hchecks.mp ⟨us, hcheck⟩
    refine ⟨fun record hrecord => ?_, hpack⟩
    obtain ⟨hname, hlength, hoffset, hfmt⟩ := hrange record hrecord
    exact ⟨hscalar record hrecord, hname, hlength, hoffset, hfmt⟩
  · rintro ⟨h, rfl⟩
    obtain ⟨us, hus⟩ := hchecks.mpr fun record hrecord =>
      ⟨(h record hrecord).name, (h record hrecord).length, (h record hrecord).offset,
        (h record hrecord).fmtId⟩
    refine ⟨_, (hnames _).mpr ⟨fun record hrecord => (h record hrecord).scalar, rfl⟩, us, ?_, ?_⟩
    · rwa [hzip]
    · rw [hzip, hpack]

theorem unpack_packSlotFixed {nameHash offset length fmtId nameLen : Nat} (hnameHash : nameHash < 256 ^ 8)
    (hoffset : offset < 256 ^ 8) (hlength : length < 256 ^ 4) (hfmt : fmtId < 256 ^ 2)
    (hnameLen : nameLen < 256 ^ 2) (tail : Bytes) :
    unpackUInt (packSlotFixed nameHash offset length fmtId nameLen ++ tail) 0 8 = nameHash ∧
    unpackUInt (packSlotFixed nameHash offset length fmtId nameLen ++ tail) 8 8 = offset ∧
    unpackUInt (packSlotFixed nameHash offset length fmtId nameLen ++ tail) 16 4 = length ∧
    unpackUInt (packSlotFixed nameHash offset length fmtId nameLen ++ tail) 20 2 = fmtId ∧
    unpackUInt (packSlotFixed nameHash offset length fmtId nameLen ++ tail) 22 2 = nameLen := by
  rw [packSlotFixed_eq]
  refine ⟨?_, ?_, ?_, ?_, ?_⟩
  · simp only [append_assoc]
    exact unpackUInt_append length_nil hnameHash
  · rw [show ∀ a b c d e f : Bytes, a ++ b ++ c ++ d ++ e ++ f = a ++ (b ++ (c ++ (d ++ (e ++ f))))
      by simp]
    exact unpackUInt_append (length_beBytes ..) hoffset
  · rw [show ∀ a b c d e f : Bytes, a ++ b ++ c ++ d ++ e ++ f = (a ++ b) ++ (c ++ (d ++ (e ++ f)))
      by simp]
    exact unpackUInt_append (by simp) hlength
  · rw [show ∀ a b c d e f : Bytes, a ++ b ++ c ++ d ++ e ++ f = (a ++ b ++ c) ++ (d ++ (e ++ f))
      by simp]
    exact unpackUInt_append (by simp) hfmt
  · rw [append_assoc _ _ tail]
    exact unpackUInt_append (by simp) hnameLen

theorem hashName_lt (name : Bytes) : hashName name < 256 ^ 8 :=
  lt_trans (Nat.mod_lt _ (by decide)) (by decide : 2 ^ 63 < 256 ^ 8)

section Read

variable {record : SlotRecord}

def SlotRecord.Hashed (record : SlotRecord) : Prop := record.nameHash = hashName (utf8 record.name)

theorem readRecord_octets (h : record.InRange) (hhash : record.Hashed) (rest : Bytes) :
    SlotIndex.readRecord (record.octets ++ rest) = .ok (record, rest) := by
  have hlen : ∀ tail : Bytes, ¬ (packSlotFixed record.nameHash record.offset record.length record.fmtId
      (utf8 record.name).length ++ tail).length < slotFixedSize := by
    simp [packSlotFixed, slotFixedSize]
  have hdrop : ∀ tail : Bytes, (packSlotFixed record.nameHash record.offset record.length record.fmtId
      (utf8 record.name).length ++ tail).drop slotFixedSize = tail := fun tail => drop_left' rfl
  have hnameHash : record.nameHash < 256 ^ 8 := by
    rw [hhash]
    exact hashName_lt _
  have hoffset : record.offset < 256 ^ 8 := Nat.lt_succ_of_le h.offset
  have hlength : record.length < 256 ^ 4 := Nat.lt_succ_of_le h.length
  have hfmt : record.fmtId < 256 ^ 2 := Nat.lt_succ_of_le h.fmtId
  have hnameLen : (utf8 record.name).length < 256 ^ 2 := Nat.lt_succ_of_le h.name
  obtain ⟨h₁, h₂, h₃, h₄, h₅⟩ := unpack_packSlotFixed hnameHash hoffset hlength hfmt hnameLen
    (utf8 record.name ++ rest)
  have hsame : ¬ record.nameHash ≠ hashName (utf8 record.name) := not_not_intro hhash
  have hdecode : decodeUtf8 (utf8 record.name) = some record.name := decodeUtf8_flatMap h.scalar
  unfold SlotIndex.readRecord SlotRecord.octets SlotRecord.pack
  rw [append_assoc]
  dsimp only
  rw [integrityIf_neg (hlen _), ok_bind, hdrop, h₁, h₂, h₃, h₄, h₅, take_left' rfl,
    integrityIf_neg (by simp), ok_bind, hdecode]
  dsimp only
  rw [integrityIf_neg hsame, ok_bind, drop_left' rfl]
  rfl

theorem readRecords_octets (h : ∀ record ∈ records, record.InRange)
    (hhash : ∀ record ∈ records, record.Hashed) (seen : List Str) (rest : Bytes) :
    SlotIndex.readRecords records.length seen (records.flatMap octets ++ rest) =
      if (records.map name).Nodup ∧ ∀ record ∈ records, record.name ∉ seen then
        .ok (records, rest)
      else .error (.integrity .indexCorrupt (lit "Duplicate slot name in TDS index")) := by
  induction records generalizing seen with
  | nil => simp [SlotIndex.readRecords]
  | cons record records ih =>
    obtain ⟨hrecord, hrecords⟩ := forall_mem_cons.mp h
    obtain ⟨hhead, htail⟩ := forall_mem_cons.mp hhash
    rw [flatMap_cons, append_assoc, length_cons, SlotIndex.readRecords,
      readRecord_octets hrecord hhead, ok_bind]
    dsimp only
    by_cases hseen : record.name ∈ seen
    · have hcond : ¬ (((record :: records).map name).Nodup ∧
          ∀ r ∈ record :: records, r.name ∉ seen) :=
        fun hcond => hcond.2 record mem_cons_self hseen
      rw [if_neg hcond, integrityIf, if_pos hseen]
      rfl
    · rw [integrityIf_neg hseen, ok_bind, ih hrecords htail]
      have hiff : ((records.map name).Nodup ∧
          ∀ r ∈ records, r.name ∉ record.name :: seen) ↔
          (((record :: records).map name).Nodup ∧ ∀ r ∈ record :: records, r.name ∉ seen) := by
        simp only [map_cons, nodup_cons, mem_map, not_exists, not_and, mem_cons,
          not_or, forall_eq_or_imp]
        constructor
        · rintro ⟨hnodup, hnot⟩
          exact ⟨⟨fun r hr => (hnot r hr).1, hnodup⟩, hseen, fun r hr => (hnot r hr).2⟩
        · rintro ⟨⟨hne, hnodup⟩, -, hnot⟩
          exact ⟨hnodup, fun r hr => ⟨hne r hr, hnot r hr⟩⟩
      by_cases hcond : (records.map name).Nodup ∧ ∀ r ∈ records, r.name ∉ record.name :: seen
      · rw [if_pos hcond, if_pos (hiff.mp hcond)]
        rfl
      · rw [if_neg hcond, if_neg fun h => hcond (hiff.mpr h)]
        rfl

theorem fromBytes_octets (h : ∀ record ∈ records, record.InRange)
    (hhash : ∀ record ∈ records, record.Hashed) :
    SlotIndex.fromBytes (records.flatMap octets) records.length =
      if (records.map name).Nodup then .ok records
      else .error (.integrity .indexCorrupt (lit "Duplicate slot name in TDS index")) := by
  have hread := readRecords_octets h hhash [] []
  rw [append_nil] at hread
  unfold SlotIndex.fromBytes
  rw [hread]
  by_cases hnodup : (records.map name).Nodup
  · rw [if_pos ⟨hnodup, by simp⟩, if_pos hnodup, ok_bind]
    dsimp only
    rw [integrityIf_neg (by simp), ok_bind, integrityIf_neg (by simp), ok_bind]
    rfl
  · rw [if_neg fun hcond => hnodup hcond.1, if_neg hnodup]
    rfl

theorem lookup_eq_some (h : (records.map name).Nodup) (hrecord : record ∈ records) :
    SlotIndex.lookup records record.name = some record := by
  unfold SlotIndex.lookup
  have hmem : record ∈ records.reverse := mem_reverse.mpr hrecord
  cases hfind : records.reverse.find? fun r => r.name = record.name with
  | none => simpa using find?_eq_none.mp hfind record hmem
  | some found =>
    have hname : found.name = record.name := by simpa using find?_some hfind
    have hfound := mem_reverse.mp (mem_of_find?_eq_some hfind)
    exact congrArg some (inj_on_of_nodup_map h hfound hrecord hname)

end Read

/-! ## What the reader accepts -/

theorem packSlotFixed_unpackUInt (h : slotFixedSize ≤ buf.length) :
    packSlotFixed (unpackUInt buf 0 8) (unpackUInt buf 8 8) (unpackUInt buf 16 4) (unpackUInt buf 20 2)
      (unpackUInt buf 22 2) = buf.take slotFixedSize := by
  have h : 24 ≤ buf.length := h
  rw [packSlotFixed_eq, beBytes_unpackUInt (by omega), beBytes_unpackUInt (by omega),
    beBytes_unpackUInt (by omega), beBytes_unpackUInt (by omega), beBytes_unpackUInt (by omega),
    drop_zero, ← take_add, ← take_add, ← take_add, ← take_add]
  rfl

theorem readRecord_eq_ok {rest : Bytes} {record : SlotRecord}
    (h : SlotIndex.readRecord buf = .ok (record, rest)) :
    record.InRange ∧ record.Hashed ∧ buf = record.octets ++ rest := by
  obtain ⟨_, hfixed, h⟩ := bind_eq_ok.mp h
  have hfixed : 24 ≤ buf.length := not_lt.mp (integrityIf_eq_ok.mp hfixed)
  obtain ⟨_, hname, h⟩ := bind_eq_ok.mp h
  have hname := not_lt.mp (integrityIf_eq_ok.mp hname)
  dsimp only at h
  split at h
  · cases h
  · next name hdecode =>
    obtain ⟨_, hhash, h⟩ := bind_eq_ok.mp h
    have hhash := not_not.mp (integrityIf_eq_ok.mp hhash)
    obtain ⟨rfl, rfl⟩ := Prod.mk.inj (Except.ok.inj h)
    obtain ⟨hscalar, hraw⟩ := decodeUtf8_eq_some.mp hdecode
    have hraw : (buf.drop slotFixedSize).take (unpackUInt buf 22 2) = utf8 name := hraw
    have hlength : (utf8 name).length = unpackUInt buf 22 2 := by
      rw [← hraw, length_take]
      omega
    have hle : ∀ offset width, unpackUInt buf offset width ≤ 256 ^ width - 1 :=
      fun offset width => Nat.le_sub_one_of_lt (unpackUInt_lt buf offset width)
    refine ⟨⟨hscalar, ?_, hle 16 4, hle 8 8, hle 20 2⟩, ?_, ?_⟩
    · rw [hlength]
      exact hle 22 2
    · rw [SlotRecord.Hashed]
      dsimp only
      rw [← hraw]
      exact hhash
    · rw [SlotRecord.octets, SlotRecord.pack, hlength, packSlotFixed_unpackUInt hfixed, ← hraw,
        append_assoc, take_append_drop, take_append_drop]

theorem readRecords_eq_ok {seen : List Str} {rest : Bytes}
    (h : SlotIndex.readRecords n seen buf = .ok (records, rest)) :
    (∀ record ∈ records, record.InRange ∧ record.Hashed) ∧
      buf = records.flatMap octets ++ rest ∧ records.length = n := by
  induction n generalizing seen buf records with
  | zero =>
    obtain ⟨rfl, rfl⟩ := Prod.mk.inj (Except.ok.inj h)
    simp
  | succ n ih =>
    obtain ⟨⟨record, rest'⟩, hrecord, h⟩ := bind_eq_ok.mp h
    obtain ⟨_, -, h⟩ := bind_eq_ok.mp h
    obtain ⟨⟨records', rest''⟩, hrecords, h⟩ := bind_eq_ok.mp h
    obtain ⟨rfl, rfl⟩ := Prod.mk.inj (Except.ok.inj h)
    obtain ⟨hrange, hhash, rfl⟩ := readRecord_eq_ok hrecord
    obtain ⟨hall, hbuf, hlength⟩ := ih hrecords
    refine ⟨forall_mem_cons.mpr ⟨⟨hrange, hhash⟩, hall⟩, ?_, by simp [hlength]⟩
    rw [hbuf, flatMap_cons, append_assoc]

theorem fromBytes_eq_ok (h : SlotIndex.fromBytes buf n = .ok records) :
    (∀ record ∈ records, record.InRange ∧ record.Hashed) ∧ buf = records.flatMap octets ∧
      records.length = n := by
  simp only [SlotIndex.fromBytes, bind_eq_ok, integrityIf_eq_ok, pure_eq_ok, Except.ok.injEq] at h
  obtain ⟨⟨_, rest⟩, hrecords, _, hrest, _, -, rfl⟩ := h
  obtain rfl : rest = [] := not_not.mp hrest
  simpa using readRecords_eq_ok hrecords

/-! ## The batch packer -/

theorem writeOctets_append (before old after : Bytes) {octets : Bytes} (h : old.length = octets.length) :
    writeOctets (before ++ (old ++ after)) before.length octets = before ++ (octets ++ after) := by
  induction octets generalizing before old with
  | nil =>
    rw [length_eq_zero_iff.mp h]
    rfl
  | cons octet octets ih =>
    obtain ⟨x, old, rfl⟩ := exists_cons_of_length_eq_add_one h
    have hset : (before ++ (x :: old ++ after)).set before.length octet =
        (before ++ [octet]) ++ (old ++ after) := by simp
    rw [writeOctets, hset, show before.length + 1 = (before ++ [octet]).length by simp,
      ih (before ++ [octet]) old (Nat.succ.inj h)]
    simp

def SlotRecord.fixed (record : SlotRecord) : SlotFixed :=
  ⟨record.nameHash, record.offset, record.length, record.fmtId, (utf8 record.name).length⟩

def SlotFixed.octets (row : SlotFixed) : Bytes :=
  packSlotFixed row.nameHash row.offset row.length row.fmtId row.nameLen

theorem packSlotFixedBatch_append (before : Bytes) {i : Nat} (hi : before.length = i * slotFixedSize)
    (rows : List SlotFixed) :
    packSlotFixedBatch rows i (before ++ replicate (rows.length * slotFixedSize) 0) =
      before ++ rows.flatMap SlotFixed.octets := by
  induction rows generalizing before i with
  | nil => simp [packSlotFixedBatch]
  | cons row rows ih =>
    have hzeros : replicate ((row :: rows).length * slotFixedSize) (0 : UInt8) =
        replicate slotFixedSize 0 ++ replicate (rows.length * slotFixedSize) 0 := by
      rw [replicate_append_replicate, length_cons]
      congr 1
      ring
    rw [packSlotFixedBatch, hzeros, ← hi, writeOctets_append _ _ _ (by simp [packSlotFixed, slotFixedSize]),
      ← append_assoc, ih, flatMap_cons, append_assoc]
    · rfl
    · rw [length_append, hi]
      simp only [packSlotFixed, slotFixedSize, length_cons, length_nil]
      ring

/-- The batch packer writes what `struct` packs for each record. -/
theorem packSlotFixedBatch_eq (rows : List SlotFixed) :
    packSlotFixedBatch rows 0 (replicate (rows.length * slotFixedSize) 0) =
      rows.flatMap SlotFixed.octets :=
  packSlotFixedBatch_append [] (by simp) rows

/-- The fields fit into the arrays that `_pack_slot_fixed_batch` is given. -/
structure SlotFixed.Fits (row : SlotFixed) : Prop where
  nameHash : row.nameHash < 256 ^ 8
  offset : row.offset < 256 ^ 8
  length : row.length < 256 ^ 4
  fmtId : row.fmtId < 256 ^ 2
  nameLen : row.nameLen < 256 ^ 2

theorem SlotFixed.Fits.structPack {row : SlotFixed} (h : row.Fits) : row.structPack = .ok row.octets := by
  simp only [SlotFixed.structPack, packUInt, if_pos h.nameHash, if_pos h.offset, if_pos h.length,
    if_pos h.fmtId, if_pos h.nameLen]
  rfl

theorem interleave_flatMap (records : List SlotRecord) : interleave
    ((records.map fixed).flatMap SlotFixed.octets) (records.map fun r => utf8 r.name) =
      records.flatMap octets := by
  induction records with
  | nil => rfl
  | cons record records ih =>
    have htake : ∀ rest, (record.fixed.octets ++ rest).take slotFixedSize = record.fixed.octets :=
      fun rest => take_left' rfl
    have hdrop : ∀ rest, (record.fixed.octets ++ rest).drop slotFixedSize = rest :=
      fun rest => drop_left' rfl
    rw [map_cons, flatMap_cons, map_cons, interleave, htake, hdrop, ih, flatMap_cons]
    rfl

/-- **The slot index.** Encoding and decoding are inverse to each other in both directions, and the
batch packer writes the octets that `struct` packs for each record, which `to_bytes` puts before its
name. -/
theorem slotIndex_codec [Objects] :
    (∀ records, (records.map SlotRecord.name).Nodup →
      (∀ record ∈ records, record.InRange ∧ record.Hashed) →
      ∃ raw, SlotIndex.toBytes records = .ok raw ∧
        SlotIndex.fromBytes raw records.length = .ok records) ∧
    (∀ buf slotCount records, SlotIndex.fromBytes buf slotCount = .ok records →
      records.length = slotCount ∧ SlotIndex.toBytes records = .ok buf) ∧
    (∀ rows, (∀ row ∈ rows, SlotFixed.Fits row) → ∃ parts, rows.mapM SlotFixed.structPack = .ok parts ∧
      packSlotFixedBatch rows 0 (List.replicate (rows.length * slotFixedSize) 0) = parts.flatten) ∧
    ∀ records raw, SlotIndex.toBytes records = .ok raw →
      raw = interleave (packSlotFixedBatch (records.map SlotRecord.fixed) 0
        (List.replicate (records.length * slotFixedSize) 0)) (records.map fun r => utf8 r.name) := by
  refine ⟨?_, ?_, ?_, ?_⟩
  · intro records hnodup hrecords
    have hrange := fun record hrecord => (hrecords record hrecord).1
    refine ⟨_, toBytes_eq_ok.mpr ⟨hrange, rfl⟩, ?_⟩
    rw [fromBytes_octets hrange fun record hrecord => (hrecords record hrecord).2, if_pos hnodup]
  · intro buf slotCount records h
    obtain ⟨hrecords, hbuf, hlength⟩ := fromBytes_eq_ok h
    exact ⟨hlength, toBytes_eq_ok.mpr ⟨fun record hrecord => (hrecords record hrecord).1, hbuf⟩⟩
  · intro rows hrows
    refine ⟨rows.map SlotFixed.octets, mapM_eq_ok.mpr ?_, ?_⟩
    · rw [forall₂_map_right_iff, forall₂_same]
      exact fun row hrow => (hrows row hrow).structPack
    · rw [packSlotFixedBatch_eq, flatMap_def]
  · intro records raw h
    have hbatch := packSlotFixedBatch_eq (records.map fixed)
    rw [length_map] at hbatch
    rw [(toBytes_eq_ok.mp h).2, hbatch, interleave_flatMap]

end Persistence
