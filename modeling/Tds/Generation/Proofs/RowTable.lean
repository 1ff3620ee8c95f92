import Tds.Generation.Proofs.Contract
import Tds.Generation.RowTables

/-!
# Tables of CSV rows and their encodings

A table that can be packed is read back, and what a decoder accepts is what the packer makes of the
table that it returns.
-/

namespace Generation

open Python List

/-! ## Fields at fixed places -/

variable {anchors : List CsvRowAnchor} {sourceSize rowCount : Int} {offsets : List Int}
  {data before after : Bytes} {sourceRoot : Str} {width : Nat}

theorem unpackUInt_append_right {offset : Nat} (h : before.length ≤ offset) :
    unpackUInt (before ++ after) offset width = unpackUInt after (offset - before.length) width := by
  rw [unpackUInt, unpackUInt, drop_append, drop_eq_nil_of_le h, nil_append]

theorem unpackUInt_beBytes {n : Nat} (h : n < 256 ^ width) :
    unpackUInt (beBytes width n ++ after) 0 width = n :=
  unpackUInt_append (show ([] : Bytes).length = 0 from rfl) h

theorem take_drop_append_right {offset : Nat} (h : before.length ≤ offset) :
    ((before ++ after).drop offset).take width = (after.drop (offset - before.length)).take width := by
  rw [drop_append, drop_eq_nil_of_le h, nil_append]

theorem digestRoot_bytes (root : Root) : digestRoot root.bytes = rootText root := rfl

theorem rootDigest_eq_ok {name : String} {text : Str} {root : Root} :
    rootDigest name text = .ok root ↔ text = rootText root := by
  rw [rootDigest, requireRoot_eq_ok, rootJson, Json.str.injEq]

theorem requireInt_int_eq_ok {label : String} {i : Int} {minimum maximum : Nat}
    {n : Bounded minimum maximum} :
    requireInt label (.int i) minimum maximum = .ok n ↔ i = n.val := by
  rw [requireInt_eq_ok, natJson, Json.int.injEq]

/-! ## Row offsets -/

/-- Offsets that `packRowOffsets` accepts. -/
structure OffsetsValid (offsets : List Int) (sourceSize : Int) : Prop where
  increasing : offsets.Pairwise (· < ·)
  first : ∀ v, offsets.head? = some v → v = 0
  inside : ∀ v ∈ offsets, v < sourceSize
  empty : offsets = [] → sourceSize = 0
  bound : 0 ≤ sourceSize ∧ sourceSize ≤ uint63Max

theorem checkOffsets_eq_ok {previous : Int} {u : Unit} :
    checkOffsets previous offsets = .ok u ↔
      (∀ v ∈ offsets, 0 ≤ v ∧ v ≤ uint63Max) ∧ (previous :: offsets).Pairwise (· < ·) := by
  induction offsets generalizing previous with
  | nil => simp [checkOffsets]
  | cons value offsets ih =>
    simp only [checkOffsets, bind_eq_ok, raiseIf_eq_ok, exists_unit, requireInt_int_eq_ok, ih, not_le]
    constructor
    · rintro ⟨n, rfl, hlt, hbounds, hpairwise⟩
      refine ⟨forall_mem_cons.mpr ⟨by have := n.2; omega, hbounds⟩, ?_⟩
      refine pairwise_cons.mpr ⟨fun v hv => ?_, hpairwise⟩
      rcases mem_cons.mp hv with rfl | hv
      · exact hlt
      · have hafter := rel_of_pairwise_cons hpairwise hv
        omega
    · rintro ⟨hbounds, hpairwise⟩
      obtain ⟨hvalue, hrest⟩ := forall_mem_cons.mp hbounds
      obtain ⟨hbefore, hafter⟩ := pairwise_cons.mp hpairwise
      exact ⟨⟨value.toNat, by omega, by omega⟩, by simp [hvalue.1], hbefore value (mem_cons_self ..),
        hrest, hafter⟩

theorem checkOffsetEnds_eq_ok {u : Unit} :
    checkOffsetEnds offsets sourceSize = .ok u ↔
      (∀ v, offsets.head? = some v → v = 0) ∧
        (∀ v, offsets.getLast? = some v → v < sourceSize) ∧ (offsets = [] → sourceSize = 0) := by
  cases offsets with
  | nil => simp [checkOffsetEnds]
  | cons value offsets =>
    simp [checkOffsetEnds, getLast?_cons, not_or]

theorem length_le_of_pairwise {a n : Int} {l : List Int} (hpairwise : (a :: l).Pairwise (· < ·))
    (h : ∀ v ∈ a :: l, v < n) : a + (a :: l).length ≤ n := by
  induction l generalizing a with
  | nil =>
    have ha := h a (mem_cons_self ..)
    simp only [length_cons, length_nil]
    omega
  | cons b l ih =>
    obtain ⟨hbefore, hafter⟩ := pairwise_cons.mp hpairwise
    have hlt := hbefore b (mem_cons_self ..)
    have hrest := ih hafter fun v hv => h v (mem_cons_of_mem _ hv)
    simp only [length_cons, Nat.cast_add, Nat.cast_one] at hrest ⊢
    omega

theorem le_getLast_of_pairwise {l : List Int} (h : l.Pairwise (· < ·)) {v last : Int} (hv : v ∈ l)
    (hlast : l.getLast? = some last) : v ≤ last := by
  obtain ⟨before, rfl⟩ := getLast?_eq_some_iff.mp hlast
  rcases mem_append.mp hv with hv | hv
  · have hlt := (pairwise_append.mp h).2.2 v hv last (mem_singleton_self _)
    omega
  · exact le_of_eq (mem_singleton.mp hv)

theorem OffsetsValid.nonneg (h : OffsetsValid offsets sourceSize) : ∀ v ∈ offsets, 0 ≤ v := by
  cases offsets with
  | nil => simp
  | cons value offsets =>
    have hzero := h.first value rfl
    refine forall_mem_cons.mpr ⟨by omega, fun v hv => ?_⟩
    have hlt := rel_of_pairwise_cons h.increasing hv
    omega

theorem OffsetsValid.length_le (h : OffsetsValid offsets sourceSize) :
    (offsets.length : Int) ≤ sourceSize := by
  cases offsets with
  | nil => simpa using h.bound.1
  | cons value offsets =>
    have hzero := h.first value rfl
    have hle := length_le_of_pairwise h.increasing h.inside
    omega

theorem packRowOffsets_eq_ok :
    packRowOffsets offsets sourceSize sourceRoot = .ok data ↔
      OffsetsValid offsets sourceSize ∧ ∃ digest : Root, sourceRoot = rootText digest ∧
        data = offsetHeader offsets.length sourceSize.toNat digest ++
          offsets.flatMap fun value => beBytes u64Size value.toNat := by
  simp only [packRowOffsets, bind_eq_ok, exists_unit, rootDigest_eq_ok, requireInt_eq_ok, natJson,
    Json.int.injEq, Nat.cast_inj, checkOffsets_eq_ok, checkOffsetEnds_eq_ok, pure_eq_ok,
    Except.ok.injEq]
  constructor
  · rintro ⟨size, rfl, digest, rfl, count, hlength, ⟨hbounds, hpairwise⟩, ⟨hfirst, hlast, hempty⟩, rfl⟩
    have hincreasing := (pairwise_cons.mp hpairwise).2
    refine ⟨⟨hincreasing, hfirst, fun v hv => ?_, hempty, by have := size.2; omega⟩, digest, rfl, ?_⟩
    · obtain ⟨last, heq⟩ : ∃ last, offsets.getLast? = some last :=
        Option.ne_none_iff_exists'.mp fun h => by
          rw [getLast?_eq_none_iff] at h
          rw [h] at hv
          cases hv
      have hle := le_getLast_of_pairwise hincreasing hv heq
      have hlt := hlast last heq
      omega
    · rw [hlength, Int.toNat_natCast]
  · rintro ⟨hvalid, digest, rfl, rfl⟩
    have hbound := hvalid.bound
    have hnonneg := hvalid.nonneg
    have hlength := hvalid.length_le
    refine ⟨⟨sourceSize.toNat, by omega, by omega⟩, (Int.toNat_of_nonneg hbound.1).symm, digest,
      rfl, ⟨offsets.length, by omega, by omega⟩, rfl, ⟨fun v hv => ?_, ?_⟩,
      ⟨hvalid.first, fun v hv => hvalid.inside v (mem_of_getLast? hv), hvalid.empty⟩, rfl⟩
    · have hlt := hvalid.inside v hv
      have hge := hnonneg v hv
      omega
    · refine pairwise_cons.mpr ⟨fun v hv => ?_, hvalid.increasing⟩
      have hge := hnonneg v hv
      omega

theorem map_unpackUInt_flatMap {values : List Nat} (h : ∀ n ∈ values, n < 256 ^ u64Size) :
    ((List.range values.length).map fun index =>
      unpackUInt (values.flatMap (beBytes u64Size)) (index * u64Size) u64Size) = values := by
  induction values with
  | nil => rfl
  | cons n values ih =>
    obtain ⟨hn, hvalues⟩ := forall_mem_cons.mp h
    rw [length_cons, range_succ_eq_map, map_cons, map_map, flatMap_cons,
      Nat.zero_mul, unpackUInt_beBytes hn]
    congr 1
    refine Eq.trans (map_congr_left fun index _ => ?_) (ih hvalues)
    rw [Function.comp_apply, unpackUInt_append_right (by rw [length_beBytes, Nat.succ_mul]; omega),
      length_beBytes, Nat.succ_mul, Nat.add_sub_cancel]

theorem length_flatMap_beBytes (values : List Nat) :
    (values.flatMap (beBytes u64Size)).length = values.length * u64Size := by
  induction values with
  | nil => rfl
  | cons n values ih =>
    rw [flatMap_cons, length_append, length_beBytes, ih, length_cons, Nat.succ_mul,
      Nat.add_comm]

theorem length_offsetHeader (count sourceSize : Nat) (digest : Root) :
    (offsetHeader count sourceSize digest).length = offsetHeaderSize := by
  have hmagic : offsetMagic.length = 8 := rfl
  simp [offsetHeader, hmagic, digest.length_eq, offsetHeaderSize]

theorem fields_offsetHeader {count sourceSize : Nat} (hcount : count < 256 ^ 8)
    (hsize : sourceSize < 256 ^ 8) (digest : Root) (body : Bytes) :
    let data := offsetHeader count sourceSize digest ++ body
    data.take 8 = offsetMagic ∧ unpackUInt data 8 2 = csvGenerationFormatVersion ∧
      unpackUInt data 10 2 = 0 ∧ unpackUInt data 12 4 = u64Size ∧ unpackUInt data 16 8 = count ∧
      unpackUInt data 24 8 = sourceSize ∧ (data.drop 32).take 32 = digest.bytes := by
  have hmagic : offsetMagic.length = 8 := rfl
  have hdigest := digest.length_eq
  simp only [offsetHeader, append_assoc]
  refine ⟨take_left' hmagic, ?_, ?_, ?_, ?_, ?_, ?_⟩
  all_goals
    simp only [unpackUInt_append_right, take_drop_append_right, hmagic, length_beBytes, Nat.reduceLeDiff,
      Nat.reduceSub, Nat.le_refl, drop_zero]
  · exact unpackUInt_beBytes (by decide)
  · exact unpackUInt_beBytes (by decide)
  · exact unpackUInt_beBytes (by decide)
  · exact unpackUInt_beBytes hcount
  · exact unpackUInt_beBytes hsize
  · exact take_left' hdigest

theorem uint63Max_lt : uint63Max < 256 ^ 8 := by decide

theorem decodeRowOffsets_of_pack (h : packRowOffsets offsets sourceSize sourceRoot = .ok data) :
    decodeRowOffsets data = .ok ⟨offsets.length, sourceSize, sourceRoot, offsets⟩ := by
  obtain ⟨hvalid, digest, rfl, hdata⟩ := packRowOffsets_eq_ok.mp h
  have hbound := hvalid.bound
  have hlength := hvalid.length_le
  have hmax := uint63Max_lt
  have hcountFits : offsets.length < 256 ^ 8 := by omega
  have hsizeFits : sourceSize.toNat < 256 ^ 8 := by omega
  obtain ⟨hmagic, hmajor, hminor, hrecord, hcount, hsize, hdigest⟩ := fields_offsetHeader hcountFits
    hsizeFits digest (offsets.flatMap fun value => beBytes u64Size value.toNat)
  have hbody : (offsets.flatMap fun value => beBytes u64Size value.toNat) =
      (offsets.map Int.toNat).flatMap (beBytes u64Size) := by
    rw [flatMap_map]
  have hsizes : data.length = offsetHeaderSize + offsets.length * u64Size := by
    rw [hdata, length_append, length_offsetHeader, hbody, length_flatMap_beBytes, length_map]
  have hoffsets : ((range offsets.length).map fun index =>
      (unpackUInt data (offsetHeaderSize + index * u64Size) u64Size : Int)) = offsets := by
    have hfits : ∀ n ∈ offsets.map Int.toNat, n < 256 ^ u64Size := by
      intro n hn
      obtain ⟨v, hv, rfl⟩ := mem_map.mp hn
      have hlt := hvalid.inside v hv
      show v.toNat < 256 ^ 8
      omega
    have hvalues := map_unpackUInt_flatMap hfits
    rw [length_map] at hvalues
    calc ((range offsets.length).map fun index =>
          (unpackUInt data (offsetHeaderSize + index * u64Size) u64Size : Int))
        = ((range offsets.length).map fun index => unpackUInt
            ((offsets.map Int.toNat).flatMap (beBytes u64Size)) (index * u64Size) u64Size).map
              Int.ofNat := by
          rw [map_map]
          refine map_congr_left fun index _ => ?_
          rw [hdata, hbody, unpackUInt_append_right (by rw [length_offsetHeader]; omega),
            length_offsetHeader, Nat.add_sub_cancel_left]
          rfl
      _ = (offsets.map Int.toNat).map Int.ofNat := by rw [hvalues]
      _ = offsets := by
          rw [map_map]
          refine (map_congr_left fun v hv => ?_).trans (map_id _)
          exact Int.toNat_of_nonneg (hvalid.nonneg v hv)
  rw [← hdata] at hmagic hmajor hminor hrecord hcount hsize hdigest
  rw [decodeRowOffsets, raiseIf_neg (by rw [hsizes]; omega), ok_bind,
    raiseIf_neg (by simp [hmagic, hmajor, hminor, hrecord]), ok_bind]
  dsimp only
  rw [hcount, raiseIf_neg (not_not.mpr hsizes), ok_bind, hoffsets, hsize, hdigest, digestRoot_bytes,
    Int.toNat_of_nonneg hbound.1, h, ok_bind, raiseIf_neg (by simp), ok_bind]
  rfl

theorem pack_of_decodeRowOffsets {table : OffsetTable} (h : decodeRowOffsets data = .ok table) :
    table.count = table.offsets.length ∧
      packRowOffsets table.offsets table.sourceSize table.sourceRoot = .ok data := by
  simp only [decodeRowOffsets, bind_eq_ok, raiseIf_eq_ok, exists_unit, not_not] at h
  obtain ⟨-, -, -, canonical, hcanonical, rfl, htable⟩ := h
  cases htable
  exact ⟨by simp, hcanonical⟩

/-! ## Row anchors -/

/-- Anchors that `packRowAnchors` accepts. -/
structure AnchorsValid (anchors : List CsvRowAnchor) (rowCount sourceSize : Int) : Prop where
  rows : 0 ≤ rowCount ∧ rowCount ≤ uint63Max
  size : 0 ≤ sourceSize ∧ sourceSize ≤ uint63Max
  ordinals : anchors.Pairwise fun a b => a.rowOrdinal.val < b.rowOrdinal.val
  starts : anchors.Pairwise fun a b => a.startOffset.val < b.startOffset.val
  inside : ∀ anchor ∈ anchors, anchor.rowOrdinal.val < rowCount ∧ anchor.endOffset.val ≤ sourceSize
  sampled : 0 < rowCount → anchors ≠ []
  empty : rowCount = 0 → sourceSize = 0

theorem packAnchors_eq_ok {ordinal start : Int} {records : Bytes} :
    packAnchors rowCount sourceSize ordinal start anchors = .ok records ↔
      (∀ a ∈ anchors, ordinal < a.rowOrdinal.val ∧ start < a.startOffset.val) ∧
      (anchors.Pairwise fun a b => a.rowOrdinal.val < b.rowOrdinal.val) ∧
      (anchors.Pairwise fun a b => a.startOffset.val < b.startOffset.val) ∧
      (∀ a ∈ anchors, a.rowOrdinal.val < rowCount ∧ a.endOffset.val ≤ sourceSize) ∧
      records = anchors.flatMap CsvRowAnchor.pack := by
  induction anchors generalizing ordinal start records with
  | nil => simp [packAnchors, eq_comm]
  | cons anchor anchors ih =>
    simp only [packAnchors, bind_eq_ok, raiseIf_eq_ok, exists_unit, ih, pure_eq_ok, Except.ok.injEq,
      not_or, not_le, not_lt, forall_mem_cons, pairwise_cons, flatMap_cons]
    constructor
    · rintro ⟨⟨hordinal, hstart, hrow, hsize⟩, _, ⟨hafter, hordinals, hstarts, hinside, rfl⟩, rfl⟩
      refine ⟨⟨⟨hordinal, hstart⟩, fun a ha => ?_⟩, ⟨fun a ha => ?_, hordinals⟩,
        ⟨fun a ha => ?_, hstarts⟩, ⟨⟨hrow, hsize⟩, hinside⟩, rfl⟩
      · have hlt := hafter a ha
        omega
      · have hlt := hafter a ha
        omega
      · have hlt := hafter a ha
        omega
    · rintro ⟨⟨hfirst, -⟩, ⟨hordinals, hordinals'⟩, ⟨hstarts, hstarts'⟩, ⟨hrow, hinside⟩, rfl⟩
      refine ⟨⟨hfirst.1, hfirst.2, hrow.1, hrow.2⟩, _, ⟨fun a ha => ?_, hordinals', hstarts', hinside,
        rfl⟩, rfl⟩
      have hordinal := hordinals a ha
      have hstart := hstarts a ha
      omega

theorem AnchorsValid.length_le (h : AnchorsValid anchors rowCount sourceSize) :
    (anchors.length : Int) ≤ rowCount := by
  have hpairwise : (anchors.map fun a => (a.rowOrdinal.val : Int)).Pairwise (· < ·) := by
    rw [pairwise_map]
    exact h.ordinals.imp fun hlt => by omega
  cases anchors with
  | nil => simpa using h.rows.1
  | cons anchor anchors =>
    rw [map_cons] at hpairwise
    have hle := length_le_of_pairwise hpairwise (n := rowCount) fun v hv => by
      rcases mem_cons.mp hv with rfl | hv
      · exact (h.inside anchor (mem_cons_self ..)).1
      · obtain ⟨a, ha, rfl⟩ := mem_map.mp hv
        exact (h.inside a (mem_cons_of_mem _ ha)).1
    simp only [length_cons, length_map] at hle ⊢
    omega

theorem packRowAnchors_eq_ok {offsetsRoot : Str} :
    packRowAnchors anchors rowCount sourceSize sourceRoot offsetsRoot = .ok data ↔
      AnchorsValid anchors rowCount sourceSize ∧
        ∃ sourceDigest offsetsDigest : Root, sourceRoot = rootText sourceDigest ∧
          offsetsRoot = rootText offsetsDigest ∧
          data = anchorHeader rowCount.toNat anchors.length sourceSize.toNat sourceDigest
            offsetsDigest ++ anchors.flatMap CsvRowAnchor.pack := by
  simp only [packRowAnchors, bind_eq_ok, exists_unit, rootDigest_eq_ok, requireInt_eq_ok, natJson,
    Json.int.injEq, raiseIf_eq_ok, packAnchors_eq_ok, pure_eq_ok, Except.ok.injEq]
  constructor
  · rintro ⟨rows, rfl, size, rfl, source, rfl, offsets, rfl, hsampled, -, _,
      ⟨-, hordinals, hstarts, hinside, rfl⟩, hempty, rfl⟩
    have hrows := rows.2
    have hsize := size.2
    refine ⟨⟨by omega, by omega, hordinals, hstarts, hinside, fun hpos hnil => hsampled ⟨hpos, hnil⟩,
      fun hzero => ?_⟩, source, offsets, rfl, rfl, by simp⟩
    by_contra hne
    exact hempty ⟨hzero, .inl hne⟩
  · rintro ⟨h, source, offsets, rfl, rfl, rfl⟩
    have hrows := h.rows
    have hsize := h.size
    have hlength := h.length_le
    refine ⟨⟨rowCount.toNat, by omega, by omega⟩, by simp [hrows.1],
      ⟨sourceSize.toNat, by omega, by omega⟩, by simp [hsize.1], source, rfl, offsets, rfl,
      fun hnil => h.sampled hnil.1 hnil.2, by omega, _,
      ⟨fun a _ => by omega, h.ordinals, h.starts, h.inside, rfl⟩, ?_, rfl⟩
    rintro ⟨hzero, hsize' | hne⟩
    · exact hsize' (h.empty hzero)
    · refine hne (eq_nil_of_length_eq_zero ?_)
      omega

theorem CsvRowAnchor.length_pack (anchor : CsvRowAnchor) : anchor.pack.length = anchorRecordSize := by
  simp [pack, anchor.contentRoot.length_eq, anchorRecordSize]

theorem CsvRowAnchor.init_self (anchor : CsvRowAnchor) :
    init (natJson anchor.rowOrdinal) (natJson anchor.startOffset) (natJson anchor.endOffset)
      (rootJson anchor.contentRoot) = .ok anchor := by
  rw [init, requireInt_eq_ok.mpr rfl, ok_bind, requireInt_eq_ok.mpr rfl, ok_bind,
    requireInt_eq_ok.mpr rfl, ok_bind, dif_pos anchor.start_lt, requireRoot_eq_ok.mpr rfl, ok_bind]
  rfl

theorem length_flatMap_pack (anchors : List CsvRowAnchor) :
    (anchors.flatMap CsvRowAnchor.pack).length = anchors.length * anchorRecordSize := by
  induction anchors with
  | nil => rfl
  | cons anchor anchors ih =>
    rw [flatMap_cons, length_append, anchor.length_pack, ih, length_cons, Nat.succ_mul,
      Nat.add_comm]

theorem unpackAnchors_flatMap {place : Nat} (hplace : before.length = place) :
    unpackAnchors (before ++ anchors.flatMap CsvRowAnchor.pack) place anchors.length = .ok anchors := by
  induction anchors generalizing before place with
  | nil => rfl
  | cons anchor anchors ih =>
    have hmax := uint63Max_lt
    have hordinal := anchor.rowOrdinal.2
    have hstart := anchor.startOffset.2
    have hstop := anchor.endOffset.2
    have hlength : (before ++ anchor.pack).length = place + anchorRecordSize := by
      rw [length_append, hplace, anchor.length_pack]
    have hrest := ih hlength
    rw [append_assoc, ← flatMap_cons] at hrest
    have hfields : unpackUInt (before ++ (anchor :: anchors).flatMap CsvRowAnchor.pack) place 8 =
        anchor.rowOrdinal ∧
      unpackUInt (before ++ (anchor :: anchors).flatMap CsvRowAnchor.pack) (place + 8) 8 =
        anchor.startOffset ∧
      unpackUInt (before ++ (anchor :: anchors).flatMap CsvRowAnchor.pack) (place + 16) 8 =
        anchor.endOffset ∧
      ((before ++ (anchor :: anchors).flatMap CsvRowAnchor.pack).drop (place + 24)).take 32 =
        anchor.contentRoot.bytes := by
      subst hplace
      simp only [flatMap_cons, CsvRowAnchor.pack, append_assoc, unpackUInt_append_right,
        take_drop_append_right, length_beBytes, Nat.le_add_right, Nat.add_sub_cancel_left, le_refl,
        Nat.sub_self, Nat.reduceLeDiff, Nat.reduceSub, drop_zero]
      exact ⟨unpackUInt_beBytes (by omega), unpackUInt_beBytes (by omega), unpackUInt_beBytes (by omega),
        take_left' anchor.contentRoot.length_eq⟩
    obtain ⟨h₁, h₂, h₃, h₄⟩ := hfields
    have hroot : Json.str (digestRoot anchor.contentRoot.bytes) = rootJson anchor.contentRoot := rfl
    rw [length_cons, unpackAnchors, h₁, h₂, h₃, h₄, hroot, anchor.init_self, ok_bind, hrest, ok_bind]
    rfl

theorem length_anchorHeader (rowCount anchorCount sourceSize : Nat) (source offsets : Root) :
    (anchorHeader rowCount anchorCount sourceSize source offsets).length = anchorHeaderSize := by
  have hmagic : anchorMagic.length = 8 := rfl
  simp [anchorHeader, hmagic, source.length_eq, offsets.length_eq, anchorHeaderSize]

theorem fields_anchorHeader {rowCount anchorCount sourceSize : Nat} (hrows : rowCount < 256 ^ 8)
    (hcount : anchorCount < 256 ^ 8) (hsize : sourceSize < 256 ^ 8) (source offsets : Root)
    (body : Bytes) :
    let data := anchorHeader rowCount anchorCount sourceSize source offsets ++ body
    data.take 8 = anchorMagic ∧ unpackUInt data 8 2 = csvGenerationFormatVersion ∧
      unpackUInt data 10 2 = 0 ∧ unpackUInt data 12 4 = anchorRecordSize ∧
      unpackUInt data 16 8 = rowCount ∧ unpackUInt data 24 8 = anchorCount ∧
      unpackUInt data 32 8 = sourceSize ∧ (data.drop 40).take 32 = source.bytes ∧
      (data.drop 72).take 32 = offsets.bytes := by
  have hmagic : anchorMagic.length = 8 := rfl
  have hsource := source.length_eq
  have hoffsets := offsets.length_eq
  simp only [anchorHeader, append_assoc]
  refine ⟨take_left' hmagic, ?_, ?_, ?_, ?_, ?_, ?_, ?_, ?_⟩
  all_goals
    simp only [unpackUInt_append_right, take_drop_append_right, hmagic, hsource, length_beBytes,
      Nat.reduceLeDiff, Nat.reduceSub, Nat.le_refl, drop_zero]
  · exact unpackUInt_beBytes (by decide)
  · exact unpackUInt_beBytes (by decide)
  · exact unpackUInt_beBytes (by decide)
  · exact unpackUInt_beBytes hrows
  · exact unpackUInt_beBytes hcount
  · exact unpackUInt_beBytes hsize
  · exact take_left' hsource
  · exact take_left' hoffsets

theorem decodeRowAnchors_of_pack {offsetsRoot : Str}
    (h : packRowAnchors anchors rowCount sourceSize sourceRoot offsetsRoot = .ok data) :
    decodeRowAnchors data = .ok ⟨rowCount, sourceSize, sourceRoot, offsetsRoot, anchors⟩ := by
  obtain ⟨hvalid, source, offsets, rfl, rfl, hdata⟩ := packRowAnchors_eq_ok.mp h
  have hmax := uint63Max_lt
  have hrows := hvalid.rows
  have hsize := hvalid.size
  have hlength := hvalid.length_le
  have hrowsFit : rowCount.toNat < 256 ^ 8 := by omega
  have hcountFits : anchors.length < 256 ^ 8 := by omega
  have hsizeFits : sourceSize.toNat < 256 ^ 8 := by omega
  obtain ⟨hmagic, hmajor, hminor, hrecord, hrowCount, hcount, hsourceSize, hsource, hoffsets⟩ :=
    fields_anchorHeader hrowsFit hcountFits hsizeFits source offsets
      (anchors.flatMap CsvRowAnchor.pack)
  have hsizes : data.length = anchorHeaderSize + anchors.length * anchorRecordSize := by
    rw [hdata, length_append, length_anchorHeader, length_flatMap_pack]
  have hanchors : unpackAnchors data anchorHeaderSize anchors.length = .ok anchors := by
    rw [hdata]
    exact unpackAnchors_flatMap (length_anchorHeader ..)
  rw [← hdata] at hmagic hmajor hminor hrecord hrowCount hcount hsourceSize hsource hoffsets
  rw [decodeRowAnchors, raiseIf_neg (by rw [hsizes]; omega), ok_bind,
    raiseIf_neg (by simp [hmagic, hmajor, hminor, hrecord]), ok_bind]
  dsimp only
  rw [hcount, raiseIf_neg (not_not.mpr hsizes), ok_bind, hanchors, ok_bind, hrowCount, hsourceSize,
    hsource, hoffsets, digestRoot_bytes, digestRoot_bytes, Int.toNat_of_nonneg hrows.1,
    Int.toNat_of_nonneg hsize.1, h, ok_bind, raiseIf_neg (by simp), ok_bind]
  rfl

theorem pack_of_decodeRowAnchors {table : AnchorTable} (h : decodeRowAnchors data = .ok table) :
    packRowAnchors table.anchors table.rowCount table.sourceSize table.sourceRoot table.offsetsRoot =
      .ok data := by
  simp only [decodeRowAnchors, bind_eq_ok, raiseIf_eq_ok, exists_unit, not_not] at h
  obtain ⟨-, -, -, anchors, -, canonical, hcanonical, rfl, htable⟩ := h
  cases htable
  exact hcanonical

/-! ## Packing and decoding -/

/-- **Row tables.** Strictly increasing row starts of a source can be packed, a table that was packed
is read back, and a decoder only accepts what the packer makes of the table that it returns; the same
holds of anchors. -/
theorem rowTables_inverse :
    (∀ offsets sourceSize, OffsetsValid offsets sourceSize → ∀ root : Root,
      ∃ data, packRowOffsets offsets sourceSize (rootText root) = .ok data) ∧
    (∀ offsets sourceSize sourceRoot data,
      packRowOffsets offsets sourceSize sourceRoot = .ok data →
        decodeRowOffsets data = .ok ⟨offsets.length, sourceSize, sourceRoot, offsets⟩) ∧
    (∀ data table, decodeRowOffsets data = .ok table → table.count = table.offsets.length ∧
      packRowOffsets table.offsets table.sourceSize table.sourceRoot = .ok data) ∧
    (∀ anchors rowCount sourceSize, AnchorsValid anchors rowCount sourceSize → ∀ root root' : Root,
      ∃ data, packRowAnchors anchors rowCount sourceSize (rootText root) (rootText root') =
        .ok data) ∧
    (∀ anchors rowCount sourceSize sourceRoot offsetsRoot data,
      packRowAnchors anchors rowCount sourceSize sourceRoot offsetsRoot = .ok data →
        decodeRowAnchors data = .ok ⟨rowCount, sourceSize, sourceRoot, offsetsRoot, anchors⟩) ∧
    (∀ data table, decodeRowAnchors data = .ok table →
      packRowAnchors table.anchors table.rowCount table.sourceSize table.sourceRoot
        table.offsetsRoot = .ok data) := by
  refine ⟨fun offsets sourceSize h root => ?_, fun _ _ _ _ h => decodeRowOffsets_of_pack h,
    fun _ _ h => pack_of_decodeRowOffsets h, fun anchors rowCount sourceSize h root root' => ?_,
    fun _ _ _ _ _ _ h => decodeRowAnchors_of_pack h, fun _ _ h => pack_of_decodeRowAnchors h⟩
  · exact ⟨_, packRowOffsets_eq_ok.mpr ⟨h, root, rfl, rfl⟩⟩
  · exact ⟨_, packRowAnchors_eq_ok.mpr ⟨h, root, root', rfl, rfl, rfl⟩⟩

/-! ## The choice of anchors -/

/-- `count` of the rows in their order, the first and the last among them. -/
structure Spread (rowCount : Int) (count : Nat) (indices : List Int) : Prop where
  increasing : indices.Pairwise (· < ·)
  inRange : ∀ i ∈ indices, 0 ≤ i ∧ i < rowCount
  length : indices.length = count
  ends : 2 ≤ count → 0 ∈ indices ∧ rowCount - 1 ∈ indices

theorem spread_map_range {count : Nat} {f : Nat → Int} (hstep : ∀ i, f i < f (i + 1))
    (hfirst : f 0 = 0) (hlast : count ≠ 0 → f (count - 1) = rowCount - 1) :
    Spread rowCount count ((range count).map f) where
  increasing := pairwise_lt_range.map f fun _ _ h => strictMono_nat_of_lt_succ hstep h
  inRange := by
    have hmono := (strictMono_nat_of_lt_succ hstep).monotone
    rintro i hi
    obtain ⟨n, hn, rfl⟩ := mem_map.mp hi
    have hn := mem_range.mp hn
    have hlow := hmono (Nat.zero_le n)
    have hhigh := hmono (Nat.le_sub_one_of_lt hn)
    rw [hlast (by omega)] at hhigh
    omega
  length := by simp
  ends h := ⟨mem_map.mpr ⟨0, mem_range.mpr (by omega), hfirst⟩,
    mem_map.mpr ⟨count - 1, mem_range.mpr (by omega), hlast (by omega)⟩⟩

/-- Rounding down keeps a step of at least one. -/
theorem fdiv_interpolated {last divisor : Int} (hdivisor : 0 < divisor) (hle : divisor ≤ last)
    (i : Int) : (i * last).fdiv divisor < ((i + 1) * last).fdiv divisor := by
  rw [Int.fdiv_eq_ediv_of_nonneg _ hdivisor.le, Int.fdiv_eq_ediv_of_nonneg _ hdivisor.le]
  calc i * last / divisor < i * last / divisor + 1 := Int.lt_succ _
    _ = (i * last + 1 * divisor) / divisor := (Int.add_mul_ediv_right _ _ hdivisor.ne').symm
    _ ≤ (i + 1) * last / divisor := Int.ediv_le_ediv hdivisor (by rw [Int.add_mul]; omega)

/-- The chosen rows increase, with the first and the last among two or more. -/
theorem selectAnchorIndices_spread (rowCount anchorLimit : Int) :
    Spread rowCount (min rowCount anchorLimit).toNat (selectAnchorIndices rowCount anchorLimit) := by
  unfold selectAnchorIndices
  generalize hcount : min rowCount anchorLimit = count
  have hle : count ≤ rowCount := hcount ▸ Int.min_le_left _ _
  by_cases hzero : rowCount = 0
  · rw [if_pos hzero, Int.toNat_of_nonpos (by omega)]
    exact ⟨.nil, by simp, rfl, by omega⟩
  rw [if_neg hzero]
  by_cases hall : count = rowCount
  · rw [if_pos hall, hall]
    refine spread_map_range (fun i => ?_) rfl (fun h => ?_)
    · exact Nat.cast_lt.mpr (Nat.lt_succ_self i)
    · omega
  rw [if_neg hall]
  by_cases hone : count = 1
  · rw [if_pos hone, hone]
    exact ⟨pairwise_singleton _ _, by simp; omega, rfl, by omega⟩
  rw [if_neg hone]
  by_cases hpos : 0 < count
  · have hdivisor : 0 < count - 1 := by omega
    refine spread_map_range (fun i => ?_) ?_ (fun _ => ?_)
    · rw [Nat.cast_succ]
      exact fdiv_interpolated hdivisor (by omega) i
    · rw [Nat.cast_zero, Int.zero_mul, Int.zero_fdiv]
    · rw [show ((count.toNat - 1 : Nat) : Int) = count - 1 by omega]
      exact Int.mul_fdiv_cancel_left _ hdivisor.ne'
  · rw [Int.toNat_of_nonpos (by omega)]
    exact ⟨.nil, by simp, rfl, by omega⟩

end Generation
