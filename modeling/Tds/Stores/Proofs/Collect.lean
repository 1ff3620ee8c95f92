import Tds.FileSystem.JsonCodec
import Tds.Stores.Segments

/-!
# What garbage collection leaves of a segment store

A generation verifies by its manifest and by the files of the segments it refers to, so deleting
files that no generation refers to changes nothing for any of them. The deletion loop proves
reachability anew for each file; since every proof has the same outcome, the loop removes all
candidates.
-/

namespace Stores

open Python FileSystem Persistence List

theorem segmentIf_eq_ok {condition : Prop} [Decidable condition] {message : String} {u : Unit} :
    segmentIf condition message = .ok u ↔ ¬condition := by
  simp only [segmentIf]
  split <;> simp_all

section Verification

variable [Runtime] [Objects] [Digits]

variable {segments : PyDict (Str × Str) Bytes} {ref : SegmentReference} {segmentBytes : Int}
  {data : Bytes}

variable {segments' : PyDict (Str × Str) Bytes}

omit [Objects] [Digits] in
theorem verifySegmentFile_congr
    (h : segments'.get (segmentPath ref.sha256) = segments.get (segmentPath ref.sha256)) :
    verifySegmentFile segments' ref = verifySegmentFile segments ref := by
  rw [verifySegmentFile, verifySegmentFile, h]

omit [Objects] [Digits] in
theorem exists_file_of_verifySegmentFile (h : verifySegmentFile segments ref = .ok data) :
    segments.get (segmentPath ref.sha256) = some data := by
  rw [verifySegmentFile] at h
  split at h
  · cases h
  · rename_i found hfound
    split_ifs at h
    cases h
    exact hfound

omit [Objects] [Digits] in
theorem verifyReferences_congr {items : List Value}
    {refs : List SegmentReference}
    (h : verifyReferences segments segmentBytes items = .ok (refs, data))
    (hagree : ∀ ref ∈ refs,
      segments'.get (segmentPath ref.sha256) = segments.get (segmentPath ref.sha256)) :
    verifyReferences segments' segmentBytes items = .ok (refs, data) := by
  induction items generalizing refs data with
  | nil => exact h
  | cons item items ih =>
    simp only [verifyReferences, bind_eq_ok, pure_eq_ok] at h ⊢
    obtain ⟨ref, href, bytes, hbytes, ⟨rest, tail⟩, hrest, heq⟩ := h
    cases heq
    rw [forall_mem_cons] at hagree
    exact ⟨ref, href, bytes, (verifySegmentFile_congr hagree.1).trans hbytes, _,
      ih hrest hagree.2, rfl⟩

omit [Runtime] [Objects] [Digits] in
theorem isDigestText_of_readReference {item : Value}
    (h : readReference segmentBytes item = .ok ref) :
    isDigestText ref.sha256 = true := by
  simp only [readReference] at h
  split at h
  · split at h
    · simp only [bind_eq_ok, exists_unit] at h
      obtain ⟨-, h⟩ := h
      split at h
      · simp only [bind_eq_ok, exists_unit, segmentIf_eq_ok, pure_eq_ok] at h
        obtain ⟨hdigest, size, -, heq⟩ := h
        cases heq
        simpa using hdigest
      · cases h
    · cases h
  · cases h

omit [Objects] [Digits] in
theorem exists_file_of_verifyReferences {items : List Value} {refs : List SegmentReference}
    (h : verifyReferences segments segmentBytes items = .ok (refs, data)) :
    ∀ ref ∈ refs, isDigestText ref.sha256 = true ∧
      ∃ bytes, segments.get (segmentPath ref.sha256) = some bytes := by
  induction items generalizing refs data with
  | nil =>
    cases h
    simp
  | cons item items ih =>
    simp only [verifyReferences, bind_eq_ok, pure_eq_ok] at h
    obtain ⟨ref, href, bytes, hbytes, ⟨rest, tail⟩, hrest, heq⟩ := h
    cases heq
    rw [forall_mem_cons]
    exact ⟨⟨isDigestText_of_readReference href, bytes, exists_file_of_verifySegmentFile hbytes⟩,
      ih hrest⟩

namespace SegmentStore

variable {st st' : SegmentStore} {info : SegmentGenerationInfo} {counts : PyDict Str Nat}
  {id digest : Str} {ids : List Str}

theorem verify_eq_ok :
    st.verify id = .ok info ↔ ∃ raw manifest data,
      st.manifestBytes id = .ok raw ∧ readManifest id raw = .ok manifest ∧
      verifyReferences st.segments manifest.segmentBytes manifest.references =
        .ok (info.segments, data) ∧
      (info.segments.map SegmentReference.size).sum = manifest.logicalSize ∧
      hexdigest data = manifest.logicalSha256 ∧
      info = {
        generationId := id
        parentGeneration := manifest.parentGeneration
        createdNs := manifest.createdNs
        logicalSize := (info.segments.map SegmentReference.size).sum
        logicalSha256 := hexdigest data
        manifestSha256 := hexdigest raw
        segments := info.segments
        applicationMetadata := manifest.applicationMetadata } := by
  simp only [verify, bind_eq_ok, pure_eq_ok, segmentIf_eq_ok, exists_unit, not_not]
  constructor
  · rintro ⟨raw, hraw, manifest, hmanifest, ⟨refs, data⟩, hrefs, hsize, hsha, heq⟩
    cases heq
    exact ⟨raw, manifest, data, hraw, hmanifest, hrefs, hsize, hsha, rfl⟩
  · rintro ⟨raw, manifest, data, hraw, hmanifest, hrefs, hsize, hsha, heq⟩
    exact ⟨raw, hraw, manifest, hmanifest, (info.segments, data), hrefs, hsize, hsha,
      congrArg Except.ok heq.symm⟩

omit [Runtime] [Objects] in
theorem manifestBytes_eq_ok {raw : Bytes} :
    st.manifestBytes id = .ok raw ↔
      matchesId "sgen-" id = true ∧ st.generations.get id = some (some raw) := by
  simp only [manifestBytes, bind_eq_ok, exists_unit, segmentIf_eq_ok, Bool.not_eq_false]
  refine and_congr_right fun _ => ?_
  split <;> simp_all

omit [Runtime] [Objects] in
theorem mem_generationIds : id ∈ st.generationIds ↔
    matchesId "sgen-" id = true ∧ ∃ raw, st.generations.get id = some raw := by
  simp only [generationIds, mem_reverse, mem_insertionSort, mem_filter,
    PyDict.mem_keys_iff]
  exact and_comm

theorem mem_generationIds_of_verify (h : st.verify id = .ok info) : id ∈ st.generationIds := by
  obtain ⟨raw, manifest, data, hraw, -⟩ := verify_eq_ok.mp h
  obtain ⟨hid, hget⟩ := manifestBytes_eq_ok.mp hraw
  exact mem_generationIds.mpr ⟨hid, _, hget⟩

theorem exists_file_of_verify (h : st.verify id = .ok info) :
    ∀ ref ∈ info.segments, isDigestText ref.sha256 = true ∧
      ∃ bytes, st.segments.get (segmentPath ref.sha256) = some bytes := by
  obtain ⟨raw, manifest, data, -, -, hrefs, -⟩ := verify_eq_ok.mp h
  exact exists_file_of_verifyReferences hrefs

theorem verify_congr (h : st.verify id = .ok info)
    (hgeneration : st'.generations.get id = st.generations.get id)
    (hagree : ∀ ref ∈ info.segments,
      st'.segments.get (segmentPath ref.sha256) = st.segments.get (segmentPath ref.sha256)) :
    st'.verify id = .ok info := by
  obtain ⟨raw, manifest, data, hraw, hmanifest, hrefs, hsize, hsha, heq⟩ := verify_eq_ok.mp h
  rw [manifestBytes_eq_ok, ← hgeneration] at hraw
  exact verify_eq_ok.mpr ⟨raw, manifest, data, manifestBytes_eq_ok.mpr hraw, hmanifest,
    verifyReferences_congr hrefs hagree, hsize, hsha, heq⟩

/-! ## Scans -/

omit [Runtime] [Objects] [Digits] in
theorem isSome_get_foldl_countDigest (names : List Str) (counts : PyDict Str Nat) (digest : Str) :
    ((names.foldl countDigest counts).get digest).isSome ↔
      digest ∈ names ∨ (counts.get digest).isSome := by
  induction names generalizing counts with
  | nil => simp
  | cons name names ih =>
    rw [foldl_cons, ih, mem_cons, or_comm (a := digest = name), or_assoc]
    refine or_congr_right ?_
    by_cases h : digest = name
    · simp [countDigest, h]
    · simp [countDigest, PyDict.get_set_of_ne _ _ h, h]

theorem scanGenerations_counts {counts' : PyDict Str Nat} {invalid invalid' : List Str}
    (h : st.scanGenerations ids counts invalid = .ok (counts', invalid')) (digest : Str) :
    (counts'.get digest).isSome ↔ (counts.get digest).isSome ∨
      ∃ id ∈ ids, ∃ info, st.verify id = .ok info ∧
        digest ∈ info.segments.map SegmentReference.sha256 := by
  induction ids generalizing counts invalid with
  | nil =>
    cases h
    simp
  | cons id ids ih =>
    rw [scanGenerations] at h
    split at h
    · rename_i info hinfo
      rw [ih h, isSome_get_foldl_countDigest, digests, mem_dedup]
      simp [hinfo, or_assoc, or_left_comm]
    · rename_i hinfo
      rw [ih h]
      simp [hinfo]
    · cases h

theorem scanGenerations_valid {counts' : PyDict Str Nat} {invalid : List Str}
    (h : st.scanGenerations ids counts invalid = .ok (counts', [])) :
    invalid = [] ∧ ∀ id ∈ ids, ∃ info, st.verify id = .ok info := by
  induction ids generalizing counts invalid with
  | nil =>
    cases h
    simp
  | cons id ids ih =>
    rw [scanGenerations] at h
    split at h
    · rename_i info hinfo
      obtain ⟨hinvalid, hids⟩ := ih h
      exact ⟨hinvalid, forall_mem_cons.mpr ⟨⟨info, hinfo⟩, hids⟩⟩
    · simpa using (ih h).1
    · cases h

theorem exists_scanGenerations (h : ∀ id ∈ ids, ∃ info, st.verify id = .ok info)
    (counts : PyDict Str Nat) (invalid : List Str) :
    ∃ counts', st.scanGenerations ids counts invalid = .ok (counts', invalid) := by
  induction ids generalizing counts with
  | nil => exact ⟨counts, rfl⟩
  | cons id ids ih =>
    obtain ⟨⟨info, hinfo⟩, hids⟩ := forall_mem_cons.mp h
    rw [scanGenerations, hinfo]
    exact ih hids _

/-- A scan without invalid generations: there are none, and the counted digests are the referenced
ones. -/
theorem referenceScan_eq_ok_nil (h : st.referenceScan = .ok (counts, [])) :
    st.AllValid ∧ ∀ digest, (counts.get digest).isSome ↔ st.References digest := by
  simp only [referenceScan, bind_eq_ok, pure_eq_ok] at h
  obtain ⟨⟨counts₀, invalid⟩, hscan, heq⟩ := h
  obtain ⟨hcounts, hinvalid⟩ := Prod.mk.inj (Except.ok.inj heq)
  obtain rfl : invalid = [] := by
    rw [← length_eq_zero_iff, ← length_insertionSort (· ≤ ·) invalid, hinvalid]
    rfl
  refine ⟨(scanGenerations_valid hscan).2, fun digest => ?_⟩
  have hsorted : (counts.get digest).isSome ↔ (counts₀.get digest).isSome := by
    rw [Option.isSome_iff_exists, Option.isSome_iff_exists, ← PyDict.mem_keys_iff,
      ← PyDict.mem_keys_iff, ← hcounts]
    exact ((perm_sortByKey counts₀).map Prod.fst).mem_iff
  rw [hsorted, scanGenerations_counts hscan]
  constructor
  · rintro (h | ⟨id, -, info, hinfo, hmem⟩)
    · simp at h
    · exact ⟨id, info, hinfo, hmem⟩
  · rintro ⟨id, info, hinfo, hmem⟩
    exact .inr ⟨id, mem_generationIds_of_verify hinfo, info, hinfo, hmem⟩

theorem exists_referenceScan (h : st.AllValid) : ∃ counts, st.referenceScan = .ok (counts, []) := by
  obtain ⟨counts, hscan⟩ := exists_scanGenerations h [] []
  exact ⟨sortByKey counts, by rw [referenceScan, hscan]; rfl⟩

theorem scanGenerations_congr (h : ∀ id ∈ ids, st'.verify id = st.verify id)
    (counts : PyDict Str Nat) (invalid : List Str) :
    st'.scanGenerations ids counts invalid = st.scanGenerations ids counts invalid := by
  induction ids generalizing counts invalid with
  | nil => rfl
  | cons id ids ih =>
    obtain ⟨hid, hids⟩ := forall_mem_cons.mp h
    simp only [scanGenerations, hid, ih hids]

/-! ## Deleting files -/

/-- The second store is the first without some segment files, none of which a generation refers
to. -/
structure Drops (st st' : SegmentStore) : Prop where
  generations : st'.generations = st.generations
  segments : ∀ path, st'.segments.get path = st.segments.get path ∨
    st'.segments.get path = none ∧
      ∃ digest, segmentDigest path = some digest ∧ ¬st.References digest

theorem Drops.refl (st : SegmentStore) : Drops st st := ⟨rfl, fun _ => .inl rfl⟩

omit [Runtime] [Objects] [Digits] in
theorem segmentDigest_segmentPath (h : isDigestText digest = true) :
    segmentDigest (segmentPath digest) = some digest := by
  have hname : digestOfName (digest ++ lit ".seg") = digest := by
    have hlength : (digest ++ lit ".seg").length - 4 = digest.length := by
      simp [lit]
    rw [digestOfName, if_pos (suffix_append _ _), hlength, take_left]
  simp only [segmentDigest, segmentPath, hname, h, if_true]

theorem Drops.verify (h : Drops st st') (hinfo : st.verify id = .ok info) :
    st'.verify id = .ok info := by
  refine verify_congr hinfo (by rw [h.generations]) fun ref href => ?_
  obtain hsame | ⟨-, digest, hdigest, hunreferenced⟩ := h.segments (segmentPath ref.sha256)
  · exact hsame
  · rw [segmentDigest_segmentPath (exists_file_of_verify hinfo ref href).1] at hdigest
    cases hdigest
    exact absurd ⟨id, info, hinfo, mem_map_of_mem href⟩ hunreferenced

theorem Drops.generationIds (h : Drops st st') : st'.generationIds = st.generationIds := by
  rw [SegmentStore.generationIds, SegmentStore.generationIds, h.generations]

/-- Dropping files does not change what a scan of a store without invalid generations finds. -/
theorem Drops.referenceScan (h : Drops st st') (hvalid : st.AllValid) :
    st'.referenceScan = st.referenceScan := by
  rw [SegmentStore.referenceScan, SegmentStore.referenceScan, h.generationIds,
    scanGenerations_congr fun id hid => ?_]
  obtain ⟨info, hinfo⟩ := hvalid id hid
  rw [hinfo, h.verify hinfo]

theorem Drops.confirmReach (h : Drops st st') (hvalid : st.AllValid)
    (hdigest : ¬st.References digest) : st'.confirmReach digest = .ok .unreferenced := by
  obtain ⟨counts, hscan⟩ := exists_referenceScan hvalid
  have hcount : (counts.get digest).isSome = false := by
    rw [← Bool.not_eq_true, (referenceScan_eq_ok_nil hscan).2]
    exact hdigest
  have hreach : st'.reach digest = .ok .unreferenced := by
    rw [reach, h.referenceScan hvalid, hscan]
    simp [hcount]
  rw [SegmentStore.confirmReach, hreach]
  rfl

theorem Drops.pop (h : Drops st st') {path : Str × Str} (hdigest : segmentDigest path = some digest)
    (hunreferenced : ¬st.References digest) :
    Drops st { st' with segments := st'.segments.pop path } := by
  refine ⟨h.generations, fun path' => ?_⟩
  by_cases hpath : path' = path
  · subst hpath
    exact .inr ⟨PyDict.get_pop_self _ _, digest, hdigest, hunreferenced⟩
  · rw [show ({ st' with segments := st'.segments.pop path } : SegmentStore).segments =
      st'.segments.pop path from rfl, PyDict.get_pop_of_ne _ hpath]
    exact h.segments path'

structure Candidate.Removable (c : Candidate) (st : SegmentStore) (s : Sweep) : Prop where
  digest : segmentDigest c.path = some c.digest
  unreferenced : ¬st.References c.digest
  size : ∀ data, s.store.segments.get c.path = some data → data.length = c.size

theorem Sweep.delete_of_removable {s : Sweep} {c : Candidate} (h : c.Removable st s) :
    (∀ path, (s.delete c).store.segments.get path =
        if path = c.path then none else s.store.segments.get path) ∧
      (∀ digest, digest ∈ (s.delete c).removed ↔
        digest ∈ s.removed ∨ digest = c.digest ∧ (s.store.segments.get c.path).isSome) ∧
      (s.delete c).blocked = s.blocked ∧
      (Drops st s.store → Drops st (s.delete c).store) := by
  cases hget : s.store.segments.get c.path with
  | none =>
    rw [Sweep.delete, hget]
    refine ⟨fun path => ?_, by simp, rfl, id⟩
    split_ifs with hpath
    · rw [hpath]
      exact hget
    · rfl
  | some data =>
    have hdelete : s.delete c = { s with
        store := { s.store with segments := s.store.segments.pop c.path }
        removed := s.removed ++ [c.digest]
        removedBytes := s.removedBytes + c.size } := by
      simp only [Sweep.delete, hget, h.size data hget, ne_eq, not_true_eq_false, if_false]
    rw [hdelete]
    refine ⟨fun path => ?_, by simp, rfl, fun hdrops => hdrops.pop h.digest h.unreferenced⟩
    split_ifs with hpath
    · rw [hpath]
      exact PyDict.get_pop_self _ _
    · exact PyDict.get_pop_of_ne _ hpath

theorem sweep_of_removable (hvalid : st.AllValid) (removable : List Candidate)
    {rest : List Candidate} {s : Sweep} (hdrops : Drops st s.store)
    (hrest : ∀ c ∈ rest, c.Removable st s) :
    ∃ s', sweep removable rest s = (.ok s', s'.store) ∧ Drops st s'.store ∧
      s'.blocked = s.blocked ∧
      (∀ path, s'.store.segments.get path =
        if path ∈ rest.map Candidate.path then none else s.store.segments.get path) ∧
      (∀ digest, digest ∈ s'.removed ↔ digest ∈ s.removed ∨
        ∃ c ∈ rest, c.digest = digest ∧ (s.store.segments.get c.path).isSome) := by
  induction rest generalizing s with
  | nil => exact ⟨s, rfl, hdrops, rfl, by simp, by simp⟩
  | cons c rest ih =>
    obtain ⟨hc, hrest⟩ := forall_mem_cons.mp hrest
    obtain ⟨hfiles, hremoved, hblocked, hdrops'⟩ := Sweep.delete_of_removable hc
    have hrest' : ∀ c' ∈ rest, c'.Removable st (s.delete c) := by
      intro c' hmem
      refine ⟨(hrest c' hmem).digest, (hrest c' hmem).unreferenced, fun data hdata => ?_⟩
      rw [hfiles] at hdata
      split_ifs at hdata
      exact (hrest c' hmem).size data hdata
    obtain ⟨s', hrun, hd, hb, hget, hmem⟩ := ih (hdrops' hdrops) hrest'
    refine ⟨s', ?_, hd, hb.trans hblocked, fun path => ?_, fun digest => ?_⟩
    · rw [sweep, hdrops.confirmReach hvalid hc.unreferenced]
      exact hrun
    · rw [hget, hfiles, map_cons]
      by_cases hpath : path = c.path <;> simp [hpath]
    · -- a later candidate with the same path finds the file gone, but its digest is the same
      rw [hmem, hremoved, or_assoc]
      refine or_congr_right ⟨?_, ?_⟩
      · rintro (⟨rfl, hsome⟩ | ⟨c', hc', rfl, hsome⟩)
        · exact ⟨c, mem_cons_self, rfl, hsome⟩
        · rw [hfiles] at hsome
          split_ifs at hsome
          · simp at hsome
          · exact ⟨c', mem_cons_of_mem _ hc', rfl, hsome⟩
      · rintro ⟨c', hc', rfl, hsome⟩
        by_cases hpath : c'.path = c.path
        · have hdigest : c'.digest = c.digest := by
            obtain rfl | hc' := mem_cons.mp hc'
            · rfl
            · have := (hrest c' hc').digest
              rw [hpath, hc.digest] at this
              exact (Option.some.inj this).symm
          exact .inl ⟨hdigest, hpath ▸ hsome⟩
        · obtain rfl | hc' := mem_cons.mp hc'
          · exact absurd rfl hpath
          · refine .inr ⟨c', hc', rfl, ?_⟩
            rw [hfiles, if_neg hpath]
            exact hsome

/-! ## Collections -/

omit [Runtime] [Objects] [Digits] in
theorem mem_candidates {c : Candidate} :
    c ∈ st.candidates counts ↔ segmentDigest c.path = some c.digest ∧
      (counts.get c.digest).isSome = false ∧
      ∃ data, st.segments.get c.path = some data ∧ c.size = data.length := by
  simp only [candidates, mem_filterMap]
  constructor
  · rintro ⟨path, -, h⟩
    split at h
    · rename_i digest data hdigest hdata
      split_ifs at h with hcount
      cases h
      exact ⟨hdigest, by simpa using hcount, data, hdata, rfl⟩
    · cases h
  · rintro ⟨hdigest, hcount, data, hdata, hsize⟩
    refine ⟨c.path, (PyDict.mem_keys_iff _ _).mpr ⟨data, hdata⟩, ?_⟩
    rw [hdigest, hdata]
    simp [hcount, ← hsize]

omit [Runtime] [Objects] [Digits] in
theorem mem_sortedSet {names : List Str} {name : Str} : name ∈ sortedSet names ↔ name ∈ names := by
  rw [sortedSet, mem_insertionSort, mem_dedup]

/-- What a collection leaves of a store without invalid generations. -/
structure Collected (st : SegmentStore) (report : GCReport) (st' : SegmentStore) : Prop where
  notBlocked : report.blocked = false
  /-- A file stays unless it is a segment that no generation refers to. -/
  kept : ∀ path, (∀ digest, segmentDigest path = some digest → st.References digest) →
    st'.segments.get path = st.segments.get path
  removed : ∀ path digest, segmentDigest path = some digest → ¬st.References digest →
    st'.segments.get path = none
  /-- The report lists the digests of the files that were removed. -/
  reported : ∀ digest, digest ∈ report.removedSegments ↔ ¬st.References digest ∧
    ∃ path data, segmentDigest path = some digest ∧ st.segments.get path = some data

theorem collectLocked_of_allValid (hvalid : st.AllValid) :
    ∃ report st', collectLocked false st = (.ok report, st') ∧ Drops st st' ∧
      Collected st report st' := by
  obtain ⟨counts, hscan⟩ := exists_referenceScan hvalid
  have hcounts := (referenceScan_eq_ok_nil hscan).2
  have hunreferenced : ∀ digest, (counts.get digest).isSome = false ↔ ¬st.References digest := by
    intro digest
    rw [← Bool.not_eq_true, hcounts]
  have hremovable : ∀ c ∈ st.candidates counts, c.Removable st { store := st } := by
    intro c hc
    obtain ⟨hdigest, hcount, data, hdata, hsize⟩ := mem_candidates.mp hc
    refine ⟨hdigest, (hunreferenced _).mp hcount, fun data' hdata' => ?_⟩
    rw [hdata] at hdata'
    cases hdata'
    exact hsize.symm
  obtain ⟨s', hrun, hdrops, hblocked, hget, hmem⟩ :=
    sweep_of_removable hvalid (st.candidates counts) (Drops.refl st) hremovable
  refine ⟨_, s'.store, by rw [collectLocked, hscan]; simp [hrun]; rfl, hdrops, hblocked, ?_, ?_, ?_⟩
  · intro path hpath
    rw [hget, if_neg]
    intro hmem
    obtain ⟨c, hc, rfl⟩ := mem_map.mp hmem
    exact (hremovable c hc).unreferenced (hpath _ (hremovable c hc).digest)
  · intro path digest hdigest hdead
    rw [hget]
    split_ifs with hpath
    · rfl
    · cases hdata : st.segments.get path with
      | none => rfl
      | some data =>
        have hc : (⟨digest, path, data.length⟩ : Candidate) ∈ st.candidates counts :=
          mem_candidates.mpr ⟨hdigest, (hunreferenced _).mpr hdead, data, hdata, rfl⟩
        exact absurd (mem_map.mpr ⟨_, hc, rfl⟩) hpath
  · intro digest
    rw [report, mem_sortedSet, hmem]
    simp only [not_mem_nil, false_or]
    constructor
    · rintro ⟨c, hc, rfl, hsome⟩
      obtain ⟨data, hdata⟩ := Option.isSome_iff_exists.mp hsome
      exact ⟨(hremovable c hc).unreferenced, c.path, data, (hremovable c hc).digest, hdata⟩
    · rintro ⟨hdead, path, data, hdigest, hdata⟩
      exact ⟨⟨digest, path, data.length⟩,
        mem_candidates.mpr ⟨hdigest, (hunreferenced _).mpr hdead, data, hdata, rfl⟩, rfl,
        by simp [hdata]⟩

theorem drops_collectLocked (st : SegmentStore) (dryRun : Bool) :
    Drops st (collectLocked dryRun st).2 := by
  rw [collectLocked]
  split
  · exact Drops.refl st
  · rename_i counts invalid hscan
    by_cases h : dryRun = true ∨ invalid ≠ []
    · rw [if_pos h]
      exact Drops.refl st
    · rw [not_or, not_not, Bool.not_eq_true] at h
      obtain ⟨rfl, rfl⟩ := h
      obtain ⟨report, st', hrun, hdrops, -⟩ :=
        collectLocked_of_allValid (referenceScan_eq_ok_nil hscan).1
      rw [collectLocked, hscan] at hrun
      rw [show st' = _ from (congrArg Prod.snd hrun).symm] at hdrops
      exact hdrops

/-- Garbage collection never breaks a generation, and on a store without invalid generations it
removes exactly the segments that no generation refers to. A store whose lock is held is left
alone. -/
theorem collect_removes_exactly_unreferenced (st : SegmentStore) :
    (∀ dryRun id info, st.verify id = .ok info →
      (st.collectUnreferencedSegments dryRun).2.verify id = .ok info) ∧
    (st.AllValid → st.locked = false → ∃ report st',
      st.collectUnreferencedSegments false = (.ok report, st') ∧ Collected st report st') ∧
    (st.locked = true → ∀ dryRun, st.collectUnreferencedSegments dryRun =
      (.error (.segmentStore (lit "segment mutation lock is already held")), st)) := by
  refine ⟨fun dryRun id info hinfo => ?_, fun hvalid hunlocked => ?_, fun hlocked dryRun => ?_⟩
  · rw [collectUnreferencedSegments, withLock]
    split_ifs with hlocked
    · exact hinfo
    · exact (drops_collectLocked { st with locked := true } dryRun).verify hinfo
  · obtain ⟨report, st', hrun, -, hcollected⟩ :=
      collectLocked_of_allValid (show ({ st with locked := true } : SegmentStore).AllValid from hvalid)
    refine ⟨report, { st' with locked := false }, ?_, ?_⟩
    · simp only [collectUnreferencedSegments, withLock, hunlocked, hrun, Bool.false_eq_true,
        if_false]
    · exact ⟨hcollected.notBlocked, hcollected.kept, hcollected.removed, hcollected.reported⟩
  · rw [collectUnreferencedSegments, withLock, if_pos hlocked]

end SegmentStore

end Verification

/-! ## A store with one generation -/

def sampleId : Str := ["sgen-00000000000000000000", "-000000000000"].flatMap lit

def sampleDigest : Str :=
  ["ca978112ca1bbdcafac231b39a23dc4d", "a786eff8147c4e72b9807785afee48bb"].flatMap lit

def sampleManifest : Str :=
  ["\x7b\"application_metadata\":", "\x7b\x7d,\"created_ns\":0,",
      "\"generation_id\":\""].flatMap lit ++
    sampleId ++ ["\",\"logical_sha256\":\""].flatMap lit ++ sampleDigest ++
    ["\",\"logical_size\":1,", "\"parent_generation\":null,", "\"schema\":\"tds.segment-",
      "generation.v1\",", "\"segment_bytes\":1,", "\"segments\":[\x7b\"sha256\":\""].flatMap lit ++
    sampleDigest ++ ["\",\"size\":1\x7d]\x7d"].flatMap lit

@[reducible] def asciiDigits : Digits := ⟨isDigit⟩

/-- A store with one generation and a segment that nothing refers to. -/
def sampleStore : SegmentStore where
  generations := [(sampleId, some (encodeAscii sampleManifest))]
  segments := [(segmentPath sampleDigest, [97]), (segmentPath (List.replicate 64 48), [98])]
  locked := false

section Witness

attribute [local instance] sampleRuntime jsonObjects asciiDigits

theorem sampleStore_valid : sampleStore.AllValid := by
  have hids : sampleStore.generationIds = [sampleId] := by decide +kernel
  have hverify : (sampleStore.verify sampleId).isOk = true := by decide +kernel
  intro id hid
  rw [hids, mem_singleton] at hid
  subst hid
  cases h : sampleStore.verify sampleId with
  | ok info => exact ⟨info, rfl⟩
  | error e => rw [h] at hverify; cases hverify

/-- The collection of the sample goes through. -/
theorem collect_sample : sampleStore.AllValid ∧ ∃ report st',
    sampleStore.collectUnreferencedSegments false = (.ok report, st') ∧
      SegmentStore.Collected sampleStore report st' :=
  ⟨sampleStore_valid,
    (SegmentStore.collect_removes_exactly_unreferenced sampleStore).2.1 sampleStore_valid rfl⟩

end Witness

end Stores
