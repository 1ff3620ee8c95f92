import Tds.Generation.CsvBinding
import Tds.Generation.Proofs.Manifest

/-!
# When two encodings of a CSV binding are the same

A binding keeps the spelling of its format version, and so do its canonical bytes.
-/

namespace Generation

open Python

namespace CsvGenerationBinding

variable [Runtime]

variable {binding : CsvGenerationBinding}

theorem encode_of_fromBytes {data : Bytes} (h : fromBytes data = .ok binding) :
    binding.encode = data := by
  simp only [fromBytes, bind_eq_ok, raiseIf_eq_ok, exists_unit, not_not] at h
  obtain ⟨value, -, -, result, -, hencode, hresult⟩ := h
  cases hresult
  exact hencode

/-- Only the spelling of the version can differ between encodings of equal bindings. -/
theorem encode_eq_of_print {other : CsvGenerationBinding} (h : binding.Equal other)
    (hversion : binding.formatVersion.print = other.formatVersion.print) :
    binding.encode = other.encode := by
  have hfields : binding.toCsvBindingFields = other.toCsvBindingFields := h
  have hprinted : printFields binding.canonicalDict = printFields other.canonicalDict := by
    simp only [canonicalDict, printFields, hversion, hfields]
  rw [encode, encode, canonicalBytes, canonicalBytes, Json.print, Json.print, hprinted]

/-- **Canonical decoding.** Two byte strings that decode to equal bindings are the same if and only if
they spell the format version alike. -/
theorem fromBytes_canonical_iff {data data' : Bytes} {binding other : CsvGenerationBinding}
    (h : fromBytes data = .ok binding) (h' : fromBytes data' = .ok other)
    (hequal : binding.Equal other) :
    data = data' ↔ binding.formatVersion.print = other.formatVersion.print := by
  constructor
  · rintro rfl
    rw [h] at h'
    cases h'
    rfl
  · intro hversion
    rw [← encode_of_fromBytes h, ← encode_of_fromBytes h', encode_eq_of_print hequal hversion]

/-! ## Reading back -/

theorem nodup_canonicalDict (binding : CsvGenerationBinding) :
    (binding.canonicalDict.map Prod.fst).Nodup := by
  simp [canonicalDict, lit_inj]

theorem plain_canonicalDict (hversion : binding.formatVersion.Plain 0) :
    (Json.obj binding.canonicalDict).Plain 1 := by
  have hmax : uint32Max ≤ uint63Max := by decide
  refine plain_dict binding.nodup_canonicalDict (by simp only [canonicalDict, List.map_cons]; decide) ?_
  simp only [canonicalDict, List.forall_mem_cons]
  exact ⟨.str 0 _ (by decide), hversion, plain_name _ 0, plain_optionalRootJson _ 0, plain_rootJson _ 0,
    plain_natJson binding.sourceSize.2.2 0, plain_rootJson _ 0,
    plain_natJson (binding.chunkCount.2.2.trans hmax) 0,
    plain_natJson (binding.chunkBytes.2.2.trans hmax) 0, plain_rootJson _ 0, plain_rootJson _ 0,
    plain_rootJson _ 0, plain_natJson binding.rowCount.2.2 0, plain_rootJson _ 0,
    plain_natJson (binding.anchorCount.2.2.trans hmax) 0,
    plain_natJson (binding.anchorLimit.2.2.trans hmax) 0, plain_rootJson _ 0, plain_rootJson _ 0,
    by simp⟩

theorem init_sortedFields (hsorted : binding.formatVersion.sorted = binding.formatVersion) :
    init (sortedFields binding.canonicalDict) = .ok binding := by
  simp only [init, getItem_sortedFields binding.nodup_canonicalDict]
  simp only [getItem, canonicalDict, dictGet, lit_inj, String.reduceEq, ↓reduceIte, map_ok,
    sorted_str, sorted_optionalRootJson, sorted_rootJson, sorted_natJson, ok_bind]
  simp only [requireName_str, requireOptionalRoot_optionalRootJson, requireRoot_rootJson,
    requireInt_natJson, ok_bind, hsorted]
  rw [ofFields, dif_pos binding.chunkCount_eq, dif_pos binding.rowCount_eq_zero,
    dif_pos binding.anchorCount_eq, raiseIf_neg (by simp), ok_bind, dif_pos binding.formatVersion_eq]
  rfl

theorem canonicalObject_canonicalBytes {d : Nat} {fields : Dict} (h : (Json.obj fields).Plain d)
    (hd : d ≤ 16) (description : String) :
    canonicalObject (canonicalBytes (.obj fields)) description = .ok (sortedFields fields) := by
  have hbytes := canonicalJsonBytes_sorted h
  rw [sorted_dict] at hbytes
  rw [canonicalObject, canonicalBytes, decodeAscii_encodeAscii (printable_print h)]
  dsimp only
  rw [loads_print h hd, sorted_dict]
  dsimp only
  rw [hbytes, ok_bind, canonicalBytes, raiseIf_neg (by simp), ok_bind]
  rfl

/-- A binding whose version is `1` or `True` is read back from its bytes. -/
theorem fromBytes_encode
    (hversion : binding.formatVersion = .int 1 ∨ binding.formatVersion = .bool true) :
    fromBytes binding.encode = .ok binding := by
  have hplain : binding.formatVersion.Plain 0 ∧
      binding.formatVersion.sorted = binding.formatVersion := by
    rcases hversion with h | h
    · rw [h]
      exact ⟨.int 0 1 (by decide), rfl⟩
    · rw [h]
      exact ⟨.bool 0 true, rfl⟩
  have hkeys : sameKeys binding.canonicalDict keys = true := by
    simp [sameKeys, canonicalDict, keys, lit_inj]
  rw [fromBytes, encode, canonicalObject_canonicalBytes (plain_canonicalDict hplain.1) (by omega),
    ok_bind, sameKeys_sortedFields, hkeys, raiseIf_neg (by simp), ok_bind,
    init_sortedFields hplain.2, ok_bind, encode, raiseIf_neg (by simp), ok_bind]
  rfl

end CsvGenerationBinding

section Sample

attribute [local instance] sampleRuntime

/-- The binding of an empty source, with a version of this spelling. -/
def emptyBinding (version : Json) (h : equalsOne version = true) : CsvGenerationBinding :=
  { nameSpace := sampleManifest.nameSpace, parentGenerationRoot := none, sourceRoot := sha256 [],
    sourceSize := ⟨0, by decide⟩, chunksRoot := sha256 [], chunkCount := ⟨0, by decide⟩,
    chunkBytes := ⟨1, by decide⟩, parserRoot := sha256 [], dialectRoot := sha256 [],
    rowOffsetsRoot := sha256 [], rowCount := ⟨0, by decide⟩, rowAnchorsRoot := sha256 [],
    anchorCount := ⟨0, by decide⟩, anchorLimit := ⟨1, by decide⟩, closureRoot := sha256 [],
    evidenceRoot := sha256 [], chunkCount_eq := by decide, rowCount_eq_zero := by decide,
    anchorCount_eq := by decide, formatVersion := version, formatVersion_eq := h }

theorem fromBytes_emptyBinding_one :
    CsvGenerationBinding.fromBytes (emptyBinding (.int 1) rfl).encode =
      .ok (emptyBinding (.int 1) rfl) :=
  CsvGenerationBinding.fromBytes_encode (.inl rfl)

theorem fromBytes_emptyBinding_true :
    CsvGenerationBinding.fromBytes (emptyBinding (.bool true) rfl).encode =
      .ok (emptyBinding (.bool true) rfl) :=
  CsvGenerationBinding.fromBytes_encode (.inr rfl)

/-- The versions `1` and `true` make different bytes. -/
theorem fromBytes_canonical_iff_sample : ∃ data data' binding other,
    CsvGenerationBinding.fromBytes data = .ok binding ∧
    CsvGenerationBinding.fromBytes data' = .ok other ∧ binding.Equal other ∧
    (data = data' ↔ lit "1" = lit "true") :=
  ⟨_, _, _, _, fromBytes_emptyBinding_one, fromBytes_emptyBinding_true, rfl,
    CsvGenerationBinding.fromBytes_canonical_iff fromBytes_emptyBinding_one
      fromBytes_emptyBinding_true rfl⟩

/-- Two byte strings for equal bindings: one has the version `1`, the other the version `true`. -/
theorem fromBytes_of_true : ∃ data data' binding other,
    CsvGenerationBinding.fromBytes data = .ok binding ∧
    CsvGenerationBinding.fromBytes data' = .ok other ∧ binding.Equal other ∧ data ≠ data' := by
  refine ⟨_, _, _, _, fromBytes_emptyBinding_one, fromBytes_emptyBinding_true, rfl, fun heq => ?_⟩
  have h := fromBytes_emptyBinding_one
  rw [heq, fromBytes_emptyBinding_true, Except.ok.injEq] at h
  have hversion := congrArg CsvGenerationBinding.formatVersion h
  cases hversion

end Sample

end Generation
