import Tds.Generation.Proofs.Contract
import Tds.Python.Proofs.Sha256

/-!
# Manifests and lifecycle receipts

A manifest and its receipts are read back from their canonical bytes, and the receipts that
`build_lifecycle_chain` makes for a manifest are those that `validate_lifecycle_chain` accepts. The
canonical bytes are the only ones that `manifest_from_json` accepts, and the generation root binds
them.
-/

namespace Generation

open Python List GenerationState Json GenerationLifecycleReceipt ManifestFields GenerationManifest

/-! ## Receipts -/

theorem GenerationState.index_le (state : GenerationState) : 0 ≤ state.index ∧ state.index ≤ 4 := by
  cases state <;> decide

namespace GenerationLifecycleReceipt

theorem init_eq (generationRoot manifestRoot : Root) (state : GenerationState)
    (predecessor : Option Root) (h : predecessor.isSome = decide (0 < state.index)) :
    init (rootJson generationRoot) (rootJson manifestRoot) state (natJson state.index)
      (optionalRootJson predecessor) =
    .ok ⟨generationRoot, manifestRoot, state, state.index, predecessor, rfl, h⟩ := by
  unfold init
  simp only [requireRoot_rootJson, requireOptionalRoot_optionalRootJson, ok_bind]
  have hseq : requireInt "receipt sequence" (natJson state.index) 0
      (lifecycle.length - 1) = .ok ⟨state.index, state.index_le⟩ :=
    requireInt_natJson _ ⟨_, state.index_le⟩
  rw [hseq, ok_bind, dif_pos rfl, dif_pos h]
  rfl

variable (r : GenerationLifecycleReceipt)

theorem init_self :
    init (rootJson r.generationRoot) (rootJson r.manifestRoot) r.state (natJson r.sequence)
      (optionalRootJson r.predecessorReceiptRoot) = .ok r := by
  obtain ⟨g, m, state, sequence, predecessor, rfl, h⟩ := r
  exact init_eq g m state predecessor h

theorem nodup_canonicalDict :
    (r.canonicalDict.map Prod.fst).Nodup := by
  simp [canonicalDict, lit_inj]

theorem fromDict_sortedFields :
    fromDict (sortedFields r.canonicalDict) = .ok r := by
  have hkeys : sameKeys r.canonicalDict ["contract_id", "generation_root", "manifest_root", "state",
      "sequence", "predecessor_receipt_root"] = true := by
    simp [sameKeys, canonicalDict, lit_inj]
  unfold fromDict
  rw [sameKeys_sortedFields, hkeys]
  simp only [getItem_sortedFields r.nodup_canonicalDict]
  simp [getItem, dictGet, canonicalDict, lit_inj, ofJson_value, init_self]

theorem sequence_le : r.sequence ≤ uint63Max := by
  have := r.state.index_le
  rw [r.sequence_eq]
  exact this.2.trans (by decide)

theorem plain_canonicalDict :
    (obj r.canonicalDict).Plain 1 := by
  refine plain_dict r.nodup_canonicalDict (by simp only [canonicalDict, map_cons]; decide) ?_
  simp only [canonicalDict, forall_mem_cons]
  exact ⟨.str 0 _ (by decide), plain_rootJson _ 0, plain_rootJson _ 0,
    .str 0 _ (by cases r.state <;> decide), plain_natJson r.sequence_le 0,
    plain_optionalRootJson _ 0, by simp⟩

theorem length_encode_lt [Runtime] (r : GenerationLifecycleReceipt) : r.encode.length < 1000 := by
  rw [encode, length_canonicalBytes, length_print_obj]
  have h1 := length_print_natJson r.sequence_le
  have h2 := length_print_rootJson r.generationRoot
  have h3 := length_print_rootJson r.manifestRoot
  have h4 := length_print_optionalRootJson r.predecessorReceiptRoot
  have h5 : (str r.state.value).print.length ≤ 11 := by
    rw [print]
    cases r.state <;> decide
  have h6 : (str generationContractId).print.length = 29 := by rw [print]; decide
  simp only [canonicalDict, map_cons, map_nil, sum_cons, sum_nil,
    length_cons, length_nil, h2, h3, h6]
  have hk : (quote (lit "contract_id")).length + (quote (lit "generation_root")).length +
      (quote (lit "manifest_root")).length + (quote (lit "state")).length +
      (quote (lit "sequence")).length +
      (quote (lit "predecessor_receipt_root")).length = 88 := by decide
  omega

end GenerationLifecycleReceipt

section Chain

variable [Runtime] (generationRoot manifestRoot : Root)

def receiptAfter (state : GenerationState) (h : 0 < state.index)
    (predecessor : Root) : GenerationLifecycleReceipt :=
  ⟨generationRoot, manifestRoot, state, state.index, some predecessor, rfl, by simp [h]⟩

def lifecycleReceipt : GenerationState → GenerationLifecycleReceipt :=
  let staging := ⟨generationRoot, manifestRoot, .staging, 0, none, rfl, rfl⟩
  let after := receiptAfter generationRoot manifestRoot
  let sealed := after .sealed (by decide) staging.receiptRoot
  let verified := after .verified (by decide) sealed.receiptRoot
  let published := after .published (by decide) verified.receiptRoot
  let retired := after .retired (by decide) published.receiptRoot
  fun
    | .staging => staging
    | .sealed => sealed
    | .verified => verified
    | .published => published
    | .retired => retired

theorem buildReceipts_eq :
    buildReceipts generationRoot manifestRoot none publishedStates =
      .ok (publishedStates.map
        (lifecycleReceipt generationRoot manifestRoot)) := by
  simp only [publishedStates, buildReceipts, init_eq generationRoot manifestRoot .staging
    none rfl, init_eq generationRoot manifestRoot .sealed (some _) rfl,
    init_eq generationRoot manifestRoot .verified (some _) rfl,
    init_eq generationRoot manifestRoot .published (some _) rfl, ok_bind]
  rfl

theorem validateReceipts_eq :
    validateReceipts generationRoot manifestRoot none publishedStates
      (publishedStates.map
        (lifecycleReceipt generationRoot manifestRoot)) = .ok () := by
  simp only [publishedStates, map_cons, map_nil, validateReceipts, lifecycleReceipt, receiptAfter,
    index, ne_eq, not_true_eq_false, or_self, if_false]

end Chain

namespace GenerationManifest

variable [Runtime]

/-- The receipt of a state in the lifecycle of the manifest's generation. -/
def receipt (m : GenerationManifest) (state : GenerationState) : GenerationLifecycleReceipt :=
  lifecycleReceipt m.generationRoot m.manifestRoot state

theorem buildLifecycleChain_eq (m : GenerationManifest) :
    buildLifecycleChain m .published =
      .ok (publishedStates.map m.receipt) :=
  buildReceipts_eq _ _

theorem validateLifecycleChain_eq (m : GenerationManifest) :
    validateLifecycleChain m (publishedStates.map m.receipt)
      .published = .ok (m.receipt .published) := by
  have h := validateReceipts_eq m.generationRoot m.manifestRoot
  unfold validateLifecycleChain
  dsimp only
  rw [raiseIf_neg (by simp [publishedStates, lifecycle,
    index]), ok_bind]
  show (validateReceipts _ _ none publishedStates
    (publishedStates.map _) >>= _) = _
  rw [show m.receipt = lifecycleReceipt _ _ from rfl, h]
  rfl

end GenerationManifest

/-! ## The parts of a manifest -/

variable (payload : GenerationPayload)

theorem GenerationPayload.nodup_canonicalDict :
    (payload.canonicalDict.map Prod.fst).Nodup := by
  simp [canonicalDict, lit_inj]

theorem GenerationPayload.fromDict_sorted :
    fromDict (obj payload.canonicalDict).sorted = .ok payload := by
  have hkeys : sameKeys payload.canonicalDict ["name", "media_type", "size", "content_root",
      "authoritative"] = true := by
    simp [sameKeys, canonicalDict, lit_inj]
  unfold fromDict requireDict
  rw [sorted_dict]
  dsimp only
  rw [sameKeys_sortedFields, hkeys]
  simp only [if_true, ok_bind, getItem_sortedFields payload.nodup_canonicalDict]
  simp [getItem, dictGet, canonicalDict, lit_inj, init, requireName_str, requireInt_natJson,
    requireRoot_rootJson]

theorem GenerationPayload.plain_canonicalDict :
    (obj payload.canonicalDict).Plain 1 := by
  refine plain_dict payload.nodup_canonicalDict
    (by simp only [canonicalDict, map_cons]; decide) ?_
  simp only [canonicalDict, forall_mem_cons]
  exact ⟨plain_name _ 0, plain_name _ 0, plain_natJson payload.size.2.2 0, plain_rootJson _ 0,
    .bool 0 _, by simp⟩

variable (qualification : QualificationRoot)

theorem QualificationRoot.nodup_canonicalDict :
    (qualification.canonicalDict.map Prod.fst).Nodup := by
  simp [canonicalDict, lit_inj]

theorem QualificationRoot.fromDict_sorted :
    fromDict (obj qualification.canonicalDict).sorted = .ok qualification := by
  have hkeys : sameKeys qualification.canonicalDict ["name", "evidence_root"] = true := by
    simp [sameKeys, canonicalDict, lit_inj]
  unfold fromDict requireDict
  rw [sorted_dict]
  dsimp only
  rw [sameKeys_sortedFields, hkeys]
  simp only [if_true, ok_bind, getItem_sortedFields qualification.nodup_canonicalDict]
  simp [getItem, dictGet, canonicalDict, lit_inj, init, requireName_str, requireRoot_rootJson]

theorem QualificationRoot.plain_canonicalDict :
    (obj qualification.canonicalDict).Plain 1 := by
  refine plain_dict qualification.nodup_canonicalDict
    (by simp only [canonicalDict, map_cons]; decide) ?_
  simp only [canonicalDict, forall_mem_cons]
  exact ⟨plain_name _ 0, plain_rootJson _ 0, by simp⟩

namespace QualifiedGenerationLimits

variable (limits : QualifiedGenerationLimits)

theorem init_self :
    init (natJson limits.maxPayloads) (natJson limits.maxPayloadBytes)
      (natJson limits.maxSinglePayloadBytes) (natJson limits.maxQualificationRoots)
      (natJson limits.maxMetadataEntries) (natJson limits.maxManifestBytes)
      (natJson limits.maxPublicationRecords) (natJson limits.maxReaderPins) = .ok limits := by
  unfold init
  simp only [requireInt_natJson, ok_bind]
  rw [requireInt_natJson _ ⟨_, limits.maxSinglePayloadBytes.2.1, limits.single_le⟩, ok_bind]
  rfl

theorem nodup_canonicalDict :
    (limits.canonicalDict.map Prod.fst).Nodup := by
  simp [canonicalDict, lit_inj]

theorem ofKeywords_sortedFields :
    ofKeywords (sortedFields limits.canonicalDict) = .ok limits := by
  have hkeys : (sortedFields limits.canonicalDict).all
      (fun kv => (defaults.map Prod.fst).contains kv.1) = true := by
    rw [all_eq_true]
    intro kv hkv
    obtain ⟨kv', hkv', rfl⟩ := mem_map.mp hkv
    have hmem := mem_sortByKey.mp hkv'
    have hall : limits.canonicalDict.all (fun kv => (defaults.map Prod.fst).contains kv.1) = true := by
      simp [canonicalDict, defaults, lit_inj]
    exact all_eq_true.mp hall kv' hmem
  unfold ofKeywords
  dsimp only
  rw [if_pos hkeys]
  simp only [dictGet_sortedFields limits.nodup_canonicalDict]
  simp [dictGet, canonicalDict, lit_inj, init_self]

theorem plain_canonicalDict (d : Nat) :
    (obj limits.canonicalDict).Plain (d + 1) := by
  have hle : ∀ {lo hi : Nat} (n : Bounded lo hi), hi ≤ uint63Max → (natJson n).Plain d :=
    fun n h => plain_natJson (n.2.2.trans h) d
  refine plain_dict limits.nodup_canonicalDict
    (by simp only [canonicalDict, map_cons]; decide) ?_
  simp only [canonicalDict, forall_mem_cons]
  exact ⟨hle _ (by decide), hle _ le_rfl, hle _ le_rfl, hle _ (by decide), hle _ (by decide),
    hle _ (by decide), hle _ le_rfl, hle _ (by decide), by simp⟩

end QualifiedGenerationLimits

/-! ## Whole manifests -/

theorem isScalar_of_checkMetadataValue {value : Str} (h : checkMetadataValue value = .ok ()) :
    ∀ c ∈ value, isScalar c = true := by
  unfold checkMetadataValue at h
  split at h
  · cases h
  · unfold encodeUtf8 at h
    split at h
    · cases h
    · rename_i hsome
      split at hsome
      · rename_i hall
        exact all_eq_true.mp hall
      · cases hsome

namespace GenerationManifest

variable [Runtime]

variable (m : GenerationManifest)

theorem valid_parts : m.payloads ≠ [] ∧
    checkPayloadOrder m.payloads = .ok () ∧
    checkQualificationOrder m.qualifications = .ok () ∧
    ∀ entry ∈ m.metadata, checkMetadataValue entry.2 = .ok () := by
  have h := m.valid
  simp only [postInit, bind_eq_ok, raiseIf_eq_ok, exists_unit, forM_eq_ok] at h
  obtain ⟨hpayloads, horder, hqualifications, hmetadata, -⟩ := h
  exact ⟨hpayloads, horder, hqualifications, hmetadata⟩

theorem init_self :
    init (.str m.nameSpace) (optionalRootJson m.parentGenerationRoot) m.payloads m.qualifications
      (m.metadata.map fun entry => (.str entry.1, .str entry.2)) m.limits
      (natJson generationFormatVersion) (.str generationContractId) = .ok m := by
  obtain ⟨hpayloads, horder, hqualifications, hmetadata⟩ := m.valid_parts
  have hmeta : (m.metadata.map fun entry => (str entry.1, str entry.2)).mapM initEntry =
      .ok m.metadata := by
    refine mapM_map_eq fun entry he => ?_
    rw [initEntry, requireName_str, ok_bind, hmetadata entry he]
    rfl
  have hversion : checkFormatVersion (natJson generationFormatVersion) = .ok () :=
    raiseIf_neg (by simp) _
  unfold init
  rw [requireName_str, ok_bind, requireOptionalRoot_optionalRootJson, ok_bind, hversion, ok_bind,
    checkContractId_self, ok_bind, raiseIf_neg hpayloads, ok_bind, horder, ok_bind, hqualifications,
    ok_bind, hmeta, ok_bind]
  dsimp only
  split
  · rfl
  · rename_i e he
    exact absurd (m.valid.symm.trans he) (by simp)

theorem nodup_canonicalDict : (m.canonicalDict.map Prod.fst).Nodup := by
  simp [ManifestFields.canonicalDict, lit_inj]

theorem fromDict_sortedFields :
    fromDict (sortedFields m.canonicalDict) = .ok m := by
  have hkeys : sameKeys m.canonicalDict ["contract_id", "format_version", "namespace",
      "parent_generation_root", "payloads", "qualifications", "metadata", "limits"] = true := by
    simp [sameKeys, ManifestFields.canonicalDict, lit_inj]
  have hpayloads : ((m.payloads.map fun item => Json.obj item.canonicalDict).map Json.sorted).mapM
      GenerationPayload.fromDict = .ok m.payloads := by
    rw [map_map]
    exact mapM_map_eq fun payload _ => payload.fromDict_sorted
  have hqualifications : ((m.qualifications.map fun item =>
      Json.obj item.canonicalDict).map Json.sorted).mapM QualificationRoot.fromDict =
      .ok m.qualifications := by
    rw [map_map]
    exact mapM_map_eq fun qualification _ => qualification.fromDict_sorted
  have hmeta : ((m.metadata.map fun entry => Json.arr [.str entry.1, .str entry.2]).map
      Json.sorted).mapM entryItems = .ok (m.metadata.map fun entry => (.str entry.1, .str entry.2)) := by
    rw [map_map]
    induction m.metadata with
    | nil => rfl
    | cons entry entries ih =>
      rw [map_cons, mapM_cons, ih]
      rfl
  have hlimits : requireLimits (Json.obj m.limits.canonicalDict).sorted = .ok m.limits := by
    rw [sorted_dict]
    exact m.limits.ofKeywords_sortedFields
  unfold fromDict
  rw [sameKeys_sortedFields, hkeys]
  simp only [getItem_sortedFields m.nodup_canonicalDict]
  simp only [getItem, dictGet, ManifestFields.canonicalDict, lit_inj]
  simp only [String.reduceEq, if_true, if_false, map_ok, ok_bind, raiseIf_False, hlimits,
    sorted_arr, requireList, hpayloads, hqualifications, hmeta, sorted_str, sorted_natJson,
    sorted_optionalRootJson, init_self, Bool.true_eq_false]

theorem plain_canonicalDict : (obj m.canonicalDict).Plain 3 := by
  refine plain_dict m.nodup_canonicalDict
    (by simp only [ManifestFields.canonicalDict, map_cons]; decide) ?_
  simp only [ManifestFields.canonicalDict, forall_mem_cons]
  refine ⟨.str 2 _ (by decide), plain_natJson (by decide) 2, plain_name _ 2,
    plain_optionalRootJson _ 2, .arr 1 _ ?_, .arr 1 _ ?_, .arr 1 _ ?_,
    m.limits.plain_canonicalDict 1, by simp⟩
  · intro v hv
    obtain ⟨payload, -, rfl⟩ := mem_map.mp hv
    exact payload.plain_canonicalDict
  · intro v hv
    obtain ⟨qualification, -, rfl⟩ := mem_map.mp hv
    exact qualification.plain_canonicalDict
  · intro v hv
    obtain ⟨entry, he, rfl⟩ := mem_map.mp hv
    refine .arr 0 _ ?_
    simp only [forall_mem_cons]
    exact ⟨plain_name _ 0,
      .str 0 _ (isScalar_of_checkMetadataValue (m.valid_parts.2.2.2 entry he)), by simp⟩

end GenerationManifest

theorem manifestFromJson_encode [Runtime] (m : GenerationManifest) :
    manifestFromJson m.encode = .ok m := by
  unfold manifestFromJson
  rw [ManifestFields.encode, loadJson_canonicalBytes m.plain_canonicalDict (by omega), ok_bind,
    sorted_dict]
  simp [GenerationManifest.fromDict_sortedFields, ManifestFields.encode]

/-! ## Canonical bytes and roots -/

theorem rootJson_injective {root root' : Root} (h : rootJson root = rootJson root') :
    root = root' := by
  have hparse := parseRoot_rootText root
  rw [str.inj h, parseRoot_rootText] at hparse
  exact (Option.some.inj hparse).symm

section Canonical

variable [Runtime]

variable {m m' : GenerationManifest}

theorem GenerationManifest.encode_injective (h : m.encode = m'.encode) : m = m' := by
  have hm := manifestFromJson_encode m
  rw [h, manifestFromJson_encode] at hm
  exact (Except.ok.inj hm).symm

theorem encode_of_manifestFromJson {data : Bytes} (h : manifestFromJson data = .ok m) :
    m.encode = data := by
  unfold manifestFromJson at h
  rw [bind_eq_ok] at h
  obtain ⟨value, -, h⟩ := h
  split at h
  · simp only [bind_eq_ok, raiseIf_eq_ok, not_not] at h
    obtain ⟨m', -, _, hcanonical, hm⟩ := h
    rwa [Except.ok.inj hm] at hcanonical
  · cases h

def ManifestFields.generationDict (manifest : ManifestFields) : Dict :=
  [(lit "manifest_root", rootJson manifest.manifestRoot),
    (lit "namespace", .str manifest.nameSpace),
    (lit "parent_generation_root", optionalRootJson manifest.parentGenerationRoot),
    (lit "payload_roots", .arr (manifest.payloads.map fun item => rootJson item.payloadRoot)),
    (lit "qualification_roots",
      .arr (manifest.qualifications.map fun item => rootJson item.qualificationRoot))]

namespace GenerationManifest

/-- What is hashed for the manifest root and for the generation root. -/
def rootPreimages (m : GenerationManifest) : Set Bytes :=
  {rootPreimage "manifest" m.encode,
    rootPreimage "generation" (canonicalBytes (.obj m.generationDict))}

theorem nodup_generationDict (m : GenerationManifest) :
    (m.generationDict.map Prod.fst).Nodup := by
  simp [generationDict, lit_inj]

theorem plain_generationDict (m : GenerationManifest) : (obj m.generationDict).Plain 2 := by
  refine plain_dict m.nodup_generationDict
    (by simp only [generationDict, map_cons]; decide) ?_
  simp only [generationDict, forall_mem_cons]
  refine ⟨plain_rootJson _ 1, plain_name _ 1, plain_optionalRootJson _ 1, .arr 0 _ ?_,
    .arr 0 _ ?_, by simp⟩
  · intro v hv
    obtain ⟨payload, -, rfl⟩ := mem_map.mp hv
    exact plain_rootJson _ 0
  · intro v hv
    obtain ⟨qualification, -, rfl⟩ := mem_map.mp hv
    exact plain_rootJson _ 0

theorem manifestRoot_eq_of_generationDict
    (h : canonicalBytes (.obj m.generationDict) = canonicalBytes (.obj m'.generationDict)) :
    m.manifestRoot = m'.manifestRoot := by
  have hload := loadJson_canonicalBytes m.plain_generationDict (by omega) (.builtin .valueError)
  have hload' := loadJson_canonicalBytes m'.plain_generationDict (by omega) (.builtin .valueError)
  rw [h, hload', Except.ok.injEq, sorted_dict, sorted_dict, obj.injEq] at hload
  have hitem := getItem_sortedFields m.nodup_generationDict "manifest_root"
  rw [← hload, getItem_sortedFields m'.nodup_generationDict] at hitem
  simp only [getItem, dictGet, generationDict, if_true, map_ok, sorted_rootJson,
    Except.ok.injEq] at hitem
  exact (rootJson_injective hitem).symm

theorem generationRoot_injective (hsha : Set.InjOn sha256 (m.rootPreimages ∪ m'.rootPreimages))
    (h : m.generationRoot = m'.generationRoot) : m = m' := by
  have hgeneration : canonicalBytes (.obj m.generationDict) =
      canonicalBytes (.obj m'.generationDict) :=
    append_cancel_left (hsha (.inl (.inr rfl)) (.inr (.inr rfl)) h)
  have hmanifest := manifestRoot_eq_of_generationDict hgeneration
  exact encode_injective
    (append_cancel_left (hsha (.inl (.inl rfl)) (.inr (.inl rfl)) hmanifest))

end GenerationManifest

/-- `manifest_from_json` inverts the canonical encoding and accepts nothing else, so that manifests
with the same canonical bytes are equal; without a collision among what is hashed for their roots,
so are manifests with the same generation root. -/
theorem manifest_encoding_canonical :
    (∀ m : GenerationManifest, manifestFromJson m.encode = .ok m) ∧
    (∀ (data : Bytes) (m : GenerationManifest), manifestFromJson data = .ok m → m.encode = data) ∧
    (∀ m m' : GenerationManifest, m.encode = m'.encode → m = m') ∧
    ∀ m m' : GenerationManifest, Set.InjOn sha256 (m.rootPreimages ∪ m'.rootPreimages) →
      m.generationRoot = m'.generationRoot → m = m' :=
  ⟨manifestFromJson_encode, fun _ _ => encode_of_manifestFromJson,
    fun _ _ => encode_injective,
    fun _ _ => generationRoot_injective⟩

end Canonical

section Sample

/-- A function is injective on a set whose members are listed with distinct values. -/
theorem injOn_of_nodup_map {α β : Type} {f : α → β} {s : Set α} {l : List α}
    (hl : (l.map f).Nodup) (hs : ∀ a ∈ s, a ∈ l) : Set.InjOn f s :=
  fun _ ha _ hb h => inj_on_of_nodup_map hl (hs _ ha) (hs _ hb) h

@[reducible] def sampleRuntime : Runtime := ⟨Sha256.sha256, id, 1000, sixteen_le⟩

attribute [local instance] sampleRuntime

def sampleManifest : GenerationManifest where
  nameSpace := ⟨lit "csv", by decide⟩
  parentGenerationRoot := none
  payloads := [⟨⟨lit "source", by decide⟩, ⟨lit "text", by decide⟩, ⟨3, by decide⟩,
    bytesRoot [97, 98, 99], true⟩]
  qualifications := []
  metadata := []
  limits := .default
  valid := by decide +kernel

def sampleChild : GenerationManifest where
  toManifestFields := { sampleManifest.toManifestFields with
    parentGenerationRoot := some (bytesRoot []) }
  valid := by decide +kernel

def sampleFields : ManifestFields := sampleManifest.toManifestFields

def childFields : ManifestFields := sampleChild.toManifestFields

/-- A hash that is equal but computes its words at once. -/
@[reducible] def strictRuntime : Runtime := ⟨Sha256.strictSha256, id, 1000, sixteen_le⟩

theorem sampleRuntime_eq_strict : sampleRuntime = strictRuntime := by
  rw [strictRuntime, Sha256.strictSha256_eq]

theorem nodup_preimages {runtime : Runtime} (h : runtime = strictRuntime) :
    (([sampleFields, childFields].flatMap fun m => [rootPreimage "manifest" m.encode,
      rootPreimage "generation" (canonicalBytes (.obj m.generationDict))]).map sha256).Nodup := by
  subst h
  decide +kernel

theorem manifest_encoding_canonical_sample :
    manifestFromJson sampleChild.encode = .ok sampleChild ∧
      sampleManifest.encode ≠ sampleChild.encode ∧
      sampleManifest.generationRoot ≠ sampleChild.generationRoot := by
  have hne : sampleManifest ≠ sampleChild := by
    intro h
    exact absurd (congrArg (·.parentGenerationRoot) h) (by decide +kernel)
  have hsha : Set.InjOn sha256 (sampleManifest.rootPreimages ∪ sampleChild.rootPreimages) := by
    refine injOn_of_nodup_map (nodup_preimages sampleRuntime_eq_strict) ?_
    rintro data ((rfl | rfl) | (rfl | rfl)) <;> simp [sampleFields, childFields]
  obtain ⟨hread, -, hencode, hroot⟩ := manifest_encoding_canonical
  exact ⟨hread _, fun h => hne (hencode _ _ h), fun h => hne (hroot _ _ hsha h)⟩

end Sample

end Generation
