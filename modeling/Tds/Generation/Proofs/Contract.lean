import Tds.Generation.Contract
import Tds.Python.Proofs.JsonDict

/-!
# Records read back

Every record of the contract is read back from its canonical bytes (`publicationRecordFromJson_encode`,
`manifestFromJson_encode` and the like), so distinct records have distinct bytes.
-/

namespace Generation

open Python List Json GenerationPublicationRecord

/-! ## Roots, names and integers -/

theorem stripWord_append (word rest : Str) : stripWord word (word ++ rest) = some rest := by
  induction word with
  | nil => cases rest <;> rfl
  | cons c word ih => rw [cons_append, stripWord, if_pos rfl, ih]

variable (root : Root)

theorem parseRoot_rootText : parseRoot (rootText root) = some root := by
  unfold parseRoot rootText
  rw [stripWord_append]
  simp only [Digest.hex, bytesOfHex_hexOfBytes, bind, Option.bind]
  rw [dif_pos root.length_eq]

theorem requireRoot_rootJson (name : String) (root : Root) :
    requireRoot name (rootJson root) = .ok root := by
  unfold requireRoot rootJson
  dsimp only
  rw [parseRoot_rootText]

theorem requireOptionalRoot_optionalRootJson (name : String) (root : Option Root) :
    requireOptionalRoot name (optionalRootJson root) = .ok root := by
  cases root with
  | none => rfl
  | some root =>
    show (requireRoot name (rootJson root)).map some = _
    rw [requireRoot_rootJson]
    rfl

theorem requireName_str (label : String) (name : Name) :
    requireName label (.str name.val) = .ok name := by
  unfold requireName
  dsimp only
  rw [dif_pos name.2]

variable {v value : Json} {d n : Nat} {α : Type} {s : Str} {c : Prop}

theorem requireInt_natJson (label : String) {minimum maximum : Nat} (n : Bounded minimum maximum) :
    requireInt label (natJson n) minimum maximum = .ok n := by
  unfold requireInt natJson
  dsimp only
  rw [dif_pos ⟨by exact_mod_cast n.2.1, by exact_mod_cast n.2.2⟩]
  rfl

/-! ## What the checks of single fields accept -/

theorem eq_append_of_stripWord {word rest : Str} (h : stripWord word s = some rest) :
    s = word ++ rest := by
  induction word generalizing s with
  | nil =>
    cases s with
    | nil => exact Option.some.inj h
    | cons c s => exact Option.some.inj h
  | cons c word ih =>
    cases s with
    | nil => cases h
    | cons d s =>
      rw [stripWord] at h
      split at h
      · next heq => rw [ih h, heq, cons_append]
      · cases h

theorem eq_of_parseRoot {root : Root} (h : parseRoot s = some root) : s = rootText root := by
  rw [parseRoot] at h
  simp only [bind, Option.bind_eq_some_iff] at h
  obtain ⟨hex, hstrip, bytes, hbytes, hroot⟩ := h
  split at hroot
  · cases hroot
    rw [eq_append_of_stripWord hstrip, rootText, Digest.hex, hexOfBytes_of_bytesOfHex hbytes]
  · cases hroot

theorem requireRoot_eq_ok {name : String} {root : Root} :
    requireRoot name value = .ok root ↔ value = rootJson root := by
  constructor
  · intro h
    rw [requireRoot.eq_def] at h
    split at h
    · split at h
      · next hparse =>
        cases h
        rw [eq_of_parseRoot hparse, rootJson]
      · cases h
    · cases h
  · rintro rfl
    exact requireRoot_rootJson name root

theorem requireName_eq_ok {label : String} {name : Name} :
    requireName label value = .ok name ↔ value = .str name.val := by
  constructor
  · intro h
    rw [requireName.eq_def] at h
    split at h
    · split at h
      · cases h
        rfl
      · cases h
    · cases h
  · rintro rfl
    exact requireName_str label name

theorem requireInt_eq_ok {label : String} {minimum maximum : Nat} {n : Bounded minimum maximum} :
    requireInt label value minimum maximum = .ok n ↔ value = natJson n.val := by
  constructor
  · intro h
    rw [requireInt.eq_def] at h
    split at h
    · split at h
      · next i hi =>
        cases h
        have hi' : ((i.toNat : Nat) : Int) = i := Int.toNat_of_nonneg (by omega)
        exact congrArg int hi'.symm
      · cases h
    · cases h
  · rintro rfl
    exact requireInt_natJson label n

/-! ## Computations that may raise -/

@[simp] theorem raiseIf_eq_ok [Decidable c] {e : Error} {u : Unit} : raiseIf c e = .ok u ↔ ¬ c := by
  unfold raiseIf
  split <;> simp_all

theorem raisesOnly_raiseIf {P : Error → Prop} [Decidable c] {e : Error} :
    RaisesOnly P (raiseIf c e) ↔ (c → P e) := by
  unfold raiseIf
  split <;> simp_all

theorem raiseIf_neg [Decidable c] (h : ¬ c) (e : Error) : raiseIf c e = .ok () :=
  if_neg h

theorem mem_map_lit_of_sameKeys {value : Dict} {expected : List String}
    (h : sameKeys value expected = true) : ∀ k ∈ value.map Prod.fst, k ∈ expected.map lit := by
  rw [sameKeys, Bool.and_eq_true, all_eq_true] at h
  intro k hk
  obtain ⟨kv, hkv, rfl⟩ := mem_map.mp hk
  exact contains_iff_mem.mp (h.1 kv hkv)

theorem getItem_eq_ok {value : Dict} {key : String} :
    getItem value key = .ok v ↔ dictGet value (lit key) = some v := by
  rw [getItem]
  cases dictGet value (lit key) with
  | none => simp
  | some v' => simp

theorem exists_getItem_of_sameKeys {value : Dict} {expected : List String}
    (h : sameKeys value expected = true) {key : String} (hkey : key ∈ expected) :
    ∃ v, getItem value key = .ok v := by
  rw [sameKeys, Bool.and_eq_true, all_eq_true, all_eq_true] at h
  obtain ⟨v, hv⟩ := exists_dictGet (contains_iff_mem.mp (h.2 key hkey))
  exact ⟨v, getItem_eq_ok.mpr hv⟩

theorem checkContractId_eq_ok {message : String} :
    checkContractId value message = .ok () ↔ value = .str generationContractId := by
  rw [checkContractId.eq_def]
  split
  · simp
  · next hne =>
    refine iff_of_false (by simp) ?_
    rintro rfl
    exact hne _ rfl

section Raises

variable {P : Error → Prop} (hcontract : ∀ message fault, P (.contract message fault))
include hcontract

theorem raisesOnly_requireName (name : String) (value : Json) :
    RaisesOnly P (requireName name value) := by
  rw [requireName.eq_def]
  split
  · split
    · exact raisesOnly_ok _
    · exact raisesOnly_error.mpr (hcontract _ _)
  · exact raisesOnly_error.mpr (hcontract _ _)

theorem raisesOnly_requireInt (name : String) (value : Json) (minimum maximum : Nat) :
    RaisesOnly P (requireInt name value minimum maximum) := by
  rw [requireInt.eq_def]
  split
  · split
    · exact raisesOnly_ok _
    · exact raisesOnly_error.mpr (hcontract _ _)
  · exact raisesOnly_error.mpr (hcontract _ _)

theorem raisesOnly_requireRoot (name : String) (value : Json) :
    RaisesOnly P (requireRoot name value) := by
  rw [requireRoot.eq_def]
  split
  · split
    · exact raisesOnly_ok _
    · exact raisesOnly_error.mpr (hcontract _ _)
  · exact raisesOnly_error.mpr (hcontract _ _)

variable (value : Json)

theorem raisesOnly_checkContractId (message : String) :
    RaisesOnly P (checkContractId value message) := by
  rw [checkContractId.eq_def]
  split
  · exact raisesOnly_raiseIf.mpr fun _ => hcontract _ _
  · exact raisesOnly_error.mpr (hcontract _ _)

end Raises

theorem raisesOnly_getItem {P : Error → Prop} (hkey : P (.builtin .keyError)) (value : Dict)
    (key : String) : RaisesOnly P (getItem value key) := by
  rw [getItem]
  split
  · exact raisesOnly_ok _
  · exact raisesOnly_error.mpr hkey

@[simp] theorem raiseIf_False [Decidable False] (e : Error) : raiseIf False e = .ok () :=
  raiseIf_neg id e

@[simp] theorem checkContractId_self (message : String) :
    checkContractId (.str generationContractId) message = .ok () :=
  raiseIf_neg (by simp) _

/-! ## Objects with sorted keys -/

/-- The fields of an object that was written and read: sorted, as are the objects inside. -/
def sortedFields (d : Dict) : Dict := (sortByKey d).map fun kv => (kv.1, kv.2.sorted)

theorem sorted_dict (d : Dict) : (obj d).sorted = .obj (sortedFields d) := sorted_obj d

@[simp] theorem sorted_str (s : Str) : (Json.str s).sorted = .str s := rfl

@[simp] theorem sorted_bool (b : Bool) : (Json.bool b).sorted = .bool b := rfl

@[simp] theorem sorted_natJson (n : Nat) : (natJson n).sorted = natJson n := by
  simp only [natJson, Json.sorted]

@[simp] theorem sorted_rootJson (root : Root) : (rootJson root).sorted = rootJson root := by
  simp only [rootJson, Json.sorted]

@[simp] theorem sorted_optionalRootJson (root : Option Root) :
    (optionalRootJson root).sorted = optionalRootJson root := by
  cases root <;> rfl

theorem dictGet_eq_of_perm {d d' : List (Str × α)} (h : d.Perm d') (hnd : (d.map Prod.fst).Nodup)
    (key : Str) : dictGet d key = dictGet d' key := by
  induction h with
  | nil => rfl
  | cons kv _ ih =>
    rw [map_cons, nodup_cons] at hnd
    rw [dictGet, dictGet, ih hnd.2]
  | swap kv kv' d =>
    simp only [map_cons, nodup_cons, mem_cons, not_or] at hnd
    obtain ⟨k, v⟩ := kv
    obtain ⟨k', v'⟩ := kv'
    have hne : k' ≠ k := hnd.1.1
    simp only [dictGet]
    by_cases h1 : k = key
    · rw [if_pos h1, if_pos h1, if_neg (h1 ▸ hne)]
    · rw [if_neg h1, if_neg h1]
  | trans h1 _ ih1 ih2 =>
    rw [ih1 hnd, ih2 (((h1.map Prod.fst).nodup_iff).mp hnd)]

theorem dictGet_map {β : Type} (f : α → β) (d : List (Str × α)) (key : Str) :
    dictGet (d.map fun kv => (kv.1, f kv.2)) key = (dictGet d key).map f := by
  induction d with
  | nil => rfl
  | cons kv d ih =>
    rw [map_cons, dictGet, dictGet]
    split
    · rfl
    · exact ih

theorem dictGet_sortedFields {d : Dict} (hnd : (d.map Prod.fst).Nodup) (key : Str) :
    dictGet (sortedFields d) key = (dictGet d key).map sorted := by
  rw [sortedFields, dictGet_map, dictGet_eq_of_perm (perm_sortByKey d).symm hnd]

theorem getItem_sortedFields {d : Dict} (hnd : (d.map Prod.fst).Nodup) (key : String) :
    getItem (sortedFields d) key = (getItem d key).map sorted := by
  rw [getItem, getItem, dictGet_sortedFields hnd]
  cases dictGet d (lit key) <;> rfl

theorem sameKeys_sortedFields (d : Dict) (expected : List String) :
    sameKeys (sortedFields d) expected = sameKeys d expected := by
  have hperm : ((sortedFields d).map Prod.fst).Perm (d.map Prod.fst) := by
    rw [sortedFields, map_map]
    exact (perm_sortByKey d).map _
  have hall : ∀ (e : Dict) (f : Str → Bool), e.all (fun kv => f kv.1) = (e.map Prod.fst).all f := by
    intro e f
    rw [all_map]
    rfl
  unfold sameKeys
  rw [hall, hall, hperm.all_eq]
  congr 1
  refine all_congr rfl fun k => ?_
  rw [Bool.eq_iff_iff, contains_iff_mem, contains_iff_mem]
  exact hperm.mem_iff

theorem mapM_map_eq {β : Type} {f : α → β} {g : β → Check α} {l : List α}
    (h : ∀ a ∈ l, g (f a) = .ok a) : (l.map f).mapM g = .ok l := by
  induction l with
  | nil => rfl
  | cons a l ih =>
    rw [map_cons, mapM_cons, h a (mem_cons_self ..),
      ih fun b hb => h b (mem_cons_of_mem _ hb)]
    rfl

/-! ## Plain values -/

theorem plain_natJson (h : n ≤ uint63Max) (d : Nat) : (natJson n).Plain d := by
  refine .int d n ?_
  have hlen : (printNat n).length ≤ 19 :=
    length_printNat_le (lt_of_le_of_lt h (by decide)) (by omega)
  exact hlen.trans (by decide)

theorem isNameChar_bounds {c : Nat} (h : isNameChar c = true) :
    45 ≤ c ∧ c ≤ 122 ∧ c ≠ 92 := by
  simp only [isNameChar, isNameStart, isDigit, Bool.or_eq_true, Bool.and_eq_true,
    decide_eq_true_eq, beq_iff_eq] at h
  omega

theorem isNameChar_of_mem (hs : isName s = true) : ∀ c ∈ s, isNameChar c = true := by
  cases s with
  | nil => simp
  | cons c t =>
    simp only [isName, Bool.and_eq_true, all_eq_true] at hs
    intro x hx
    cases mem_cons.mp hx with
    | inl h => rw [h, isNameChar, hs.1.1]; rfl
    | inr h => exact hs.1.2 x h

theorem plain_name (name : Name) (d : Nat) : (str name.val).Plain d := by
  refine .str d _ fun c hc => isScalar_of_lt ?_
  have := isNameChar_bounds (isNameChar_of_mem name.2 c hc)
  omega

theorem rootText_bounds : ∀ c ∈ rootText root, 35 ≤ c ∧ c ≤ 122 ∧ c ≠ 92 := by
  intro c hc
  have hpre : ∀ c ∈ lit "sha256:", 35 ≤ c ∧ c ≤ 122 ∧ c ≠ 92 := by decide
  cases mem_append.mp hc with
  | inl h => exact hpre c h
  | inr h =>
    have := hexOfBytes_bounds root.bytes c h
    omega

theorem plain_rootJson (d : Nat) : (rootJson root).Plain d := by
  refine .str d _ fun c hc => isScalar_of_lt ?_
  have := rootText_bounds root c hc
  omega

theorem plain_optionalRootJson (root : Option Root) (d : Nat) : (optionalRootJson root).Plain d := by
  cases root with
  | none => exact .null d
  | some root => exact plain_rootJson root d

/-! ## Reading back from canonical bytes -/

theorem loadJson_canonicalBytes [Runtime] (h : v.Plain d) (hd : d ≤ 16) (malformed : Error) :
    loadJson (canonicalBytes v) malformed = .ok v.sorted := by
  unfold loadJson canonicalBytes
  rw [decodeUtf8_encodeAscii (printable_print h)]
  dsimp only
  rw [loads_print h hd]

theorem isFinite_of_plain (h : v.Plain d) : v.isFinite = true := by
  have hitems : ∀ items : List Json, (∀ v ∈ items, v.isFinite = true) →
      itemsFinite items = true := by
    intro items h
    induction items with
    | nil => rfl
    | cons v vs ih =>
      rw [itemsFinite, h v (mem_cons_self ..), ih fun w hw => h w (mem_cons_of_mem _ hw)]
      rfl
  have hfields : ∀ fields : Dict, (∀ kv ∈ fields, kv.2.isFinite = true) →
      fieldsFinite fields = true := by
    intro fields h
    induction fields with
    | nil => rfl
    | cons kv kvs ih =>
      obtain ⟨k, v⟩ := kv
      rw [fieldsFinite, h (k, v) (mem_cons_self ..),
        ih fun w hw => h w (mem_cons_of_mem _ hw)]
      rfl
  induction h with
  | null => rfl
  | bool d b => rfl
  | int d i => rfl
  | str d s => rfl
  | arr d items _ ih => rw [isFinite]; exact hitems items ih
  | obj d fields _ _ _ ih => rw [isFinite]; exact hfields fields ih

/-! ## Lengths -/

theorem length_joinComma (texts : List Str) :
    (joinComma texts).length = (texts.map length).sum + (texts.length - 1) := by
  induction texts with
  | nil => rfl
  | cons x xs ih =>
    cases xs with
    | nil => simp [joinComma]
    | cons y ys =>
      rw [joinComma, length_append, length_cons, ih]
      simp only [map_cons, sum_cons, length_cons]
      omega

theorem length_print_obj [Runtime] (fields : Dict) :
    (obj fields).print.length =
      (fields.map fun kv => (quote kv.1).length + 1 + kv.2.print.length).sum +
        (fields.length - 1) + 2 := by
  rw [print_obj, cons_append, length_cons, length_append, length_joinComma,
    map_map, length_map]
  have hperm := perm_sortByKey fields
  rw [hperm.length_eq, (hperm.map _).sum_eq]
  simp only [Function.comp_def, printField, length_append, length_cons, length_nil]
  have hsum : ∀ kv : Str × Json,
      (quote kv.1).length + (kv.2.print.length + 1) = (quote kv.1).length + 1 + kv.2.print.length :=
    fun kv => by omega
  simp only [hsum]

theorem length_quote_of_plain (h : ∀ c ∈ s, 35 ≤ c ∧ c ≤ 122 ∧ c ≠ 92) :
    (quote s).length = s.length + 2 := by
  rw [quote, flatMap_escapeChar_of_plain]
  · simp
  · intro c hc
    have := h c hc
    omega

theorem length_print_name [Runtime] (name : Name) :
    (str name.val).print.length ≤ 193 := by
  rw [print, length_quote_of_plain]
  · have hname := name.2
    generalize name.val = s at hname
    cases s with
    | nil => cases hname
    | cons c t =>
      simp only [isName, Bool.and_eq_true, decide_eq_true_eq] at hname
      simp only [length_cons]
      omega
  · intro c hc
    have := isNameChar_bounds (isNameChar_of_mem name.2 c hc)
    omega

theorem length_print_rootJson [Runtime] (root : Root) : (rootJson root).print.length = 73 := by
  rw [rootJson, print, length_quote_of_plain (rootText_bounds root), rootText,
    length_append, Digest.hex, length_hexOfBytes, root.length_eq]
  decide

theorem length_print_optionalRootJson [Runtime] (root : Option Root) :
    (optionalRootJson root).print.length ≤ 73 := by
  cases root with
  | none => rw [optionalRootJson, print, lit_null]; decide
  | some root => exact (length_print_rootJson root).le

theorem length_print_natJson [Runtime] (h : n ≤ uint63Max) : (natJson n).print.length ≤ 19 := by
  rw [natJson, print]
  exact length_printNat_le (lt_of_le_of_lt h (by decide)) (by omega)

theorem length_canonicalBytes [Runtime] (v : Json) : (canonicalBytes v).length = v.print.length := by
  rw [canonicalBytes, encodeAscii, length_map]

/-! ## Publication records -/

theorem PublicationAction.ofJson_value (action : PublicationAction) :
    ofJson (.str action.value) = .ok action := by
  cases action <;> simp [ofJson, value, lit_inj]

theorem GenerationState.ofJson_value (state : GenerationState) :
    ofJson (.str state.value) = .ok state := by
  cases state <;> simp [ofJson, value, lifecycle, lit_inj]

namespace GenerationPublicationRecord

variable (r : GenerationPublicationRecord)

theorem init_self :
    init (.str r.nameSpace) (natJson r.publicationSequence) r.action (rootJson r.generationRoot)
      (rootJson r.manifestRoot) (rootJson r.publishedReceiptRoot)
      (optionalRootJson r.previousGenerationRoot) (optionalRootJson r.predecessorRecordRoot) =
    .ok r := by
  unfold init
  simp only [requireName_str, requireInt_natJson, requireRoot_rootJson,
    requireOptionalRoot_optionalRootJson, ok_bind]
  rw [dif_pos r.predecessor_isSome]
  rfl

theorem nodup_canonicalDict :
    (r.canonicalDict.map Prod.fst).Nodup := by
  simp [canonicalDict, lit_inj]

theorem fromDict_sortedFields :
    fromDict (sortedFields r.canonicalDict) = .ok r := by
  have hkeys : sameKeys r.canonicalDict ["contract_id", "namespace", "publication_sequence",
      "action", "generation_root", "manifest_root", "published_receipt_root",
      "previous_generation_root", "predecessor_record_root"] = true := by
    simp [sameKeys, canonicalDict, lit_inj]
  unfold fromDict
  rw [sameKeys_sortedFields, hkeys]
  simp only [getItem_sortedFields r.nodup_canonicalDict]
  simp [getItem, dictGet, canonicalDict, lit_inj, PublicationAction.ofJson_value, init_self]

theorem plain_canonicalDict :
    (obj r.canonicalDict).Plain 1 := by
  refine plain_dict r.nodup_canonicalDict (by simp only [canonicalDict, map_cons]; decide) ?_
  simp only [canonicalDict, forall_mem_cons]
  refine ⟨.str 0 _ (by decide), plain_name _ 0, plain_natJson r.publicationSequence.2.2 0,
    .str 0 _ (by cases r.action <;> decide), plain_rootJson _ 0, plain_rootJson _ 0,
    plain_rootJson _ 0, plain_optionalRootJson _ 0, plain_optionalRootJson _ 0, by simp⟩

section Encoding

variable [Runtime]

variable (r : GenerationPublicationRecord)

theorem length_encode_lt : r.encode.length < 1000 := by
  rw [encode, length_canonicalBytes, length_print_obj]
  have h1 := length_print_name r.nameSpace
  have h2 := length_print_natJson r.publicationSequence.2.2
  have h3 := length_print_rootJson r.generationRoot
  have h4 := length_print_rootJson r.manifestRoot
  have h5 := length_print_rootJson r.publishedReceiptRoot
  have h6 := length_print_optionalRootJson r.previousGenerationRoot
  have h7 := length_print_optionalRootJson r.predecessorRecordRoot
  have h8 : (str r.action.value).print.length ≤ 10 := by
    rw [print]
    cases r.action <;> decide
  have h9 : (str generationContractId).print.length = 29 := by rw [print]; decide
  simp only [canonicalDict, map_cons, map_nil, sum_cons, sum_nil,
    length_cons, length_nil, h3, h4, h5, h9]
  have hk : (quote (lit "contract_id")).length + (quote (lit "namespace")).length +
      (quote (lit "publication_sequence")).length + (quote (lit "action")).length +
      (quote (lit "generation_root")).length + (quote (lit "manifest_root")).length +
      (quote (lit "published_receipt_root")).length +
      (quote (lit "previous_generation_root")).length +
      (quote (lit "predecessor_record_root")).length = 161 := by decide
  omega

theorem newline_notMem_encode : (10 : UInt8) ∉ r.encode :=
  newline_notMem_encodeAscii (printable_print r.plain_canonicalDict)

theorem encode_ne_nil : r.encode ≠ [] := by
  obtain ⟨c, t, h, -⟩ := opens_print r.plain_canonicalDict
  rw [encode, canonicalBytes, h]
  simp [encodeAscii]

end Encoding

end GenerationPublicationRecord

theorem publicationRecordFromJson_encode [Runtime] (r : GenerationPublicationRecord) :
    publicationRecordFromJson r.encode = .ok r := by
  unfold publicationRecordFromJson
  rw [encode,
    loadJson_canonicalBytes r.plain_canonicalDict (by omega), ok_bind, sorted_dict]
  simp [fromDict_sortedFields, encode]

/-! ## Written values, read and written again -/

theorem sortByKey_sortByKey (d : List (Str × α)) : sortByKey (sortByKey d) = sortByKey d := by
  have : Std.Total fun a b : Str × α => a.1 ≤ b.1 := ⟨fun a b => le_total a.1 b.1⟩
  have : IsTrans (Str × α) fun a b => a.1 ≤ b.1 := ⟨fun _ _ _ h h' => h.trans h'⟩
  exact (pairwise_insertionSort (fun a b : Str × α => a.1 ≤ b.1) d).insertionSort_eq

theorem print_sorted [Runtime] (h : v.Plain d) : v.sorted.print = v.print := by
  induction h with
  | null => rfl
  | bool d b => rfl
  | int d i => rfl
  | str d s => rfl
  | arr d items _ ih =>
    rw [sorted_arr, print_arr, print_arr, map_map]
    congr 3
    exact map_congr_left ih
  | obj d fields _ _ _ ih =>
    rw [sorted_obj, print_obj, print_obj, sortByKey_map, sortByKey_sortByKey, map_map]
    congr 3
    refine map_congr_left fun kv hkv => ?_
    show printField (kv.1, kv.2.sorted.print) = _
    rw [ih kv (mem_sortByKey.mp hkv)]

theorem plain_sorted (h : v.Plain d) : v.sorted.Plain d := by
  induction h with
  | null d => exact .null d
  | bool d b => exact .bool d b
  | int d i h => exact .int d i h
  | str d s h => exact .str d s h
  | arr d items _ ih =>
    rw [sorted_arr]
    refine .arr d _ fun v hv => ?_
    obtain ⟨w, hw, rfl⟩ := mem_map.mp hv
    exact ih w hw
  | obj d fields hnd hk _ ih =>
    rw [sorted_obj]
    refine .obj d _ (nodup_keys_sorted hnd) ?_ ?_
    · intro kv hkv
      obtain ⟨kv', hkv', rfl⟩ := mem_map.mp hkv
      exact hk kv' (mem_sortByKey.mp hkv')
    · intro kv hkv
      obtain ⟨kv', hkv', rfl⟩ := mem_map.mp hkv
      exact ih kv' (mem_sortByKey.mp hkv')

theorem canonicalJsonBytes_sorted [Runtime] (h : v.Plain d) :
    canonicalJsonBytes v.sorted = .ok (canonicalBytes v) := by
  unfold canonicalJsonBytes
  rw [if_pos (isFinite_of_plain (plain_sorted h)), canonicalBytes, canonicalBytes, print_sorted h]

namespace GenerationHead

theorem init_self (h : GenerationHead) :
    init (.str h.nameSpace) (natJson h.publicationSequence) (rootJson h.generationRoot)
      (rootJson h.manifestRoot) (rootJson h.publicationRecordRoot) = .ok h := by
  unfold init
  simp only [requireName_str, requireInt_natJson, requireRoot_rootJson, ok_bind]
  rfl

theorem nodup_canonicalDict (h : GenerationHead) : (h.canonicalDict.map Prod.fst).Nodup := by
  simp [canonicalDict, lit_inj]

theorem fromDict_sortedFields (h : GenerationHead) :
    fromDict (sortedFields h.canonicalDict) = .ok h := by
  have hkeys : sameKeys h.canonicalDict ["contract_id", "namespace", "publication_sequence",
      "generation_root", "manifest_root", "publication_record_root"] = true := by
    simp [sameKeys, canonicalDict, lit_inj]
  unfold fromDict
  rw [sameKeys_sortedFields, hkeys]
  simp only [getItem_sortedFields h.nodup_canonicalDict]
  simp [getItem, dictGet, canonicalDict, lit_inj, init_self]

theorem plain_canonicalDict (h : GenerationHead) : (obj h.canonicalDict).Plain 1 := by
  refine plain_dict h.nodup_canonicalDict (by simp only [canonicalDict, map_cons]; decide) ?_
  simp only [canonicalDict, forall_mem_cons]
  exact ⟨.str 0 _ (by decide), plain_name _ 0, plain_natJson h.publicationSequence.2.2 0,
    plain_rootJson _ 0, plain_rootJson _ 0, plain_rootJson _ 0, by simp⟩

variable [Runtime]

theorem encode_injective {h h' : GenerationHead} (he : h.encode = h'.encode) : h = h' := by
  have hload := loadJson_canonicalBytes h.plain_canonicalDict (by omega) (.builtin .valueError)
  have hload' := loadJson_canonicalBytes h'.plain_canonicalDict (by omega) (.builtin .valueError)
  rw [encode, encode] at he
  rw [he, hload', Except.ok.injEq, sorted_dict, sorted_dict, obj.injEq] at hload
  have hdict := h.fromDict_sortedFields
  rw [← hload, h'.fromDict_sortedFields, Except.ok.injEq] at hdict
  exact hdict.symm

theorem length_print_le (h : GenerationHead) :
    (obj h.canonicalDict).print.length < 700 := by
  rw [length_print_obj]
  have h1 := length_print_name h.nameSpace
  have h2 := length_print_natJson h.publicationSequence.2.2
  have h3 := length_print_rootJson h.generationRoot
  have h4 := length_print_rootJson h.manifestRoot
  have h5 := length_print_rootJson h.publicationRecordRoot
  have h9 : (str generationContractId).print.length = 29 := by rw [print]; decide
  simp only [canonicalDict, map_cons, map_nil, sum_cons, sum_nil,
    length_cons, length_nil, h3, h4, h5, h9]
  have hk : (quote (lit "contract_id")).length + (quote (lit "namespace")).length +
      (quote (lit "publication_sequence")).length + (quote (lit "generation_root")).length +
      (quote (lit "manifest_root")).length +
      (quote (lit "publication_record_root")).length = 103 := by decide
  omega

end GenerationHead

end Generation
