import Tds.Drivers.Bytecode
import Tds.Generation.Proofs.Contract

/-!
# The canonical text of a value

The text of a list or of a record is made of the texts of its parts, so that its length and the
characters in it are those of the parts. A package has a hash if each of its parts has a text.
-/

namespace Drivers

open Python FileSystem List Except
open Persistence (Items itemAt pyStr pyInt field asInt isText isText_iff)

section Texts

variable [Runtime]

theorem itemTexts_eq (items : List Json) : itemTexts items = items.map jsonText := by
  induction items with
  | nil => rfl
  | cons v items ih => rw [itemTexts, ih, map_cons]

theorem fieldTexts_eq (fields : List (Str × Json)) :
    fieldTexts fields = fields.map fun kv => (kv.1, jsonText kv.2) := by
  induction fields with
  | nil => rfl
  | cons kv fields ih =>
    obtain ⟨k, v⟩ := kv
    rw [fieldTexts, ih, map_cons]

variable [Objects] [Interpreter]

variable {fields : List (Str × Value)} {value : Value} {text : Str}

theorem canonicalJson_eq_ok : canonicalJson value = .ok text ↔
    ∃ normal json, normalizeValue value = .ok normal ∧ normal.toJson = .ok json ∧
      jsonText json = text := by
  simp only [canonicalJson, bind_eq_ok, pure_eq_ok, ok.injEq]
  constructor
  · rintro ⟨normal, hnormal, json, hjson, htext⟩
    exact ⟨normal, json, hnormal, hjson, htext⟩
  · rintro ⟨normal, json, hnormal, hjson, htext⟩
    exact ⟨normal, hnormal, json, hjson, htext⟩

def textOf (value : Value) : Str :=
  match canonicalJson value with
  | .ok text => text
  | .error _ => []

theorem textOf_eq (h : canonicalJson value = .ok text) : textOf value = text := by
  rw [textOf, h]

def HasText (value : Value) : Prop := ∃ text, canonicalJson value = .ok text

theorem hasText_none : HasText .none := ⟨lit "null", rfl⟩

theorem list_parts_iff {items : List Value} {texts : List Str} :
    (∃ normals jsons, normalizeItems items = .ok normals ∧ itemsToJson normals = .ok jsons ∧
      jsons.map jsonText = texts) ↔
    (∀ value ∈ items, HasText value) ∧ items.map textOf = texts := by
  induction items generalizing texts with
  | nil =>
    simp only [normalizeItems, pure_eq_ok, ok.injEq, not_mem_nil, false_imp_iff,
      implies_true, map_nil, true_and]
    exact ⟨fun ⟨_, _, hnil, hjsons, htexts⟩ => by subst hnil; cases hjsons; exact htexts,
      fun h => ⟨[], [], rfl, rfl, h⟩⟩
  | cons value items ih =>
    simp only [normalizeItems, bind_eq_ok, pure_eq_ok, ok.injEq, forall_mem_cons,
      map_cons]
    constructor
    · rintro ⟨_, jsons, ⟨normal, hnormal, normals, hnormals, rfl⟩, hjsons, rfl⟩
      simp only [itemsToJson, bind_eq_ok, pure_eq_ok, ok.injEq] at hjsons
      obtain ⟨json, hjson, jsons, hjsons, rfl⟩ := hjsons
      have htext := canonicalJson_eq_ok.mpr ⟨normal, json, hnormal, hjson, rfl⟩
      obtain ⟨hrest, htexts⟩ := ih.mp ⟨normals, jsons, hnormals, hjsons, rfl⟩
      exact ⟨⟨⟨_, htext⟩, hrest⟩, by rw [textOf_eq htext, htexts, map_cons]⟩
    · rintro ⟨⟨⟨text, htext⟩, hrest⟩, rfl⟩
      obtain ⟨normal, json, hnormal, hjson, rfl⟩ := canonicalJson_eq_ok.mp htext
      obtain ⟨normals, jsons, hnormals, hjsons, htexts⟩ := ih.mpr ⟨hrest, rfl⟩
      refine ⟨_, json :: jsons, ⟨normal, hnormal, normals, hnormals, rfl⟩, ?_, ?_⟩
      · simp only [itemsToJson, bind_eq_ok, pure_eq_ok, ok.injEq]
        exact ⟨json, hjson, jsons, hjsons, rfl⟩
      · rw [map_cons, htexts, textOf_eq htext]

theorem canonicalJson_list {items : List Value} :
    canonicalJson (.list items) = .ok text ↔
      (∀ value ∈ items, HasText value) ∧ 91 :: joinComma (items.map textOf) ++ [93] = text := by
  rw [canonicalJson_eq_ok]
  simp only [normalizeValue, bind_eq_ok, pure_eq_ok, ok.injEq]
  constructor
  · rintro ⟨_, json, ⟨normals, hnormals, rfl⟩, hjson, rfl⟩
    simp only [Value.toJson, bind_eq_ok, pure_eq_ok, ok.injEq] at hjson
    obtain ⟨jsons, hjsons, rfl⟩ := hjson
    obtain ⟨hall, htexts⟩ := list_parts_iff.mp ⟨normals, jsons, hnormals, hjsons, rfl⟩
    exact ⟨hall, by rw [htexts, jsonText, itemTexts_eq]⟩
  · rintro ⟨hall, rfl⟩
    obtain ⟨normals, jsons, hnormals, hjsons, htexts⟩ := list_parts_iff.mpr ⟨hall, rfl⟩
    refine ⟨_, .arr jsons, ⟨normals, hnormals, rfl⟩, ?_, by rw [jsonText, itemTexts_eq, htexts]⟩
    simp only [Value.toJson, bind_eq_ok, pure_eq_ok, ok.injEq]
    exact ⟨jsons, hjsons, rfl⟩

/-! ## Records -/

def okOr {α : Type} (default : α) : Check α → α
  | .ok a => a
  | .error _ => default

def normalOf (value : Value) : Value := okOr .none (normalizeValue value)

def jsonOf (value : Value) : Json := okOr .null value.toJson

omit [Runtime] in
theorem normalizeFields_eq_ok {normals : Items} :
    normalizeFields (fields.map fun f => (.str f.1, f.2)) = .ok normals ↔
      (∀ f ∈ fields, ∃ normal, normalizeValue f.2 = .ok normal) ∧
        fields.map (fun f => (.str f.1, normalOf f.2)) = normals := by
  induction fields generalizing normals with
  | nil => simp [normalizeFields]
  | cons f fields ih =>
    simp only [map_cons, normalizeFields, bind_eq_ok, pure_eq_ok, ok.injEq, ih,
      forall_mem_cons]
    constructor
    · rintro ⟨normal, hnormal, _, ⟨hall, rfl⟩, rfl⟩
      exact ⟨⟨⟨normal, hnormal⟩, hall⟩, by rw [normalOf, hnormal, okOr]⟩
    · rintro ⟨⟨⟨normal, hnormal⟩, hall⟩, rfl⟩
      exact ⟨normal, hnormal, _, ⟨hall, rfl⟩, by rw [normalOf, hnormal, okOr]⟩

omit [Runtime] [Objects] [Interpreter] in
theorem fieldsToJson_eq_ok {jsons : List (Str × Json)} :
    fieldsToJson (fields.map fun f => (.str f.1, f.2)) = .ok jsons ↔
      (∀ f ∈ fields, ∃ json, f.2.toJson = .ok json) ∧
        fields.map (fun f => (f.1, jsonOf f.2)) = jsons := by
  induction fields generalizing jsons with
  | nil => simp [fieldsToJson]
  | cons f fields ih =>
    simp only [map_cons, fieldsToJson, bind_eq_ok, pure_eq_ok, ok.injEq, ih,
      forall_mem_cons]
    constructor
    · rintro ⟨json, hjson, _, ⟨hall, rfl⟩, rfl⟩
      exact ⟨⟨⟨json, hjson⟩, hall⟩, by rw [jsonOf, hjson, okOr]⟩
    · rintro ⟨⟨⟨json, hjson⟩, hall⟩, rfl⟩
      exact ⟨json, hjson, _, ⟨hall, rfl⟩, by rw [jsonOf, hjson, okOr]⟩

omit [Runtime] [Objects] [Interpreter] in
theorem textItems_map {α : Type} (fields : List (Str × α)) :
    textItems (fields.map fun f => (.str f.1, f.2)) = some fields := by
  induction fields with
  | nil => rfl
  | cons f fields ih => rw [map_cons, textItems, ih, Option.map_some]

omit [Runtime] [Objects] in
theorem sortItems_map {α : Type} (fields : List (Str × α)) :
    sortItems (fields.map fun f => (.str f.1, f.2)) =
      .ok ((sortByKey fields).map fun f => (.str f.1, f.2)) := by
  rw [sortItems, textItems_map]

omit [Runtime] [Interpreter] in
theorem textDict_map (h : (fields.map Prod.fst).Nodup) :
    textDict (fields.map fun f => (.str f.1, f.2)) = .record fields := by
  rw [textDict, foldl_map]
  have hfold := PyDict.foldl_set_of_nodup Prod.fst Prod.snd fields ([] : PyDict Str Value)
    (by simpa [PyDict.keys] using h)
  simp only [pyStr]
  rw [hfold]
  simp

omit [Runtime] in
theorem normalizeValue_record {normal : Value} (hnodup : (fields.map Prod.fst).Nodup) :
    normalizeValue (.record fields) = .ok normal ↔
      (∀ f ∈ fields, ∃ normal, normalizeValue f.2 = .ok normal) ∧
        .record ((sortByKey fields).map fun f => (f.1, normalOf f.2)) = normal := by
  have hsorted : (((sortByKey fields).map fun f => (f.1, normalOf f.2)).map Prod.fst).Nodup := by
    rw [map_map]
    exact (((perm_sortByKey fields).map Prod.fst).nodup_iff).mpr hnodup
  simp only [Value.record, normalizeValue, bind_eq_ok, normalizeFields_eq_ok, pure_eq_ok,
    ok.injEq]
  have hitems : (fields.map fun f => (Value.str f.1, normalOf f.2)) =
      ((fields.map fun f => (f.1, normalOf f.2)).map fun f => (.str f.1, f.2)) := by
    rw [map_map]
    rfl
  constructor
  · rintro ⟨_, ⟨hall, rfl⟩, items, hitems', rfl⟩
    rw [hitems, sortItems_map, sortByKey_map] at hitems'
    cases hitems'
    exact ⟨hall, (textDict_map hsorted).symm⟩
  · rintro ⟨hall, rfl⟩
    refine ⟨_, ⟨hall, rfl⟩, _, ?_, textDict_map hsorted⟩
    rw [hitems, sortItems_map, sortByKey_map]

theorem hasText_of_parts (hnormal : ∃ normal, normalizeValue value = .ok normal)
    (hjson : ∃ json, (normalOf value).toJson = .ok json) :
    HasText value ∧ jsonText (jsonOf (normalOf value)) = textOf value := by
  obtain ⟨normal, hnormal⟩ := hnormal
  obtain ⟨json, hjson⟩ := hjson
  rw [normalOf, hnormal, okOr] at hjson ⊢
  have htext := canonicalJson_eq_ok.mpr ⟨normal, json, hnormal, hjson, rfl⟩
  exact ⟨⟨_, htext⟩, by rw [jsonOf, hjson, okOr, textOf_eq htext]⟩

theorem parts_of_hasText (h : HasText value) :
    (∃ normal, normalizeValue value = .ok normal) ∧ ∃ json, (normalOf value).toJson = .ok json := by
  obtain ⟨text, htext⟩ := h
  obtain ⟨normal, json, hnormal, hjson, -⟩ := canonicalJson_eq_ok.mp htext
  exact ⟨⟨normal, hnormal⟩, json, by rw [normalOf, hnormal, okOr, hjson]⟩

theorem jsonText_sorted (h : ∀ f ∈ fields, HasText f.2) :
    jsonText (.obj ((sortByKey fields).map fun f => (f.1, jsonOf (normalOf f.2)))) =
      123 :: joinComma ((sortByKey (fields.map fun f => (f.1, textOf f.2))).map fieldText) ++ [125] := by
  have htexts : ((sortByKey fields).map fun f => (f.1, jsonText (jsonOf (normalOf f.2)))) =
      (sortByKey fields).map fun f => (f.1, textOf f.2) := by
    refine map_congr_left fun f hf => ?_
    obtain ⟨hnormal, hjson⟩ := parts_of_hasText (h f (mem_sortByKey.mp hf))
    rw [(hasText_of_parts hnormal hjson).2]
  rw [jsonText, fieldTexts_eq, map_map]
  simp only [Function.comp_def]
  rw [htexts, sortByKey_map textOf, Generation.sortByKey_sortByKey, sortByKey_map textOf]

theorem canonicalJson_record (hnodup : (fields.map Prod.fst).Nodup) :
    canonicalJson (.record fields) = .ok text ↔
      (∀ f ∈ fields, HasText f.2) ∧
        123 :: joinComma ((sortByKey (fields.map fun f => (f.1, textOf f.2))).map fieldText) ++ [125] =
          text := by
  have htoJson : ∀ {json : Json},
      (Value.record ((sortByKey fields).map fun f => (f.1, normalOf f.2))).toJson = .ok json ↔
        (∀ f ∈ fields, ∃ json, (normalOf f.2).toJson = .ok json) ∧
          .obj ((sortByKey fields).map fun f => (f.1, jsonOf (normalOf f.2))) = json := by
    intro json
    simp only [Value.record, Value.toJson, bind_eq_ok, fieldsToJson_eq_ok, pure_eq_ok,
      ok.injEq, forall_mem_map, mem_sortByKey]
    rw [map_map]
    constructor
    · rintro ⟨_, ⟨hall, rfl⟩, rfl⟩
      exact ⟨hall, rfl⟩
    · rintro ⟨hall, rfl⟩
      exact ⟨_, ⟨hall, rfl⟩, rfl⟩
  simp only [canonicalJson_eq_ok, normalizeValue_record hnodup]
  constructor
  · rintro ⟨_, json, ⟨hnormal, rfl⟩, hjson, rfl⟩
    obtain ⟨halljson, rfl⟩ := htoJson.mp hjson
    have hall : ∀ f ∈ fields, HasText f.2 := fun f hf =>
      (hasText_of_parts (hnormal f hf) (halljson f hf)).1
    exact ⟨hall, (jsonText_sorted hall).symm⟩
  · rintro ⟨hall, rfl⟩
    exact ⟨_, _, ⟨fun f hf => (parts_of_hasText (hall f hf)).1, rfl⟩,
      htoJson.mpr ⟨fun f hf => (parts_of_hasText (hall f hf)).2, rfl⟩, jsonText_sorted hall⟩

end Texts

end Drivers
