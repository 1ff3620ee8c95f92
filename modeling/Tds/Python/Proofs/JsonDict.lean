import Tds.Python.Proofs.Json
import Tds.Python.Raise

/-!
# Objects that were read

Every object that `json.loads` returns has distinct keys, so that what it prints as is determined by what
is found under each key.
-/

namespace Python

open List

/-! ## Looking up keys -/

variable {k : Str}

section Lookup

variable {α β : Type}

variable {d : List (Str × α)}

theorem mem_of_dictGet {v : α} (h : dictGet d k = some v) : (k, v) ∈ d := by
  induction d with
  | nil => cases h
  | cons kv d ih =>
    obtain ⟨k', v'⟩ := kv
    rw [dictGet] at h
    by_cases hk : k' = k
    · rw [if_pos hk, Option.some.injEq] at h
      rw [hk, h]
      exact mem_cons_self
    · rw [if_neg hk] at h
      exact mem_cons_of_mem _ (ih h)

theorem exists_dictGet (h : k ∈ d.map Prod.fst) :
    ∃ v, dictGet d k = some v := by
  induction d with
  | nil => cases h
  | cons kv d ih =>
    obtain ⟨k', v⟩ := kv
    rw [dictGet]
    by_cases hk : k' = k
    · exact ⟨v, if_pos hk⟩
    · rw [if_neg hk]
      rcases mem_cons.mp h with heq | hmem
      · exact absurd heq.symm hk
      · exact ih hmem

theorem dictGet_eq_some_iff (hd : (d.map Prod.fst).Nodup) {v : α} :
    dictGet d k = some v ↔ (k, v) ∈ d := by
  refine ⟨mem_of_dictGet, fun h => ?_⟩
  induction d with
  | nil => cases h
  | cons kv d ih =>
    obtain ⟨k', v'⟩ := kv
    rw [map_cons, nodup_cons] at hd
    rw [dictGet]
    rcases mem_cons.mp h with heq | hmem
    · obtain ⟨rfl, rfl⟩ := Prod.mk.inj heq
      exact if_pos rfl
    · have hne : k' ≠ k := by
        rintro rfl
        exact hd.1 (mem_map.mpr ⟨_, hmem, rfl⟩)
      rw [if_neg hne]
      exact ih hd.2 hmem

/-- A `dict` in the order of its keys depends on what is found under each key only. -/
theorem sortByKey_eq_of_dictGet {d d' : List (Str × α)} (hd : (d.map Prod.fst).Nodup)
    (hd' : (d'.map Prod.fst).Nodup) (h : ∀ k, dictGet d k = dictGet d' k) :
    sortByKey d = sortByKey d' := by
  have htotal : Std.Total fun a b : Str × α => a.1 ≤ b.1 := ⟨fun a b => le_total a.1 b.1⟩
  have htrans : IsTrans (Str × α) fun a b => a.1 ≤ b.1 := ⟨fun _ _ _ h h' => h.trans h'⟩
  have hmem : ∀ kv, kv ∈ d ↔ kv ∈ d' := by
    rintro ⟨k, v⟩
    rw [← dictGet_eq_some_iff hd, ← dictGet_eq_some_iff hd', h k]
  have hperm : d.Perm d' :=
    (perm_ext_iff_of_nodup hd.of_map hd'.of_map).mpr hmem
  have hsorted : (sortByKey d).Perm (sortByKey d') :=
    (perm_sortByKey d).trans (hperm.trans (perm_sortByKey d').symm)
  refine hsorted.eq_of_pairwise (fun a b ha hb hab hba => ?_)
    (pairwise_insertionSort (fun a b : Str × α => a.1 ≤ b.1) d)
    (pairwise_insertionSort (fun a b : Str × α => a.1 ≤ b.1) d')
  -- keys that are equal belong to one item
  have hkey : a.1 = b.1 := le_antisymm hab hba
  have ha' : dictGet d a.1 = some a.2 := (dictGet_eq_some_iff hd).mpr (mem_sortByKey.mp ha)
  have hb' : dictGet d b.1 = some b.2 :=
    (dictGet_eq_some_iff hd).mpr ((hmem b).mpr (mem_sortByKey.mp hb))
  rw [hkey, hb', Option.some.injEq] at ha'
  exact Prod.ext hkey ha'.symm

end Lookup

theorem print_obj_congr [Runtime] {d d' : List (Str × Json)} (hd : (d.map Prod.fst).Nodup)
    (hd' : (d'.map Prod.fst).Nodup)
    (h : ∀ k, (dictGet d k).map Json.print = (dictGet d' k).map Json.print) :
    (Json.obj d).print = (Json.obj d').print := by
  have hkeys : ∀ e : List (Str × Json),
      (e.map fun kv => (kv.1, kv.2.print)).map Prod.fst = e.map Prod.fst := by
    intro e
    rw [map_map]
    rfl
  have hget : ∀ (e : List (Str × Json)) k,
      dictGet (e.map fun kv => (kv.1, kv.2.print)) k = (dictGet e k).map Json.print := by
    intro e k
    induction e with
    | nil => rfl
    | cons kv e ih =>
      rw [map_cons, dictGet, dictGet]
      split
      · rfl
      · exact ih
  have hsorted : sortByKey (d.map fun kv => (kv.1, kv.2.print)) =
      sortByKey (d'.map fun kv => (kv.1, kv.2.print)) :=
    sortByKey_eq_of_dictGet (by rwa [hkeys]) (by rwa [hkeys]) fun k => by rw [hget, hget, h k]
  rw [Json.print, Json.print, printFields_eq, printFields_eq, hsorted]

variable {fields : List (Str × Json)}

/-- An object prints as the fields that are found in it, if it has no others. -/
theorem print_eq_of_fields [Runtime] {d : List (Str × Json)} (hd : (d.map Prod.fst).Nodup)
    (hfields : (fields.map Prod.fst).Nodup) (hkeys : ∀ k ∈ d.map Prod.fst, k ∈ fields.map Prod.fst)
    (h : ∀ kv ∈ fields, ∃ v, dictGet d kv.1 = some v ∧ v.print = kv.2.print) :
    (Json.obj d).print = (Json.obj fields).print := by
  refine print_obj_congr hd hfields fun k => ?_
  cases hget : dictGet fields k with
  | some v =>
    obtain ⟨v', hv', hprint⟩ := h (k, v) (mem_of_dictGet hget)
    rw [hv', Option.map_some, Option.map_some, hprint]
  | none =>
    cases hget' : dictGet d k with
    | none => rfl
    | some v =>
      obtain ⟨⟨k', v'⟩, hmem, rfl⟩ :=
        mem_map.mp (hkeys k (mem_map.mpr ⟨_, mem_of_dictGet hget', rfl⟩))
      rw [(dictGet_eq_some_iff hfields).mpr hmem] at hget
      cases hget

/-! ## What `loads` returns -/

/-- No object has a key twice. -/
inductive Json.Distinct : Json → Prop
  | null : Distinct .null
  | bool (b : Bool) : Distinct (.bool b)
  | int (i : Int) : Distinct (.int i)
  | float (f : PyFloat) : Distinct (.float f)
  | str (s : Str) : Distinct (.str s)
  | arr (items : List Json) (h : ∀ v ∈ items, v.Distinct) : Distinct (.arr items)
  | obj (fields : List (Str × Json)) (hkeys : (fields.map Prod.fst).Nodup)
      (h : ∀ kv ∈ fields, kv.2.Distinct) : Distinct (.obj fields)

theorem Json.Distinct.nodup (h : (Json.obj fields).Distinct) : (fields.map Prod.fst).Nodup := by
  cases h with
  | obj _ hkeys _ => exact hkeys

variable {v : Json}

theorem Json.Distinct.dictGet (h : (Json.obj fields).Distinct) (hv : dictGet fields k = some v) :
    v.Distinct := by
  cases h with
  | obj _ _ h => exact h _ (mem_of_dictGet hv)

section Dict

variable {α : Type}

variable {d : List (Str × α)}

theorem mem_dictSet {v : α} {kv : Str × α} (h : kv ∈ dictSet d k v) :
    kv = (k, v) ∨ kv ∈ d := by
  induction d with
  | nil => exact .inl (mem_singleton.mp h)
  | cons kv' d ih =>
    rw [dictSet] at h
    split at h
    · rcases mem_cons.mp h with rfl | hmem
      · exact .inl rfl
      · exact .inr (mem_cons_of_mem _ hmem)
    · rcases mem_cons.mp h with rfl | hmem
      · exact .inr mem_cons_self
      · exact (ih hmem).imp_right (mem_cons_of_mem _)

theorem keys_dictSet_subset {k' : Str} {v : α}
    (h : k' ∈ (dictSet d k v).map Prod.fst) : k' = k ∨ k' ∈ d.map Prod.fst := by
  obtain ⟨kv, hkv, rfl⟩ := mem_map.mp h
  rcases mem_dictSet hkv with rfl | hmem
  · exact .inl rfl
  · exact .inr (mem_map_of_mem hmem)

theorem nodup_dictSet (h : (d.map Prod.fst).Nodup) (k : Str) (v : α) :
    ((dictSet d k v).map Prod.fst).Nodup := by
  induction d with
  | nil => exact nodup_singleton k
  | cons kv d ih =>
    obtain ⟨k', v'⟩ := kv
    rw [map_cons, nodup_cons] at h
    rw [dictSet]
    by_cases hk : k' = k
    · rw [if_pos hk, map_cons, nodup_cons, ← hk]
      exact h
    · rw [if_neg hk, map_cons, nodup_cons]
      refine ⟨fun hmem => ?_, ih h.2⟩
      rcases keys_dictSet_subset hmem with heq | hmem
      · exact hk heq
      · exact h.1 hmem

theorem foldl_dictSet {fields d : List (Str × α)} (hd : (d.map Prod.fst).Nodup) :
    ((fields.foldl (fun d kv => dictSet d kv.1 kv.2) d).map Prod.fst).Nodup ∧
      ∀ kv ∈ fields.foldl (fun d kv => dictSet d kv.1 kv.2) d, kv ∈ d ∨ kv ∈ fields := by
  induction fields generalizing d with
  | nil => exact ⟨hd, fun kv hkv => .inl hkv⟩
  | cons field fields ih =>
    obtain ⟨hnodup, hmem⟩ := ih (nodup_dictSet hd field.1 field.2)
    refine ⟨hnodup, fun kv hkv => ?_⟩
    rcases hmem kv hkv with hset | hrest
    · rcases mem_dictSet hset with rfl | hold
      · exact .inr mem_cons_self
      · exact .inl hold
    · exact .inr (mem_cons_of_mem _ hrest)

theorem nodup_dictOf (fields : List (Str × α)) : ((dictOf fields).map Prod.fst).Nodup :=
  (foldl_dictSet (d := []) nodup_nil).1

theorem mem_dictOf {fields : List (Str × α)} {kv : Str × α} (h : kv ∈ dictOf fields) : kv ∈ fields :=
  ((foldl_dictSet (d := []) nodup_nil).2 kv h).resolve_left (not_mem_nil)

end Dict

def ReadsDistinct (value : Str → Parse Json) : Prop :=
  ∀ s v rest, value s = .ok (v, rest) → v.Distinct

variable {rest s : Str}

theorem distinct_parseScalar (h : parseScalar s = .ok (v, rest)) : v.Distinct := by
  have hnumber : ∀ negative t, parseUnsigned negative t = .ok (v, rest) → v.Distinct := by
    intro negative t ht
    rw [parseUnsigned, bind_eq_ok] at ht
    obtain ⟨⟨ds, rest'⟩, -, ht⟩ := ht
    dsimp only at ht
    split at ht
    · split at ht
      · cases ht
      · cases ht
        exact .int _
    · cases ht
      exact .float _
  rw [parseScalar.eq_def] at h
  split at h
  · cases h
    exact .null
  split at h
  · cases h
    exact .bool _
  split at h
  · cases h
    exact .bool _
  split at h
  · cases h
    exact .float _
  split at h
  · cases h
    exact .float _
  split at h
  · cases h
    exact .float _
  split at h
  · exact hnumber _ _ h
  · exact hnumber _ _ h

section Parse

variable {value : Str → Parse Json} (hvalue : ReadsDistinct value)

include hvalue

theorem distinct_parseItems {fuel : Nat} {vs : List Json}
    (h : parseItems value fuel s = .ok (vs, rest)) : ∀ v ∈ vs, v.Distinct := by
  induction fuel generalizing s vs rest with
  | zero => cases h
  | succ fuel ih =>
    rw [parseItems, bind_eq_ok] at h
    obtain ⟨⟨v, rest₁⟩, hv, h⟩ := h
    have hdistinct := hvalue s v rest₁ hv
    dsimp only at h
    split at h
    · rw [bind_eq_ok] at h
      obtain ⟨⟨vs', rest₂⟩, hvs, h⟩ := h
      cases h
      exact forall_mem_cons.mpr ⟨hdistinct, ih hvs⟩
    · cases h
      exact forall_mem_cons.mpr ⟨hdistinct, fun _ h => absurd h not_mem_nil⟩
    · cases h

theorem distinct_parseFields {fuel : Nat} (h : parseFields value fuel s = .ok (fields, rest)) :
    ∀ kv ∈ fields, kv.2.Distinct := by
  induction fuel generalizing s fields rest with
  | zero => cases h
  | succ fuel ih =>
    rw [parseFields, bind_eq_ok] at h
    obtain ⟨⟨k, rest₁⟩, -, h⟩ := h
    dsimp only at h
    split at h
    · rw [bind_eq_ok] at h
      obtain ⟨⟨v, rest₂⟩, hv, h⟩ := h
      have hdistinct := hvalue _ v rest₂ hv
      dsimp only at h
      split at h
      · split at h
        · rw [bind_eq_ok] at h
          obtain ⟨⟨fields', rest₃⟩, hfields, h⟩ := h
          cases h
          exact forall_mem_cons.mpr ⟨hdistinct, ih hfields⟩
        · cases h
      · cases h
        exact forall_mem_cons.mpr ⟨hdistinct, fun _ h => absurd h not_mem_nil⟩
      · cases h
    · cases h

theorem distinct_parseArray {t : Str} (h : parseArray value t = .ok (v, rest)) : v.Distinct := by
  rw [parseArray] at h
  split at h
  · cases h
    exact .arr _ fun _ h => absurd h not_mem_nil
  · obtain ⟨⟨vs, rest'⟩, hvs, hpair⟩ := map_eq_ok.mp h
    cases hpair
    exact .arr _ (distinct_parseItems hvalue hvs)

theorem distinct_parseObject {t : Str} (h : parseObject value t = .ok (v, rest)) : v.Distinct := by
  rw [parseObject] at h
  split at h
  · cases h
    exact .obj _ nodup_nil fun _ h => absurd h not_mem_nil
  · obtain ⟨⟨fields, rest'⟩, hfields, hpair⟩ := map_eq_ok.mp h
    cases hpair
    exact .obj _ (nodup_dictOf fields) fun kv hkv =>
      distinct_parseFields hvalue hfields kv (mem_dictOf hkv)
  · cases h

theorem readsDistinct_parseWith : ReadsDistinct (parseWith (some value)) := by
  intro s v rest h
  rw [parseWith.eq_def] at h
  split at h
  · obtain ⟨⟨t, rest'⟩, -, hpair⟩ := map_eq_ok.mp h
    cases hpair
    exact .str t
  · exact distinct_parseObject hvalue h
  · exact distinct_parseArray hvalue h
  · exact distinct_parseScalar h

end Parse

theorem readsDistinct_parseValue (depth : Nat) : ReadsDistinct (parseValue depth) := by
  induction depth with
  | zero =>
    intro s v rest h
    rw [parseValue, parseWith.eq_def] at h
    split at h
    · obtain ⟨⟨t, rest'⟩, -, hpair⟩ := map_eq_ok.mp h
      cases hpair
      exact .str t
    · cases h
    · cases h
    · exact distinct_parseScalar h
  | succ depth ih => exact readsDistinct_parseWith ih

theorem distinct_of_loads [Runtime] {text : Str} (h : loads text = .ok v) : v.Distinct := by
  rw [loads] at h
  split at h
  · cases h
  · obtain ⟨⟨v', rest⟩, hv, hrest⟩ := bind_eq_ok.mp h
    dsimp only at hrest
    split at hrest
    · cases hrest
      exact readsDistinct_parseValue _ _ _ _ hv
    · cases hrest

end Python
