import Mathlib.Data.List.Nodup

/-!
# Python dictionaries

A `dict` is the list of its items. As in Python an assignment to a key that is present keeps the
place of the key, and a new key comes last.
-/

namespace Python

open List

/-- A `dict`, by its items in their order. -/
abbrev PyDict (κ α : Type) := List (κ × α)

namespace PyDict

variable {κ α : Type} [DecidableEq κ]

/-- `d.get(key)`. -/
def get (d : PyDict κ α) (key : κ) : Option α :=
  match d with
  | [] => none
  | (k, v) :: rest => if k = key then some v else get rest key

/-- `d[key] = value`. -/
def set (d : PyDict κ α) (key : κ) (value : α) : PyDict κ α :=
  match d with
  | [] => [(key, value)]
  | (k, v) :: rest => if k = key then (k, value) :: rest else (k, v) :: set rest key value

/-- `d.pop(key, None)`. -/
def pop (d : PyDict κ α) (key : κ) : PyDict κ α := d.filter fun item => item.1 ≠ key

/-- `list(d)`. -/
def keys (d : PyDict κ α) : List κ := d.map Prod.fst

@[simp] theorem get_nil (key : κ) : get ([] : PyDict κ α) key = none := rfl

theorem get_cons (k : κ) (v : α) (rest : PyDict κ α) (key : κ) :
    get ((k, v) :: rest) key = if k = key then some v else get rest key := rfl

@[simp] theorem get_set_self (d : PyDict κ α) (key : κ) (value : α) :
    (d.set key value).get key = some value := by
  induction d with
  | nil => simp [set, get]
  | cons item rest ih =>
    unfold set
    split
    · next h => simp [get, h]
    · next h => simp [get, h, ih]

variable {d : PyDict κ α} {key : κ}

theorem get_set_of_ne (d : PyDict κ α) {key' : κ} (value : α) (h : key' ≠ key) :
    (d.set key value).get key' = d.get key' := by
  induction d with
  | nil => simp [set, get, h.symm]
  | cons item rest ih =>
    unfold set
    split
    · next hk => simp [get, hk, h.symm]
    · simp [get, ih]

@[simp] theorem get_pop_self (d : PyDict κ α) (key : κ) : (d.pop key).get key = none := by
  induction d with
  | nil => rfl
  | cons item rest ih =>
    unfold pop at ih ⊢
    rw [filter_cons]
    split
    · next h =>
      rw [get_cons, if_neg (by simpa using h)]
      exact ih
    · exact ih

theorem get_pop_of_ne (d : PyDict κ α) {key' : κ} (h : key' ≠ key) :
    (d.pop key).get key' = d.get key' := by
  induction d with
  | nil => rfl
  | cons item rest ih =>
    unfold pop at ih ⊢
    rw [filter_cons]
    split
    · rw [get_cons, get_cons, ih]
    · next hk =>
      have hk' : item.1 = key := by simpa using hk
      rw [get_cons, if_neg (hk' ▸ h.symm), ih]

theorem mem_keys_iff (d : PyDict κ α) (key : κ) : key ∈ d.keys ↔ ∃ value, d.get key = some value := by
  induction d with
  | nil => simp [keys]
  | cons item rest ih =>
    obtain ⟨k, v⟩ := item
    rw [keys, map_cons, mem_cons, get_cons]
    by_cases h : k = key
    · simp [h]
    · rw [if_neg h, ← ih]
      exact or_iff_right (Ne.symm h)

theorem mem_of_get {value : α} (h : d.get key = some value) : (key, value) ∈ d := by
  induction d with
  | nil => cases h
  | cons item rest ih =>
    rw [get] at h
    split at h
    · next hk =>
      cases h
      exact mem_cons.mpr (.inl (by rw [← hk]))
    · exact mem_cons_of_mem _ (ih h)

theorem get_eq_some_iff (h : d.keys.Nodup) {value : α} :
    d.get key = some value ↔ (key, value) ∈ d := by
  refine ⟨mem_of_get, fun hmem => ?_⟩
  obtain ⟨found, hfound⟩ := (mem_keys_iff d key).mp (mem_map_of_mem hmem)
  have := inj_on_of_nodup_map h (mem_of_get hfound) hmem rfl
  rw [hfound, (Prod.mk.inj this).2]

theorem get_perm {d' : PyDict κ α} (hperm : d.Perm d') (h : d.keys.Nodup) (key : κ) :
    d.get key = d'.get key := by
  have h' : d'.keys.Nodup := (hperm.map Prod.fst).nodup_iff.mp h
  refine Option.ext fun value => ?_
  rw [get_eq_some_iff h, get_eq_some_iff h', hperm.mem_iff]

theorem keys_set (d : PyDict κ α) (key : κ) (value : α) :
    (d.set key value).keys = if key ∈ d.keys then d.keys else d.keys ++ [key] := by
  induction d with
  | nil => simp [set, keys]
  | cons item rest ih =>
    unfold set
    by_cases hk : item.1 = key
    · simp [keys, hk]
    · have hne : key ≠ item.1 := Ne.symm hk
      simp only [if_neg hk]
      rw [show keys ((item.1, item.2) :: set rest key value) = item.1 :: (set rest key value).keys from rfl,
        ih, show keys (item :: rest) = item.1 :: keys rest from rfl]
      by_cases hmem : key ∈ keys rest
      · rw [if_pos hmem, if_pos (mem_cons_of_mem _ hmem)]
      · rw [if_neg hmem, if_neg fun h => (mem_cons.mp h).elim hne hmem]
        rfl

theorem nodup_keys_set (h : d.keys.Nodup) (key : κ) (value : α) : (d.set key value).keys.Nodup := by
  rw [keys_set]
  split
  · exact h
  · next hmem => exact nodup_append'.mpr ⟨h, by simp, by simpa using hmem⟩

section Comprehension

variable {β : Type} (f : β → κ) (g : β → α)

variable (items : List β)

theorem nodup_keys_foldl_set (h : d.keys.Nodup) :
    (items.foldl (fun d item => d.set (f item) (g item)) d).keys.Nodup := by
  induction items generalizing d with
  | nil => exact h
  | cons item items ih => exact ih (nodup_keys_set h _ _)

theorem get_foldl_set (d : PyDict κ α) (key : κ) :
    (items.foldl (fun d item => d.set (f item) (g item)) d).get key =
      match items.reverse.find? fun item => f item = key with
      | some item => some (g item)
      | none => d.get key := by
  induction items generalizing d with
  | nil => rfl
  | cons item items ih =>
    rw [foldl_cons, ih, reverse_cons, find?_append]
    cases hfind : items.reverse.find? fun item => f item = key with
    | some found => rfl
    | none =>
      by_cases hk : f item = key
      · simp [hk]
      · simp [hk, get_set_of_ne d (g item) (Ne.symm hk)]

theorem foldl_set_of_nodup (d : PyDict κ α)
    (h : (d.keys ++ items.map f).Nodup) :
    items.foldl (fun d item => d.set (f item) (g item)) d = d ++ items.map fun item => (f item, g item) := by
  induction items generalizing d with
  | nil => simp
  | cons item items ih =>
    have hnew : f item ∉ d.keys := fun hmem =>
      (nodup_append'.mp h).2.2 hmem (mem_map_of_mem mem_cons_self)
    have hset : d.set (f item) (g item) = d ++ [(f item, g item)] := by
      clear h ih
      induction d with
      | nil => rfl
      | cons entry rest ihd =>
        have hne : entry.1 ≠ f item := fun heq => hnew (mem_cons.mpr (.inl heq.symm))
        rw [set, if_neg hne, ihd fun hmem => hnew (mem_cons_of_mem _ hmem)]
        rfl
    rw [foldl_cons, hset, ih]
    · simp
    · simpa [keys] using h

end Comprehension

end PyDict

end Python
