import Mathlib.Data.List.Basic

/-!
# Radix trees

A map from non-empty lists to values as a tree with compressed edges. A child is filed under the first
item of its edge. Looking a key up strips one edge after the other; an insertion follows the same way
and splits the edge on which it has to leave.
-/

namespace Tries

open List

mutual

/-- A node with the edge that leads to it, its value and its children. -/
inductive RadixNode (χ α : Type) where
  | mk (edge : List χ) (value : Option α) (children : RadixChildren χ α)

/-- Children in the order in which they were added, each under its first item. -/
inductive RadixChildren (χ α : Type) where
  | nil
  | cons (first : χ) (child : RadixNode χ α) (others : RadixChildren χ α)

end

variable {χ α : Type}

def RadixNode.edge : RadixNode χ α → List χ
  | .mk edge _ _ => edge

def RadixNode.empty : RadixNode χ α := .mk [] none .nil

section Operations

variable [DecidableEq χ]

def commonPrefix : List χ → List χ → Nat
  | x :: xs, y :: ys => if x = y then commonPrefix xs ys + 1 else 0
  | _, _ => 0

/-- Files a child under an item, in the place of the one that is there. -/
def RadixChildren.set (first : χ) (child : RadixNode χ α) : RadixChildren χ α → RadixChildren χ α
  | .nil => .cons first child .nil
  | .cons other node others =>
    if other = first then .cons other child others else .cons other node (others.set first child)

/-- Cuts the edge of a node after `common` items, and adds the value where a key that leaves there
ends: `suffix` is what is left of the key. -/
def RadixNode.split (common : Nat) (suffix : List χ) (v : α) : RadixNode χ α → RadixNode χ α
  | .mk edge value children =>
    let lower : RadixNode χ α := .mk (edge.drop common) value children
    match edge.drop common, suffix with
    | [], _ => lower
    | old :: _, [] => .mk (edge.take common) (some v) (.cons old lower .nil)
    | old :: _, new :: _ =>
      .mk (edge.take common) none ((RadixChildren.cons old lower .nil).set new (.mk suffix (some v) .nil))

mutual

def RadixNode.insert (v : α) : RadixNode χ α → List χ → RadixNode χ α
  | .mk edge _ children, [] => .mk edge (some v) children
  | .mk edge value children, first :: rest => .mk edge value (children.insert v first rest)

/-- Sets the value of the key `first :: rest`. -/
def RadixChildren.insert (v : α) : RadixChildren χ α → χ → List χ → RadixChildren χ α
  | .nil, first, rest => .cons first (.mk (first :: rest) (some v) .nil) .nil
  | .cons other child others, first, rest =>
    if other = first then
      if commonPrefix (first :: rest) child.edge = child.edge.length then
        .cons other (child.insert v ((first :: rest).drop child.edge.length)) others
      else
        .cons other (child.split (commonPrefix (first :: rest) child.edge)
          ((first :: rest).drop (commonPrefix (first :: rest) child.edge)) v) others
    else .cons other child (others.insert v first rest)

end

mutual

def RadixNode.lookup : RadixNode χ α → List χ → Option α
  | .mk _ value _, [] => value
  | .mk _ _ children, first :: rest => children.lookup first rest

/-- The value of the key `first :: rest`. -/
def RadixChildren.lookup : RadixChildren χ α → χ → List χ → Option α
  | .nil, _, _ => none
  | .cons other child others, first, rest =>
    if other = first then
      if child.edge.isPrefixOf (first :: rest) then
        child.lookup ((first :: rest).drop child.edge.length)
      else none
    else others.lookup first rest

end

end Operations

@[simp] theorem RadixNode.edge_mk (edge : List χ) (value : Option α) (children : RadixChildren χ α) :
    (RadixNode.mk edge value children).edge = edge := rfl

section Proofs

variable [DecidableEq χ]

theorem exists_commonPrefix (xs ys : List χ) : ∃ common left right, xs = common ++ left ∧
    ys = common ++ right ∧ commonPrefix xs ys = common.length ∧
    ∀ x left' y right', left = x :: left' → right = y :: right' → x ≠ y := by
  induction xs generalizing ys with
  | nil => exact ⟨[], [], ys, rfl, rfl, by simp [commonPrefix], by simp⟩
  | cons x xs ih =>
    cases ys with
    | nil => exact ⟨[], x :: xs, [], rfl, rfl, by simp [commonPrefix], by simp⟩
    | cons y ys =>
      by_cases hxy : x = y
      · obtain ⟨common, left, right, hxs, hys, hlength, hne⟩ := ih ys
        refine ⟨x :: common, left, right, ?_, ?_, ?_, hne⟩
        · rw [hxs, cons_append]
        · rw [hys, hxy, cons_append]
        · rw [commonPrefix, if_pos hxy, hlength, length_cons]
      · refine ⟨[], x :: xs, y :: ys, rfl, rfl, ?_, ?_⟩
        · rw [commonPrefix, if_neg hxy, length_nil]
        · rintro _ _ _ _ ⟨⟩ ⟨⟩
          exact hxy

/-- The value that is found by way of a child. -/
def RadixNode.follow (child : RadixNode χ α) (key : List χ) : Option α :=
  if child.edge.isPrefixOf key then child.lookup (key.drop child.edge.length) else none

theorem RadixChildren.lookup_cons (other : χ) (child : RadixNode χ α) (others : RadixChildren χ α)
    (first : χ) (rest : List χ) : (RadixChildren.cons other child others).lookup first rest =
      if other = first then child.follow (first :: rest) else others.lookup first rest := by
  rw [lookup]
  rfl

section Edges

variable {value value' : Option α} {children children' : RadixChildren χ α}

theorem RadixNode.follow_root (edge key : List χ) :
    (RadixNode.mk [] value children).follow key = (RadixNode.mk edge value children).lookup key := by
  cases key <;> simp [follow, lookup]

@[simp] theorem RadixNode.follow_cons_nil (x : χ) (edge : List χ) :
    (RadixNode.mk (x :: edge) value children).follow [] = none := by
  simp [follow]

theorem RadixNode.follow_cons (x y : χ) (edge key : List χ) :
    (RadixNode.mk (x :: edge) value children).follow (y :: key) =
      if x = y then (RadixNode.mk edge value children).follow key else none := by
  have hlookup : ∀ rest, (RadixNode.mk (x :: edge) value children).lookup rest =
      (RadixNode.mk edge value children).lookup rest := by
    rintro (_ | ⟨z, rest⟩) <;> rfl
  by_cases hxy : x = y
  · subst hxy
    simp [follow, hlookup]
  · simp [follow, isPrefixOf, hxy]

/-- What holds at the end of a common part of two edges holds for whole keys. -/
theorem RadixNode.follow_append (common : List χ) {edge suffix : List χ} {v : α}
    (h : ∀ rest, (RadixNode.mk [] value' children').follow rest =
      if rest = suffix then some v else (RadixNode.mk edge value children).follow rest)
    (key : List χ) : (RadixNode.mk common value' children').follow key =
      if key = common ++ suffix then some v
      else (RadixNode.mk (common ++ edge) value children).follow key := by
  induction common generalizing key with
  | nil => exact h key
  | cons x common ih =>
    cases key with
    | nil => simp
    | cons y key =>
      rw [cons_append, cons_append, follow_cons, follow_cons, ih]
      by_cases hxy : x = y
      · simp [hxy]
      · rw [if_neg hxy, if_neg hxy, if_neg fun h => hxy (cons.inj h).1.symm]

end Edges

theorem RadixNode.follow_leaf (edge key : List χ) (v : α) :
    (RadixNode.mk edge (some v) .nil).follow key = if key = edge then some v else none := by
  induction edge generalizing key with
  | nil => cases key <;> simp [follow, lookup, RadixChildren.lookup]
  | cons x edge ih =>
    cases key with
    | nil => simp
    | cons y key =>
      rw [follow_cons, ih]
      by_cases hxy : x = y
      · simp [hxy]
      · rw [if_neg hxy, if_neg fun h => hxy (cons.inj h).1.symm]

/-- Splitting an edge adds the key that leaves there and keeps all others. The rest of the edge and the
rest of the key do not start alike. -/
theorem RadixNode.follow_split (common suffix edge : List χ) (value : Option α) (v : α)
    (children : RadixChildren χ α) (hedge : edge ≠ [])
    (hne : ∀ x left y right, suffix = x :: left → edge = y :: right → x ≠ y) (key : List χ) :
    ((RadixNode.mk (common ++ edge) value children).split common.length suffix v).follow key =
      if key = common ++ suffix then some v
      else (RadixNode.mk (common ++ edge) value children).follow key := by
  obtain ⟨old, edge, rfl⟩ := exists_cons_of_ne_nil hedge
  cases suffix with
  | nil =>
    simp only [split, drop_left, take_left]
    refine follow_append common (fun rest => ?_) key
    rw [follow_root []]
    cases rest with
    | nil => simp [lookup]
    | cons x rest =>
      rw [lookup, RadixChildren.lookup_cons, RadixChildren.lookup, follow_cons]
      by_cases hx : old = x <;> simp [hx]
  | cons new suffix =>
    have hnew : old ≠ new := Ne.symm (hne new suffix old edge rfl rfl)
    simp only [split, drop_left, take_left, RadixChildren.set, if_neg hnew]
    refine follow_append common (fun rest => ?_) key
    rw [follow_root []]
    cases rest with
    | nil => simp [lookup]
    | cons x rest =>
      rw [lookup, RadixChildren.lookup_cons, RadixChildren.lookup_cons, RadixChildren.lookup,
        follow_leaf, follow_cons]
      by_cases hx : old = x
      · simp [hx, hx ▸ hnew]
      · by_cases hx' : new = x <;> simp [hx, hx', eq_comm]

theorem RadixNode.follow_split_commonPrefix (child : RadixNode χ α) (v : α) (key : List χ)
    (h : commonPrefix key child.edge ≠ child.edge.length) (key' : List χ) :
    (child.split (commonPrefix key child.edge) (key.drop (commonPrefix key child.edge)) v).follow key' =
      if key' = key then some v else child.follow key' := by
  obtain ⟨edge, value, children⟩ := child
  obtain ⟨common, left, right, hkey, hedge, hlength, hne⟩ := exists_commonPrefix key edge
  rw [edge_mk] at h ⊢
  have hright : right ≠ [] := by
    rintro rfl
    rw [hlength, hedge, append_nil] at h
    exact h rfl
  rw [hlength, hkey, hedge, drop_left]
  exact follow_split common left right value v children hright hne key'

/-- The same where the key goes on below the child. -/
theorem RadixNode.follow_insert_commonPrefix (child : RadixNode χ α) (v : α) (key : List χ)
    (hinsert : ∀ rest rest', (child.insert v rest).lookup rest' =
      if rest' = rest then some v else child.lookup rest')
    (h : commonPrefix key child.edge = child.edge.length) (key' : List χ) :
    (child.insert v (key.drop child.edge.length)).follow key' =
      if key' = key then some v else child.follow key' := by
  obtain ⟨edge, value, children⟩ := child
  obtain ⟨common, left, right, hkey, hedge, hlength, -⟩ := exists_commonPrefix key edge
  obtain rfl : right = [] := by
    have hlengths := congrArg length hedge
    rw [length_append, ← hlength] at hlengths
    rw [edge_mk] at h
    exact length_eq_zero_iff.mp (by omega)
  rw [append_nil] at hedge
  rw [edge_mk, hkey, hedge, drop_left, ← hedge]
  obtain ⟨value', children', heq⟩ : ∃ value' children',
      (RadixNode.mk edge value children).insert v left = .mk edge value' children' := by
    cases left <;> exact ⟨_, _, rfl⟩
  have hroot : ∀ rest, (RadixNode.mk [] value' children').follow rest =
      if rest = left then some v else (RadixNode.mk [] value children).follow rest := by
    intro rest
    rw [follow_root edge, ← heq, hinsert, follow_root edge]
  rw [heq]
  simpa using follow_append edge hroot key'

mutual

theorem RadixNode.lookup_insert (node : RadixNode χ α) (v : α) (key key' : List χ) :
    (node.insert v key).lookup key' = if key' = key then some v else node.lookup key' := by
  obtain ⟨edge, value, children⟩ := node
  cases key with
  | nil => cases key' <;> simp [RadixNode.insert, RadixNode.lookup]
  | cons first rest =>
    cases key' with
    | nil => simp [RadixNode.insert, RadixNode.lookup]
    | cons first' rest' =>
      rw [RadixNode.insert, RadixNode.lookup, RadixNode.lookup]
      exact RadixChildren.lookup_insert children v first rest first' rest'

theorem RadixChildren.lookup_insert (children : RadixChildren χ α) (v : α) (first : χ)
    (rest : List χ) (first' : χ) (rest' : List χ) :
    (children.insert v first rest).lookup first' rest' =
      if first' :: rest' = first :: rest then some v else children.lookup first' rest' := by
  cases children with
  | nil =>
    rw [RadixChildren.insert, RadixChildren.lookup_cons, RadixNode.follow_leaf,
      RadixChildren.lookup]
    by_cases hfirst : first = first'
    · rw [if_pos hfirst]
    · rw [if_neg hfirst, if_neg fun h => hfirst (cons.inj h).1.symm]
  | cons other child others =>
    rw [RadixChildren.insert]
    by_cases hother : other = first
    · -- the key goes by way of this child
      rw [if_pos hother, ← apply_ite (fun node => RadixChildren.cons other node others),
        RadixChildren.lookup_cons, RadixChildren.lookup_cons]
      by_cases hfirst : other = first'
      · rw [if_pos hfirst, if_pos hfirst]
        split
        · next hcommon =>
          exact RadixNode.follow_insert_commonPrefix child v (first :: rest)
            (RadixNode.lookup_insert child v) hcommon (first' :: rest')
        · next hcommon =>
          exact RadixNode.follow_split_commonPrefix child v (first :: rest) hcommon (first' :: rest')
      · rw [if_neg hfirst, if_neg hfirst, if_neg]
        rintro ⟨⟩
        exact hfirst hother
    · rw [if_neg hother, RadixChildren.lookup_cons, RadixChildren.lookup_cons]
      by_cases hfirst : other = first'
      · rw [if_pos hfirst, if_pos hfirst, if_neg]
        rintro ⟨⟩
        exact hother hfirst
      · rw [if_neg hfirst, if_neg hfirst]
        exact RadixChildren.lookup_insert others v first rest first' rest'

end

end Proofs

end Tries
