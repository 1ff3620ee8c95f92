import Mathlib.Data.List.Forall2

/-!
# Records one after another

A log is one record after another, and it is scanned by a parser that takes a record from the front.
Where the parser knows a whole record from what is left of a torn one, the scan of any initial part of
a log finds the records that are whole there (`Frames.scan_take`).
-/

namespace Framing

open List

variable {α β : Type}

/-- Takes records from the front as long as there are any. The fuel bounds their number. -/
def scan (parse : List β → Option (α × Nat)) : Nat → List β → List α
  | 0, _ => []
  | fuel + 1, raw =>
    match parse raw with
    | none => []
    | some (item, size) => item :: scan parse fuel (raw.drop size)

/-- The number of records that are whole in the first `size` places of a log. -/
def wholeRecords : List (List β) → Nat → Nat
  | [], _ => 0
  | record :: records, size =>
    if record.length ≤ size then wholeRecords records (size - record.length) + 1 else 0

theorem wholeRecords_le (records : List (List β)) (size : Nat) :
    wholeRecords records size ≤ records.length := by
  induction records generalizing size with
  | nil => exact Nat.le_refl 0
  | cons record records ih =>
    rw [wholeRecords]
    split
    · exact Nat.succ_le_succ (ih _)
    · exact Nat.zero_le _

theorem wholeRecords_flatten (records : List (List β)) :
    wholeRecords records records.flatten.length = records.length := by
  induction records with
  | nil => rfl
  | cons record records ih =>
    rw [wholeRecords, flatten_cons, length_append, if_pos (Nat.le_add_right _ _),
      Nat.add_sub_cancel_left, ih, length_cons]

/-- The parser finds a record at the front, whatever follows it, and finds none in a part of one. -/
structure Frames (parse : List β → Option (α × Nat)) (encodes : α → List β → Prop) : Prop where
  whole : ∀ item record rest, encodes item record →
    parse (record ++ rest) = some (item, record.length)
  torn : ∀ item record size, encodes item record → size < record.length →
    parse (record.take size) = none
  empty : parse [] = none

namespace Frames

variable {parse : List β → Option (α × Nat)} {encodes : α → List β → Prop}

theorem length_pos (h : Frames parse encodes) {item : α} {record : List β}
    (hrecord : encodes item record) : 0 < record.length := by
  rw [length_pos_iff]
  rintro rfl
  have hnone := h.whole item [] [] hrecord
  rw [nil_append, h.empty] at hnone
  cases hnone

theorem scan_take (h : Frames parse encodes) {items : List α} {records : List (List β)}
    (hrecords : List.Forall₂ encodes items records) (size : Nat) {fuel : Nat}
    (hfuel : (records.flatten.take size).length ≤ fuel) :
    scan parse fuel (records.flatten.take size) = items.take (wholeRecords records size) := by
  induction hrecords generalizing size fuel with
  | nil =>
    rw [flatten_nil, take_nil, take_nil]
    cases fuel with
    | zero => rfl
    | succ fuel => rw [scan, h.empty]
  | @cons item record items records hrecord _ ih =>
    have hpos := h.length_pos hrecord
    rw [flatten_cons, take_append] at hfuel
    rw [flatten_cons, take_append, wholeRecords]
    by_cases hsize : record.length ≤ size
    · rw [take_of_length_le hsize, length_append] at hfuel
      obtain ⟨fuel, rfl⟩ : ∃ n, fuel = n + 1 := ⟨fuel - 1, by omega⟩
      rw [take_of_length_le hsize, if_pos hsize, scan, h.whole item record _ hrecord]
      dsimp only
      rw [drop_left, ih (size - record.length) (by omega), take_succ_cons]
    · have hrest : size - record.length = 0 := by omega
      rw [if_neg hsize, hrest, take_zero, append_nil, take_zero]
      cases fuel with
      | zero => rfl
      | succ fuel => rw [scan, h.torn item record size hrecord (by omega)]

end Frames

end Framing
