import Tds.Python.PyDict

/-!
# The entry cache

`HybridRegistry` keeps at most `capacity` values in a fixed array of slots. When all slots are taken,
the one with the least score gives way. Scores are floating-point numbers that depend on the clock;
which slot has the least one is taken as given.
-/

namespace FileSystem

open Python

/-- A row of `_records`, with the members of `_active` and `_slot_to_key` for the same slot. The
floating-point `count` goes up by one from one, so that it is a number here. -/
structure Slot (κ : Type) where
  count : Nat
  time : Nat
  handle : Nat
  active : Bool
  key : Option κ
deriving DecidableEq

def Slot.empty {κ : Type} : Slot κ := ⟨0, 0, 0, false, none⟩

/-- `np.argmin` over the scores of the records at a time. -/
class Scores where
  /-- The place of the least score, from the counts, times and activity of the records. -/
  argmin : List (Nat × Nat × Bool) → Nat → Nat
  /-- It is a place in the array. -/
  argmin_lt : ∀ records now, records ≠ [] → argmin records now < records.length

/-- `HybridRegistry`, over the type of the keys and of the cached values. -/
structure HybridRegistry (κ α : Type) where
  slots : List (Slot κ)
  keyToSlot : PyDict κ Nat
  handles : PyDict Nat α
  nextHandle : Nat
  size : Nat

namespace HybridRegistry

variable {κ α : Type} [DecidableEq κ]

/-- `HybridRegistry(capacity)` for a positive capacity. -/
def init (capacity : Nat) : HybridRegistry κ α :=
  ⟨List.replicate capacity .empty, [], [], 1, 0⟩

/-- `_free_slot`: the first inactive slot, or else the one with the least score. -/
def freeSlot [Scores] (r : HybridRegistry κ α) (now : Nat) : Nat :=
  match r.slots.findIdx? fun slot => !slot.active with
  | some i => i
  | none => Scores.argmin (r.slots.map fun slot => (slot.count, slot.time, slot.active)) now

def evictSlot (r : HybridRegistry κ α) (i : Nat) : HybridRegistry κ α :=
  match r.slots[i]? with
  | none => r
  | some slot =>
    { slots := r.slots.set i .empty
      keyToSlot := match slot.key with
        | some key => r.keyToSlot.pop key
        | none => r.keyToSlot
      handles := if slot.handle = 0 then r.handles else r.handles.pop slot.handle
      nextHandle := r.nextHandle
      size := if slot.active then r.size - 1 else r.size }

def touch (r : HybridRegistry κ α) (i : Nat) (slot : Slot κ) (now : Nat) : HybridRegistry κ α :=
  { r with slots := r.slots.set i { slot with count := slot.count + 1, time := now } }

def occupy (r : HybridRegistry κ α) (i : Nat) (key : κ) (value : α) (now : Nat) :
    HybridRegistry κ α :=
  { slots := r.slots.set i ⟨1, now, r.nextHandle, true, some key⟩
    keyToSlot := r.keyToSlot.set key i
    handles := r.handles.set r.nextHandle value
    nextHandle := r.nextHandle + 1
    size := r.size + 1 }

/-- `put`, with the times that it and `_free_slot` read from the clock. -/
def put [Scores] (r : HybridRegistry κ α) (key : κ) (value : α) (now scan : Nat) :
    HybridRegistry κ α :=
  match r.keyToSlot.get key with
  | some i =>
    match r.slots[i]? with
    | some slot => { r.touch i slot now with handles := r.handles.set slot.handle value }
    | none => r
  | none =>
    let i := r.freeSlot scan
    match r.slots[i]? with
    | some slot => (if slot.active then r.evictSlot i else r).occupy i key value now
    | none => r

/-- The value that `get` returns. -/
def lookup (r : HybridRegistry κ α) (key : κ) : Option α :=
  match r.keyToSlot.get key with
  | some i =>
    match r.slots[i]? with
    | some slot => if slot.active then r.handles.get slot.handle else none
    | none => none
  | none => none

/-- `get`: a hit counts as a use of the slot. -/
def get (r : HybridRegistry κ α) (key : κ) (now : Nat) : Option α × HybridRegistry κ α :=
  match r.keyToSlot.get key with
  | some i =>
    match r.slots[i]? with
    | some slot => if slot.active then (r.handles.get slot.handle, r.touch i slot now) else (none, r)
    | none => (none, r)
  | none => (none, r)

def remove (r : HybridRegistry κ α) (key : κ) : HybridRegistry κ α :=
  match r.keyToSlot.get key with
  | some i => r.evictSlot i
  | none => r

end HybridRegistry

end FileSystem
