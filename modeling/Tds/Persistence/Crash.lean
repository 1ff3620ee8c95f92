import Tds.Persistence.Proofs.Sidecar

/-!
# Crashes of a writer

A writer that replaces a snapshot renames two files, one after the other. A crash in between leaves the
data file of the new snapshot with the sidecar of the old one; where directories are not synced, also
the other way round. `SameData` says of two snapshots that such a pair does no harm.
-/

namespace Persistence

open Python FileSystem Storage

structure Snapshot where
  slots : List SnapshotSlot
  ts : Nat
  name : Str
  path : Str

/-- The snapshot before a rewrite, and the one that it is replaced by. -/
inductive Side where
  | old | new
deriving DecidableEq

def Side.pick {α : Type} (old new : α) : Side → α
  | .old => old
  | .new => new

/-- The data file of a side may be found after this many steps of the writer. -/
def Side.DataKept (syncs : Bool) (steps : Nat) : Side → Prop
  | .old => steps ≤ 3 ∨ syncs = false
  | .new => 3 ≤ steps

/-- The sidecar of a side may be found after this many steps of the writer; the new one is only written if
it can be encoded. -/
def Side.SidecarKept (syncs encodes : Bool) (steps : Nat) : Side → Prop
  | .old => steps ≤ 7 ∨ syncs = false ∨ encodes = false
  | .new => 7 ≤ steps ∧ encodes = true

namespace Snapshot

def file (s : Snapshot) : Bytes := snapshotFile s.slots s.ts

def document (s : Snapshot) : Value := snapshotSidecar s.slots s.ts s.name s.path

/-- No key is used twice. -/
def Distinct (s : Snapshot) : Prop := (s.slots.map SnapshotSlot.slotKey).Nodup

/-- The slots of two snapshots have the same keys, payloads and formats, in the same places, and the
snapshots the same time stamp. What the sidecar records about the slots may differ. -/
structure SameData (s s' : Snapshot) : Prop where
  ts : s.ts = s'.ts
  slots : List.Forall₂ (fun slot slot' => slot.slotKey = slot'.slotKey ∧ slot.payload = slot'.payload ∧
    slot.fmtId = slot'.fmtId) s.slots s'.slots

end Snapshot

section Readers

variable [Runtime] [Objects]

/-- The reader of the data file of one snapshot and the metadata of another. -/
def mixedReader (fileName : Str) (data metadata : Snapshot) : Reader :=
  ⟨fileName, data.file, snapshotHeader data.slots data.ts, slotRecords 0 data.slots,
    slotMeta metadata.ts metadata.slots, metaBySlotOf (slotMeta metadata.ts metadata.slots)⟩

/-- A reader reads under every name what the reader of the snapshot does. -/
def Reader.Shows (r : Reader) (fileName : Str) (s : Snapshot) : Prop :=
  ∀ name, r.read name none none = (mixedReader fileName s s).read name none none

/-- The data file of one snapshot and the sidecar of another are accepted together, and show the old or the
new snapshot. -/
structure Agree (fileName : Str) (old new data metadata : Snapshot) : Prop where
  distinct : data.Distinct
  epoch : metadata.ts = data.ts
  size : metadata.file.length = data.file.length
  shows : (mixedReader fileName data metadata).Shows fileName old ∨
    (mixedReader fileName data metadata).Shows fileName new

/-- Whatever a crash leaves after this many steps of a writer that replaces the old snapshot by the new
one, the path can be opened and shows one of the two. -/
def AtomicAt (fileName : Str) (syncs : Bool) (old new : Snapshot) (tree : Tree) (recurse : Bool)
    (files : FileName → Option Bytes) (steps : Nat) : Prop :=
  ∀ v', (Process.Prog.after (Volume.exec syncs) steps (write tree new.path recurse new.ts)
      (.settled files)).CrashesTo v' →
    ∃ r, openVolume fileName v' = .ok r ∧ (r.Shows fileName old ∨ r.Shows fileName new)

end Readers

end Persistence
