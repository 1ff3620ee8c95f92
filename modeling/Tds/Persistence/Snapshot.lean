import Tds.Persistence.Mount

/-!
# What a snapshot is for

The slots of a directory tree, and what the sidecar has to say about each of them. It has one record
for each short name, that of the last slot with this name.
-/

namespace Persistence

open Python FileSystem Storage

mutual

/-- The entries that a walk visits, with the paths of their directories. -/
def Tree.visits (recurse : Bool) (nodePath : Str) : Tree → List (Str × Entry)
  | .node _ entries children =>
    entries.map (nodePath, ·) ++ if recurse then visitsAll nodePath children else []

def visitsAll (nodePath : Str) : List Tree → List (Str × Entry)
  | [] => []
  | child :: children =>
    child.visits true (nodePath ++ lit "/" ++ child.name) ++ visitsAll nodePath children

end

def SnapshotSlot.record (slot : SnapshotSlot) (cursor : Nat) : SlotRecord :=
  ⟨slot.slotKey, hashName (slot.slotKey.flatMap encodeUtf8Char), cursor, slot.payload.length, slot.fmtId⟩

def slotRecords : Nat → List SnapshotSlot → List SlotRecord
  | _, [] => []
  | cursor, slot :: slots => slot.record cursor :: slotRecords (cursor + slot.payload.length) slots

def payloads (slots : List SnapshotSlot) : Bytes := slots.flatMap SnapshotSlot.payload

def snapshotHeader (slots : List SnapshotSlot) (ts : Nat) : FileHeader :=
  ⟨fileVersion, slots.length, fileHdrSize + (payloads slots).length, fileHdrSize, ts⟩

/-- A later slot hides earlier ones of its name. -/
def lastSlot (slots : List SnapshotSlot) (shortName : Str) : Option SnapshotSlot :=
  slots.reverse.find? fun slot => slot.shortName = shortName

/-- The slot whose record in the sidecar a reader takes for that of `slot`: its own, unless a later slot
with the same short name has replaced it, and then that of what follows the last slash of its key. -/
def recordedSlot (slots : List SnapshotSlot) (slot : SnapshotSlot) : Option SnapshotSlot :=
  match lastSlot slots slot.shortName with
  | some last =>
    if last.slotKey = slot.slotKey then some last else lastSlot slots (shortNameOf slot.slotKey)
  | none => none

section Restore

variable [Runtime] [Objects]

/-- Serialising the stored value again gives the bytes that were hashed when it was written, and they are
decoded to it; the same for the compressed bytes. -/
def Faithful (entry : Entry) : Prop :=
  ∃ raw, serializePayload entry.data entry.fmtId = .ok raw ∧ (sha256 raw).hex = entry.contentHash ∧
    deserialize raw (baseFmt entry.fmtId) = .ok entry.data ∧
    (isCompressed entry.fmtId = true → ∃ stored, Objects.compress entry.codec raw = .ok stored ∧
      Objects.decompress entry.codec stored = .ok raw)

/-- The payload is decoded to the value with this codec, and has this hash if there is one. -/
def SnapshotSlot.ReadsAs (slot : SnapshotSlot) (codec contentHash : Str) (value : Value) : Prop :=
  ∃ raw, plainPayload slot.payload slot.fmtId codec = some raw ∧
    (contentHash = [] ∨ contentHash = (sha256 raw).hex) ∧
    deserialize raw (baseFmt slot.fmtId) = .ok value

end Restore

/-- The codec and the hash of the record that the sidecar has for a slot. -/
def recordedCodec (slots : List SnapshotSlot) (slot : SnapshotSlot) : Str × Str :=
  match recordedSlot slots slot with
  | some found => (found.codec, found.contentHash)
  | none => ([], [])

def slotOf [Objects] (visit : Str × Entry) : SnapshotSlot :=
  snapshotSlot visit.1 visit.2 ((serializeEntry visit.2).toOption.getD [])

def Tree.slots [Objects] (tree : Tree) (path : Str) : List SnapshotSlot :=
  (tree.visits true path).map slotOf

/-- `TDSReader(path)` on a volume. -/
def openVolume [Objects] (fileName : Str) (v : Volume FileName) : Checked Reader :=
  match v.read .path with
  | some file => openReader fileName file (v.read .sidecar)
  | none => .error (.exception ⟨.other 1, lit "TDS file not found: " ++ fileName⟩)

/-- `load_node(path)` on a volume. -/
def loadVolume [Objects] (fileName stem : Str) (v : Volume FileName) : Checked LoadedNode :=
  match v.read .path with
  | some file => loadNode fileName stem file (v.read .sidecar)
  | none => .error (.exception ⟨.other 1, lit "TDS file not found: " ++ fileName⟩)

end Persistence
