import Tds.Persistence.Format
import Tds.Storage.Volume

/-!
# Writing a snapshot

`TDSWriter` walks a directory tree, puts the payloads and their index into a shadow file that replaces
the data file, and then replaces the sidecar, which has the codec and the content hash of each entry.
The attributes of the directory that the sidecar has beside its name and path are left out.
-/

namespace Persistence

open Python FileSystem Storage

/-- A directory with its subdirectories, by their entries and children in their order. -/
inductive Tree where
  | node (name : Str) (entries : List Entry) (children : List Tree)

def Tree.name : Tree → Str
  | node name _ _ => name

structure SnapshotSlot where
  slotKey : Str
  shortName : Str
  payload : Bytes
  fmtId : Nat
  payloadKind : Str
  contentHash : Str
  rawSize : Nat
  storedSize : Nat
  codec : Str
deriving DecidableEq

/-- The key of an entry in its node. -/
def slotKey (nodePath entryName : Str) : Str := nodePath ++ lit "/" ++ entryName

def snapshotSlot (nodePath : Str) (entry : Entry) (payload : Bytes) : SnapshotSlot where
  slotKey := slotKey nodePath entry.name
  shortName := entry.name
  payload := payload
  fmtId := entry.fmtId
  payloadKind := entry.payloadKind
  contentHash := entry.contentHash
  rawSize := entry.rawSize
  storedSize := if entry.storedSize = 0 then payload.length else entry.storedSize
  codec := entry.codec

/-- The index and the snapshot that the walk builds up, and its cursor. -/
structure Draft where
  records : List SlotRecord
  snapshot : List SnapshotSlot
  cursor : Nat

def Draft.empty : Draft := ⟨[], [], 0⟩

section Writer

variable [Objects]

/-- The payload of an entry, compressed if it is marked. -/
def serializeEntry (entry : Entry) : Check Bytes := do
  let raw ← serializePayload entry.data entry.fmtId
  if isCompressed entry.fmtId then Objects.compress entry.codec raw else return raw

namespace Draft

def addPayload (nodePath : Str) (draft : Draft) (entry : Entry) (payload : Bytes) : Check Draft := do
  let snap := snapshotSlot nodePath entry payload
  let key ← encodeText snap.slotKey
  return {
    records := draft.records ++ [⟨snap.slotKey, hashName key, draft.cursor, payload.length, entry.fmtId⟩]
    snapshot := draft.snapshot ++ [snap]
    cursor := draft.cursor + payload.length }

def add (nodePath : Str) (draft : Draft) (entry : Entry) : Check Draft := do
  let payload ← serializeEntry entry
  draft.addPayload nodePath entry payload

end Draft

mutual

/-- Adds the entries of a tree, a node's own first. -/
def Tree.walk (recurse : Bool) (nodePath : Str) : Tree → Draft → Check Draft
  | .node _ entries children, draft => do
    let draft ← entries.foldlM (Draft.add nodePath) draft
    if recurse then walkAll nodePath children draft else return draft

/-- `_walk` for the children of a node. -/
def walkAll (nodePath : Str) : List Tree → Draft → Check Draft
  | [], draft => return draft
  | child :: children, draft => do
    let draft ← child.walk true (nodePath ++ lit "/" ++ child.name) draft
    walkAll nodePath children draft

end

def entryFields (snapshotEpoch : Nat) (slot : SnapshotSlot) : List (Str × Value) :=
  [(lit "payload_kind", .str slot.payloadKind),
    (lit "content_hash", .str slot.contentHash),
    (lit "raw_size", .int slot.rawSize),
    (lit "stored_size", .int slot.storedSize),
    (lit "codec", .str slot.codec),
    (lit "slot_key", .str slot.slotKey),
    (lit "fmt_id", .int slot.fmtId),
    (lit "snapshot_epoch", .int snapshotEpoch)]

/-- The entries of the sidecar: one for each short name, that of the last slot. -/
def sidecarEntries (snapshotEpoch : Nat) (snapshot : List SnapshotSlot) : PyDict Str Value :=
  snapshot.foldl (fun entries slot =>
    entries.set slot.shortName (.record (entryFields snapshotEpoch slot))) []

def sidecarFields (header : FileHeader) (total : Nat) (name path : Str) (slotCount : Nat)
    (snapshot : List SnapshotSlot) : List (Str × Value) :=
  [(lit "schema", .str (lit "tds.sidecar.v1")),
    (lit "snapshot_epoch", .int header.ts),
    (lit "tds_header_ts", .int header.ts),
    (lit "tds_file_size", .int total),
    (lit "tds_slot_count", .int slotCount),
    (lit "tds_index_offset", .int header.indexOffset),
    (lit "tds_data_offset", .int header.dataOffset),
    (lit "node_name", .str name),
    (lit "node_path", .str path),
    (lit "entries", .record (sidecarEntries header.ts snapshot))]

/-- The files that a writer uses, by their suffixes `.tds`, `.tds~`, `.tds.meta` and `.tds.meta.tmp`. -/
inductive FileName where
  | path | shadow | sidecar | sidecarTmp
deriving DecidableEq

abbrev Writing := VolumeProg FileName PyException

def step (op : VolumeOp FileName) : Writing Unit := Process.Prog.call op

/-- `_finalise`, with what `time.time_ns()` returns. -/
def finalise (draft : Draft) (name path : Str) (ts : Nat) : Writing Nat := do
  let indexBlock ← SlotIndex.toBytes draft.records
  let payloads := draft.snapshot.flatMap SnapshotSlot.payload
  let fileHeader ← buildFileHeader draft.records.length (fileHdrSize + payloads.length) fileHdrSize ts
  let header ← parseFileHeader fileHeader
  let total := fileHeader.length + payloads.length + indexBlock.length
  step (.write .shadow (fileHeader ++ payloads ++ indexBlock))
  step (.sync .shadow)
  step (.replace .shadow .path)
  step .syncDir
  let sidecar ← Objects.jsonDumps
    (.record (sidecarFields header total name path draft.records.length draft.snapshot))
  step (.write .sidecarTmp sidecar)
  step (.sync .sidecarTmp)
  step (.replace .sidecarTmp .sidecar)
  step .syncDir
  return total

/-- `TDSWriter.write`, for the directory with the path `path`. -/
def write (tree : Tree) (path : Str) (recurse : Bool) (ts : Nat) : Writing Nat := do
  let draft ← tree.walk recurse path .empty
  finalise draft tree.name path ts

/-- `TDSWriter.write_parallel`: all payloads are there before the first slot is added. -/
def writeParallel (name : Str) (entries : List Entry) (path : Str) (ts : Nat) : Writing Nat := do
  let payloads ← (entries.mapM serializeEntry : Check (List Bytes))
  let draft ← ((entries.zip payloads).foldlM
    (fun draft item => draft.addPayload path item.1 item.2) .empty : Check Draft)
  finalise draft name path ts

end Writer

end Persistence
