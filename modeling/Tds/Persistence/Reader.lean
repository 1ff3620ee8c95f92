import Tds.Persistence.Format

/-!
# Reading a snapshot

`TDSReader` takes a data file and its sidecar for one snapshot. It checks the header, the index and the
sidecar when it is opened, and the content hash of a payload when it is read. All numbers of a file are
unsigned here, so that the checks for negative ones are left out.
-/

namespace Persistence

open Python FileSystem

/-- The items of a `dict`. -/
abbrev Items := List (Value × Value)

/-- `items.get(key)` for a string key. -/
def itemAt (items : Items) (key : Str) : Option Value :=
  match items with
  | [] => none
  | (.str k, v) :: rest => if k = key then some v else itemAt rest key
  | _ :: rest => itemAt rest key

section Conversions

variable [Objects]

/-- `str(value)`. -/
def pyStr : Value → Str
  | .str s => s
  | value => Objects.strOf value

/-- `int(value)`. -/
def pyInt : Value → Check Int
  | .int i => .ok i
  | value => Objects.intOf value

/-- `str(items.get(key, '') or '')`. -/
def textOr (items : Items) (key : String) : Str :=
  match itemAt items (lit key) with
  | some value => if value.truthy then pyStr value else []
  | none => []

end Conversions

/-- `slot_key.rsplit('/', 1)[-1]`. -/
def shortNameOf (slotKey : Str) : Str := (slotKey.reverse.takeWhile fun c => c ≠ 47).reverse

/-- A `TDSReader` that was opened. -/
structure Reader where
  /-- `path.name`. -/
  fileName : Str
  file : Bytes
  header : FileHeader
  records : List SlotRecord
  /-- `_entry_meta`, which is also `_meta_by_short_name`. -/
  entryMeta : PyDict Str Items
  metaBySlot : PyDict Str Items

/-- What `read` returns. -/
inductive Reading where
  | value (value : Value)
  /-- A `TDSResult` that is not ok. -/
  | failed (code : IntegrityCode) (message : Str)

section Open

variable [Objects]

/-- The parts of the file are where the header says. -/
def validateFileGeometry (header : FileHeader) (fileSize : Nat) : Checked Unit := do
  integrityIf (header.dataOffset < fileHdrSize) .headerCorrupt
    "TDS data_offset points inside the file header"
  integrityIf (header.indexOffset < header.dataOffset) .indexCorrupt
    "TDS index_offset precedes data_offset"
  integrityIf (fileSize < header.indexOffset) .indexCorrupt "TDS index_offset points past EOF"

/-- The payloads are inside their part of the file. -/
def validateSlotGeometry (header : FileHeader) : List SlotRecord → Checked Unit
  | [] => .ok ()
  | record :: records => do
    let dataLen := header.indexOffset - header.dataOffset
    integrityIf (dataLen < record.offset ∨ dataLen < record.offset + record.length) .slotBoundsError
      "Slot payload range extends outside data block"
    validateSlotGeometry header records

/-- `if value is not None and int(value) != expected: _raise_integrity(...)`. -/
def checkEpoch (value : Option Value) (expected : Nat) (message : String) : Checked Unit :=
  match value with
  | none => .ok ()
  | some .none => .ok ()
  | some value => do
    let found ← plainly (pyInt value)
    integrityIf (found ≠ expected) .snapshotEpochMismatch message

/-- `entry_meta`: the items that are a `dict`. -/
def entryMetaOf (entries : Items) : PyDict Str Items :=
  entries.foldl (fun entryMeta item => match item.2 with
    | .dict fields => entryMeta.set (pyStr item.1) fields
    | _ => entryMeta) []

/-- `str(fields.get('slot_key', ''))`. -/
def slotKeyOf (fields : Items) : Str :=
  match itemAt fields (lit "slot_key") with
  | some value => pyStr value
  | none => []

/-- `meta_by_slot`: of two entries with one slot key the first one is found. -/
def metaBySlotOf (entryMeta : PyDict Str Items) : PyDict Str Items :=
  entryMeta.foldl (fun metaBySlot item =>
    let key := slotKeyOf item.2
    if key = [] ∨ (metaBySlot.get key).isSome then metaBySlot else metaBySlot.set key item.2) []

/-- `meta.get('entries', {}) or {}`, if that is a `dict`. -/
def entriesOf (fields : Items) : Option Items :=
  match itemAt fields (lit "entries") with
  | none => some []
  | some value => if value.truthy then
      match value with
      | .dict items => some items
      | _ => none
    else some []

/-- `_load_sidecar`, for the contents of the sidecar if there is one. -/
def loadSidecar (header : FileHeader) (fileSize : Nat) (sidecar : Option Bytes) :
    Checked (PyDict Str Items) :=
  match sidecar with
  | none => do
    integrityIf (2 ≤ header.version) .sidecarCorrupt "Required TDS v2 integrity sidecar is missing"
    return []
  | some raw =>
    match Objects.jsonLoads raw with
    | .ok (.dict fields) => do
      checkEpoch (itemAt fields (lit "tds_header_ts")) header.ts
        "TDS data file and sidecar metadata describe different snapshots"
      checkEpoch (itemAt fields (lit "tds_file_size")) fileSize
        "TDS data file size and sidecar metadata size disagree"
      match entriesOf fields with
      | some entries => return entryMetaOf entries
      | none => .error (.integrity .sidecarCorrupt (lit "TDS sidecar entries field is not an object"))
    | _ => .error (.integrity .sidecarCorrupt (lit "TDS sidecar metadata could not be parsed"))

/-- The part of `_open` that looks at the data file only. -/
def openData (file : Bytes) : Checked (FileHeader × List SlotRecord) := do
  integrityIf (file.length < fileHdrSize) .headerCorrupt
    "TDS file is smaller than the fixed file header"
  let header ← (parseFileHeader (file.take fileHdrSize)).mapError fun e =>
    .integrity .headerCorrupt e.message
  validateFileGeometry header file.length
  let records ← SlotIndex.fromBytes (file.drop header.indexOffset) header.slotCount
  validateSlotGeometry header records
  return (header, records)

/-- `TDSReader(path)`, for the contents of the file and of its sidecar. -/
def openReader (fileName : Str) (file : Bytes) (sidecar : Option Bytes) : Checked Reader := do
  let (header, records) ← openData file
  let entryMeta ← loadSidecar header file.length sidecar
  return ⟨fileName, file, header, records, entryMeta, metaBySlotOf entryMeta⟩

end Open

namespace Reader

variable [Runtime] [Objects]

def metaForSlot (r : Reader) (slotKey : Str) : Items :=
  match r.metaBySlot.get slotKey with
  | some fields => fields
  | none => (r.entryMeta.get (shortNameOf slotKey)).getD []

/-- The octets of a slot. -/
def storedPayload (r : Reader) (record : SlotRecord) : Checked Bytes := do
  let start := r.header.dataOffset + record.offset
  let stop := start + record.length
  integrityIf (r.header.indexOffset < stop ∨ r.file.length < stop) .slotBoundsError
    "Slot payload range failed read-time bounds validation"
  let payload := (r.file.drop start).take record.length
  integrityIf (payload.length ≠ record.length) .slotBoundsError "Short payload read from memory map"
  return payload

end Reader

section Read

variable [Runtime] [Objects]

/-- `_plain_payload_for_hash`. -/
def plainPayload (stored : Bytes) (fmt : Nat) (codec : Str) : Option Bytes :=
  if isCompressed fmt then
    match Objects.decompress codec stored with
    | .ok raw => some raw
    | .error _ => none
  else some stored

/-- The value in a payload, or why it cannot be read. -/
def readSnapshot (stored : Bytes) (fmt : Nat) (codec expectedHash : Str) : Reading :=
  match plainPayload stored fmt codec with
  | none => .failed .codecUnavailable
      (lit "Compressed payload could not be decoded with its persisted codec.")
  | some raw =>
    if expectedHash ≠ [] ∧ (sha256 raw).hex ≠ expectedHash then
      .failed .payloadHashMismatch (lit "Persisted payload content_hash mismatch; data not returned.")
    else
      match deserialize raw (baseFmt fmt) with
      | .ok value => .value value
      | .error _ => .failed .payloadDeserializeError (lit "Payload could not be deserialized.")

def Reader.read (r : Reader) (name : Str) (codec contentHash : Option Str) : Checked Reading :=
  match SlotIndex.lookup r.records name with
  | none => .error (.exception ⟨.keyError, lit "Entry '" ++ name ++ lit "' not found in " ++
      Objects.reprOf (.str r.fileName)⟩)
  | some record => do
    let fields := r.metaForSlot name
    let codec := codec.getD (textOr fields "codec")
    let expectedHash := contentHash.getD (textOr fields "content_hash")
    let stored ← r.storedPayload record
    return readSnapshot stored record.fmtId codec expectedHash

end Read

/-! ## Fields of a document -/

/-- `items.get(key)`. -/
def field (items : Items) (key : String) : Option Value := itemAt items (lit key)

/-- The value if it is an `int`; a `bool` is one. -/
def asInt : Value → Option Int
  | .int i => some i
  | .bool b => some (if b then 1 else 0)
  | _ => none

def isText (value : Value) (text : String) : Bool :=
  match value with
  | .str s => s = lit text
  | _ => false

theorem isText_iff {value : Value} {text : String} : isText value text = true ↔ value = .str (lit text) := by
  cases value <;> simp [isText]

end Persistence
