import Tds.FileSystem.Text
import Tds.Python.Struct

/-!
# The file format

A `.tds` file is a header of 44 octets, the payloads one after the other, and the slot index that says
where each of them is. Diagnostics beside the code and the message of an error are left out.
-/

namespace Persistence

open Python FileSystem

/-- The members of `TDSResultCode` that the persistence layer uses. -/
inductive IntegrityCode where
  | headerCorrupt | indexCorrupt | slotBoundsError | sidecarCorrupt | snapshotEpochMismatch
  | codecUnavailable | payloadHashMismatch | payloadDeserializeError
deriving DecidableEq

inductive Fault where
  /-- `TDSPersistenceIntegrityError`. -/
  | integrity (code : IntegrityCode) (message : Str)
  | exception (e : PyException)
deriving DecidableEq

abbrev Checked := Except Fault

/-- `if condition: _raise_integrity(code, message)`. -/
def integrityIf (condition : Prop) [Decidable condition] (code : IntegrityCode) (message : String) :
    Checked Unit :=
  if condition then .error (.integrity code (lit message)) else .ok ()

def plainly {α : Type} (x : Check α) : Checked α := x.mapError .exception

/-! ## The header -/

def fileMagic : Bytes := [84, 68, 83, 88]

def fileVersion : Nat := 2

def fileHdrSize : Nat := 44

/-- `struct.error`. -/
def structError : ExceptionType := .other 0

/-- An unsigned field of `struct.pack`. -/
def packUInt (width n : Nat) : Check Bytes :=
  if n < 256 ^ width then .ok (beBytes width n)
  else raise structError (lit "argument out of range")

/-- What `_parse_file_header` returns. -/
structure FileHeader where
  version : Nat
  slotCount : Nat
  indexOffset : Nat
  dataOffset : Nat
  ts : Nat
deriving DecidableEq

/-- `struct.pack(FILE_HDR_FMT, magic, ...)` with the magic number of the format. -/
def packFileHeader (header : FileHeader) (crc : Nat) : Check Bytes := do
  let version ← packUInt 4 header.version
  let slotCount ← packUInt 8 header.slotCount
  let indexOffset ← packUInt 8 header.indexOffset
  let dataOffset ← packUInt 8 header.dataOffset
  let ts ← packUInt 8 header.ts
  let crc ← packUInt 4 crc
  return fileMagic ++ version ++ slotCount ++ indexOffset ++ dataOffset ++ ts ++ crc

/-- `_build_file_header`, with what `time.time_ns()` returns. -/
def buildFileHeader (slotCount indexOffset dataOffset ts : Nat) : Check Bytes := do
  let header : FileHeader := ⟨fileVersion, slotCount, indexOffset, dataOffset, ts⟩
  let raw ← packFileHeader header 0
  packFileHeader header (crc32 raw).toNat

/-- Reads a header and checks it. -/
def parseFileHeader [Objects] (raw : Bytes) : Check FileHeader := do
  raiseIf (raw.length < fileHdrSize) .valueError (lit "Buffer too short for TDS file header")
  let magic := raw.take 4
  let version := unpackUInt raw 4 4
  raiseIf (magic ≠ fileMagic) .valueError (lit "Bad file magic: " ++ Objects.reprOf (.bytes magic))
  raiseIf (version ≠ 1 ∧ version ≠ fileVersion) .valueError
    (lit "Unsupported TDS file version: " ++ printNat version)
  let header : FileHeader :=
    ⟨version, unpackUInt raw 8 8, unpackUInt raw 16 8, unpackUInt raw 24 8, unpackUInt raw 32 8⟩
  let check ← packFileHeader header 0
  raiseIf ((crc32 check).toNat ≠ unpackUInt raw 40 4) .valueError (lit "File header CRC mismatch")
  return header

/-! ## The slot index -/

/-- Where the payload of a slot is. -/
structure SlotRecord where
  name : Str
  nameHash : Nat
  offset : Nat
  length : Nat
  fmtId : Nat
deriving DecidableEq

def slotFixedSize : Nat := 24

/-- `zlib.adler32(name) & 0x7FFFFFFFFFFFFFFF`. -/
def hashName (name : Bytes) : Nat := adler32 name % 2 ^ 63

/-- `(n >> shift) & 0xFF`. -/
def octetAt (n shift : Nat) : UInt8 := UInt8.ofNat (n >>> shift)

/-- The 24 octets that `_pack_slot_fixed_batch` fills for one record. -/
def packSlotFixed (nameHash offset length fmtId nameLen : Nat) : Bytes :=
  [octetAt nameHash 56, octetAt nameHash 48, octetAt nameHash 40, octetAt nameHash 32,
    octetAt nameHash 24, octetAt nameHash 16, octetAt nameHash 8, octetAt nameHash 0,
    octetAt offset 56, octetAt offset 48, octetAt offset 40, octetAt offset 32,
    octetAt offset 24, octetAt offset 16, octetAt offset 8, octetAt offset 0,
    octetAt length 24, octetAt length 16, octetAt length 8, octetAt length 0,
    octetAt fmtId 8, octetAt fmtId 0,
    octetAt nameLen 8, octetAt nameLen 0]

def writeOctets (out : Bytes) (start : Nat) : Bytes → Bytes
  | [] => out
  | octet :: octets => writeOctets (out.set start octet) (start + 1) octets

/-- The fixed fields of a record: `name_hash`, `offset`, `length`, `fmt_id` and `name_len`. -/
structure SlotFixed where
  nameHash : Nat
  offset : Nat
  length : Nat
  fmtId : Nat
  nameLen : Nat

/-- The loop of `_pack_slot_fixed_batch` from the record `i` on. -/
def packSlotFixedBatch : List SlotFixed → Nat → Bytes → Bytes
  | [], _, out => out
  | row :: rows, i, out => packSlotFixedBatch rows (i + 1) (writeOctets out (i * slotFixedSize)
      (packSlotFixed row.nameHash row.offset row.length row.fmtId row.nameLen))

/-- `struct.pack('>QQIHH', ...)`. -/
def SlotFixed.structPack (row : SlotFixed) : Check Bytes := do
  let nameHash ← packUInt 8 row.nameHash
  let offset ← packUInt 8 row.offset
  let length ← packUInt 4 row.length
  let fmtId ← packUInt 2 row.fmtId
  let nameLen ← packUInt 2 row.nameLen
  return nameHash ++ offset ++ length ++ fmtId ++ nameLen

/-- The last loop of `to_bytes`: each fixed part is followed by its name. -/
def interleave : Bytes → List Bytes → Bytes
  | _, [] => []
  | fixed, name :: names => fixed.take slotFixedSize ++ name ++ interleave (fixed.drop slotFixedSize) names

namespace SlotRecord

variable [Objects]

/-- The checks of `to_bytes` for one record. -/
def checkRange (record : SlotRecord) (name : Bytes) : Check Unit := do
  let refuse (what : String) := lit what ++ lit " for TDS v1 slot: " ++ Objects.reprOf (.str record.name)
  raiseIf (0xFFFF < name.length) .valueError (refuse "Slot name too long")
  raiseIf (0xFFFFFFFF < record.length) .valueError (refuse "Slot payload too large")
  raiseIf (0xFFFFFFFFFFFFFFFF < record.offset) .valueError (refuse "Slot offset too large")
  raiseIf (0xFFFF < record.fmtId) .valueError (refuse "Slot fmt_id out of range")

def pack (record : SlotRecord) (name : Bytes) : Bytes :=
  packSlotFixed record.nameHash record.offset record.length record.fmtId name.length ++ name

end SlotRecord

namespace SlotIndex

variable [Objects]

/-- `to_bytes`, of the records of an index. -/
def toBytes (records : List SlotRecord) : Check Bytes := do
  let names ← records.mapM fun record => encodeText record.name
  let _ ← (records.zip names).mapM fun item => item.1.checkRange item.2
  return (records.zip names).flatMap fun item => item.1.pack item.2

/-- One round of the loop of `from_bytes`: a record, and what comes after it. -/
def readRecord (buf : Bytes) : Checked (SlotRecord × Bytes) := do
  integrityIf (buf.length < slotFixedSize) .indexCorrupt "Incomplete fixed slot header in TDS index"
  let nameHash := unpackUInt buf 0 8
  let nameLen := unpackUInt buf 22 2
  let rest := buf.drop slotFixedSize
  integrityIf (rest.length < nameLen) .indexCorrupt "Incomplete variable slot-name bytes in TDS index"
  let rawName := rest.take nameLen
  match decodeUtf8 rawName with
  | none => .error (.integrity .indexCorrupt (lit "Slot name is not valid UTF-8"))
  | some name =>
    integrityIf (nameHash ≠ hashName rawName) .indexCorrupt "Slot name_hash mismatch"
    return (⟨name, nameHash, unpackUInt buf 8 8, unpackUInt buf 16 4, unpackUInt buf 20 2⟩,
      rest.drop nameLen)

/-- The loop of `from_bytes`: as many records as are asked for, and what comes after them. -/
def readRecords : Nat → List Str → Bytes → Checked (List SlotRecord × Bytes)
  | 0, _, buf => .ok ([], buf)
  | n + 1, seen, buf => do
    let (record, rest) ← readRecord buf
    integrityIf (record.name ∈ seen) .indexCorrupt "Duplicate slot name in TDS index"
    let (records, rest) ← readRecords n (record.name :: seen) rest
    return (record :: records, rest)

/-- The records of an index that has nothing after them. -/
def fromBytes (buf : Bytes) (slotCount : Nat) : Checked (List SlotRecord) := do
  let (records, rest) ← readRecords slotCount [] buf
  integrityIf (rest ≠ []) .indexCorrupt "Trailing bytes after declared TDS slot index"
  integrityIf (records.length ≠ slotCount) .indexCorrupt
    "Parsed slot count does not match file header"
  return records

/-- `lookup`: a later record of the same name hides an earlier one. -/
def lookup (records : List SlotRecord) (name : Str) : Option SlotRecord :=
  records.reverse.find? fun record => record.name = name

end SlotIndex

end Persistence
