import Tds.Framing.Scanning
import Tds.Persistence.Reader
import Tds.Persistence.Writer

/-!
# The write-ahead log

`WriteAheadLog` of `tds_filesystem.py`: every entry is appended as one framed record, and `replay` writes
the records of the log into a directory, from the first one on, until a record is torn or its write
raises. The octets of the file are the concatenation of the records; the file itself, its lock and
`checkpoint` are left out.
-/

namespace Persistence

open Python Process FileSystem Framing

/-- What a payload that cannot be decoded is replaced by. -/
class Results where
  /-- `TDSResult.fail(TDSResultCode.PAYLOAD_DESERIALIZE_ERROR, ...)` as a Python value. -/
  payloadDeserializeError : Bytes → Nat → Value

/-- `WriteAheadLog._MAGIC`. -/
def logMagic : Bytes := [0x57, 0x41, 0x4C, 0x52]

/-- `WriteAheadLog._REC_HDR_SIZE`. -/
def recordHeaderSize : Nat := 12

/-- One unsigned field of `struct.unpack`, which wants all its octets. -/
def unpackField (raw : Bytes) (offset width : Nat) : Option Nat :=
  if offset + width ≤ raw.length then some (unpackUInt raw offset width) else none

/-- A write as the log keeps it. -/
structure LogRecord where
  name : Str
  fmtId : Nat
  tsWritten : Nat
  data : Bytes
deriving DecidableEq

section Log

variable [Runtime] [Objects]

/-- `append`: the record that is written for an entry. -/
def append (entry : Entry) (tsWritten : Nat) : Check Bytes := do
  let name ← encodeText entry.name
  let data ← serializeEntry entry
  let ts ← packUInt 8 tsWritten
  let nameLen ← packUInt 4 name.length
  let fmtId ← packUInt 4 entry.fmtId
  let dataLen ← packUInt 4 data.length
  let body := logMagic ++ nameLen ++ fmtId ++ name ++ ts ++ dataLen ++ data
  return body ++ beBytes 4 (crc32 body).toNat

/-- One pass of the loop of `replay` up to the checksum, on the octets from the cursor on: the record,
and where the next one begins. Anything that raises ends the loop, as a record that is cut off or
damaged does. -/
def parseRecord (raw : Bytes) : Option (LogRecord × Nat) := do
  guard (recordHeaderSize ≤ raw.length)
  guard (raw.take 4 = logMagic)
  let nameLen := unpackUInt raw 4 4
  let fmtId := unpackUInt raw 8 4
  let p := recordHeaderSize
  let name ← decodeUtf8 (sliceBytes raw p (p + nameLen))
  let p := p + nameLen
  let ts ← unpackField raw p 8
  let p := p + 8
  let dataLen ← unpackField raw p 4
  let p := p + 4
  let data := sliceBytes raw p (p + dataLen)
  let p := p + dataLen
  let storedCrc ← unpackField raw p 4
  let p := p + 4
  guard ((crc32 (raw.take (p - 4))).toNat = storedCrc)
  return (⟨name, fmtId, ts, data⟩, p)

variable [Results]

/-- `_deserialize_payload` with the default codec. -/
def decodePayload (data : Bytes) (fmt : Nat) : Value :=
  match plainPayload data fmt [] with
  | none => Results.payloadDeserializeError data fmt
  | some raw =>
    match deserialize raw (baseFmt fmt) with
    | .ok value => value
    | .error _ => Results.payloadDeserializeError data fmt

/-- The write that `replay` makes of a record. -/
def LogRecord.args (record : LogRecord) : WriteArgs where
  name := record.name
  value := decodePayload record.data record.fmtId
  fmtId := baseFmt record.fmtId
  compress := some (isCompressed record.fmtId)

/-- The loop of `replay`. Every record has octets, so there are no more records than octets. -/
def replayFrom (config : RuntimeConfig) : Nat → Bytes → Nat → Method Nat
  | 0, _, replayed => return replayed
  | fuel + 1, raw, replayed =>
    match parseRecord raw with
    | none => return replayed
    | some (record, size) => do
      match ← tryExcept (writeEntry config record.args) with
      | .ok _ => replayFrom config fuel (raw.drop size) (replayed + 1)
      | .error _ => return replayed

/-- `replay`, where `raw` is what the file holds. -/
def replay (config : RuntimeConfig) (raw : Bytes) : Method Nat := replayFrom config raw.length raw 0

/-! ## What a replay is for -/

/-- Writes one after another; the first that raises ends them. -/
def writeAll (config : RuntimeConfig) : List WriteArgs → Method Unit
  | [] => return ()
  | args :: rest => do
    let _ ← writeEntry config args
    writeAll config rest

/-- The write that `replay` makes of an entry that was appended. -/
def replayArgs (entry : Entry) : WriteArgs where
  name := entry.name
  value := match serializeEntry entry with
    | .ok data => decodePayload data entry.fmtId
    | .error _ => .none
  fmtId := baseFmt entry.fmtId
  compress := some (isCompressed entry.fmtId)

/-- The entries are appended one after another, as these records. -/
def Appended (entries : List Entry) (records : List Bytes) : Prop :=
  List.Forall₂ (fun entry raw => ∃ tsWritten, append entry tsWritten = .ok raw) entries records

/-- The payload of the entry is not compressed, or with a codec that the default one undoes. -/
def Undone (entry : Entry) : Prop :=
  isCompressed entry.fmtId = true → ∀ raw stored, Objects.compress entry.codec raw = .ok stored →
    Objects.decompress [] stored = .ok raw

/-- Writes one after another, each under the configuration that is active at its time, and their
entries. -/
def writeEach : List (RuntimeConfig × WriteArgs) → Method (List Entry)
  | [] => return []
  | (config, args) :: rest => do
    let entry ← writeEntry config args
    let entries ← writeEach rest
    return entry :: entries

/-- What a codec reads, it writes such that it reads the same again. -/
def ReadsBack (loads : Bytes → Check Value) (dumps : Value → Check Bytes) : Prop :=
  ∀ raw value out, loads raw = .ok value → dumps value = .ok out → loads out = .ok value

/-- The codecs that are taken as given read back what they write. -/
structure Codecs : Prop where
  json : ReadsBack Objects.jsonLoads Objects.jsonDumps
  numpy : ReadsBack Objects.numpyLoads Objects.numpyDumps
  pickle : ReadsBack Objects.pickleLoads Objects.pickleDumps

/-- What a failed decoding is replaced by is not stored as the value of the entry. -/
def NoReport (entry : Entry) : Prop :=
  ∀ data raw, serialize (Results.payloadDeserializeError data entry.fmtId) (baseFmt entry.fmtId) = .ok raw →
    deserialize raw (baseFmt entry.fmtId) ≠ .ok entry.data

/-- What a replay of the entry stores in a directory without schemas. -/
def replayedValue (config : RuntimeConfig) (entry : Entry) : Check Value :=
  (makeEntry config config.policy (replayArgs entry)).map Entry.data

/-- Where the payload of the entry is compressed, the default codec makes octets of it that decode to
the value, and the codec of the configuration can compress the payload again. -/
def Recoded (config : RuntimeConfig) (entry : Entry) : Prop :=
  isCompressed entry.fmtId = true → ∀ raw stored, serializePayload entry.data entry.fmtId = .ok raw →
    Objects.compress entry.codec raw = .ok stored →
    (∃ plain, Objects.decompress [] stored = .ok plain ∧
      deserialize plain (baseFmt entry.fmtId) = .ok entry.data) ∧
    ∃ again, Objects.compress config.compression raw = .ok again

end Log

end Persistence
