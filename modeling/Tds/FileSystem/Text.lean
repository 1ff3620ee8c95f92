import Tds.FileSystem.Directory

/-!
# Text, JSON and chunked text

The methods of the directory that store whole documents. A chunked text is a manifest under the name
of the text and one text entry for each chunk; the names of the chunks begin with a checksum of the
name of the text.
-/

namespace FileSystem

open Python Process

/-- The members of `TDSResultCode` that the methods here return. -/
inductive ResultCode where
  | readOk | readMissing | readError | writeOk | writeError | deleteOk | deleteMissing | deleteError
  | jsonExists | jsonWritten | jsonOverwritten
  | textTypeError | textExists | textWritten | textOverwritten
  | textChunkSizeInvalid | textChunkWriteError
  | textChunkedWritten | textChunkedOverwritten | textReadOk | textReadError
  | varExists | varAdded | varLocked | varUnlocked | varCreated | varEdited | varMissing
  | varInvalidName | varChainCollision | varStalked | varStalkCleared | varNoop | varFound
deriving DecidableEq

/-- `TDSResult`, without the diagnostics in `meta`. -/
structure Result where
  ok : Bool
  code : ResultCode
  message : Str
  name : Str
  path : Str
  value : Value

namespace Result

def success (self : Self) (code : ResultCode) (message : String) (name : Str)
    (value : Value := .none) : Result :=
  ⟨true, code, lit message, name, self.path, value⟩

def fail (self : Self) (code : ResultCode) (message : String) (name : Str) : Result :=
  ⟨false, code, lit message, name, self.path, .none⟩

/-- `TDSResult.from_exception`; the text of a `KeyError` is the `repr` of its message. -/
def fromException [Objects] (self : Self) (code : ResultCode) (exception : PyException) (name : Str) :
    Result :=
  let message := match exception.type with
    | .keyError => Objects.reprOf (.str exception.message)
    | _ => exception.message
  ⟨false, code, message, name, self.path, .none⟩

end Result

/-! ## UTF-8 chunks -/

/-- `continuation(offset)` of `_sequence_length`. -/
def continuation (data : Bytes) (offset : Nat) : Check UInt8 :=
  match data[offset]? with
  | none => raise .unicodeDecodeError (lit "unexpected end of data")
  | some octet =>
    if octet < 0x80 || 0xBF < octet then raise .unicodeDecodeError (lit "invalid continuation byte")
    else .ok octet

/-- `_sequence_length` of the data from a position on. -/
def sequenceLength (data : Bytes) : Check Nat :=
  match data with
  | [] => raise .valueError (lit "index out of range")
  | lead :: _ =>
    if lead ≤ 0x7F then .ok 1
    else if 0xC2 ≤ lead && lead ≤ 0xDF then do
      let _ ← continuation data 1
      return 2
    else if lead = 0xE0 then do
      let second ← continuation data 1
      let _ ← continuation data 2
      raiseIf (second < 0xA0) .unicodeDecodeError (lit "invalid overlong encoding")
      return 3
    else if (0xE1 ≤ lead && lead ≤ 0xEC) || (0xEE ≤ lead && lead ≤ 0xEF) then do
      let _ ← continuation data 1
      let _ ← continuation data 2
      return 3
    else if lead = 0xED then do
      let second ← continuation data 1
      let _ ← continuation data 2
      raiseIf (0x9F < second) .unicodeDecodeError (lit "UTF-8 surrogate encoding")
      return 3
    else if lead = 0xF0 then do
      let second ← continuation data 1
      let _ ← continuation data 2
      let _ ← continuation data 3
      raiseIf (second < 0x90) .unicodeDecodeError (lit "invalid overlong encoding")
      return 4
    else if 0xF1 ≤ lead && lead ≤ 0xF3 then do
      let _ ← continuation data 1
      let _ ← continuation data 2
      let _ ← continuation data 3
      return 4
    else if lead = 0xF4 then do
      let second ← continuation data 1
      let _ ← continuation data 2
      let _ ← continuation data 3
      raiseIf (0x8F < second) .unicodeDecodeError (lit "code point exceeds U+10FFFF")
      return 4
    else raise .unicodeDecodeError (lit "invalid start byte")

/-- The loop of `utf8_chunk_bounds_python`, on the data from `position` on. The fuel is the number of
octets left. -/
def scanBounds (chunkSize : Nat) : Nat → Bytes → Nat → Nat → Check (List Nat)
  | 0, _, _, _ => .ok []
  | fuel + 1, rest, position, chunkStart =>
    if rest = [] then .ok []
    else do
      let width ← sequenceLength rest
      let cut := chunkStart < position ∧ chunkSize < position + width - chunkStart
      let start := if cut then position else chunkStart
      let next := position + width
      let full := chunkSize ≤ next - start
      let bounds ← scanBounds chunkSize fuel (rest.drop width) next (if full then next else start)
      return (if cut then [position] else []) ++ (if full then [next] else []) ++ bounds

/-- `utf8_chunk_bounds_python`. -/
def utf8ChunkBounds (data : Bytes) (chunkSize : Nat) : Check (List Nat) := do
  let bounds ← scanBounds chunkSize data.length data 0 0
  return if bounds.getLast? ≠ some data.length ∧ data ≠ [] then bounds ++ [data.length] else bounds

/-- `data[start:end]`. -/
def sliceBytes (data : Bytes) (start stop : Nat) : Bytes := (data.take stop).drop start

/-- `chunk.decode("utf-8")`. -/
def decodeChunk (chunk : Bytes) : Check Str :=
  match decodeUtf8 chunk with
  | some text => .ok text
  | none => raise .unicodeDecodeError (lit "invalid UTF-8")

/-- The bounds cut the data into chunks. -/
def validateBounds (data : Bytes) (chunkSize : Nat) : List Nat → Nat → Check Unit
  | [], start =>
    raiseIf (start ≠ data.length) .valueError
      (lit "native UTF-8 boundaries do not cover the full input")
  | stop :: bounds, start => do
    raiseIf (stop ≤ start ∨ data.length < stop) .valueError
      (lit "native UTF-8 boundaries are not strictly increasing")
    let chunk := sliceBytes data start stop
    let text ← decodeChunk chunk
    raiseIf (chunkSize < chunk.length ∧ (text.length ≠ 1 ∨ 4 < chunk.length)) .valueError
      (lit "native UTF-8 chunk exceeds the qualified budget")
    validateBounds data chunkSize bounds stop

/-- The loop of `_split_utf8_chunks_with_evidence`. -/
def splitAtBounds (data : Bytes) : List Nat → Nat → Check (List Bytes)
  | [], start => do
    raiseIf (start ≠ data.length) .valueError
      (lit "UTF-8 chunk boundaries do not cover the full input")
    return []
  | stop :: bounds, start => do
    raiseIf (stop ≤ start ∨ data.length < stop) .valueError
      (lit "UTF-8 chunk boundaries are not strictly increasing")
    let chunk := sliceBytes data start stop
    let _ ← decodeChunk chunk
    let chunks ← splitAtBounds data bounds stop
    return chunk :: chunks

/-- `_split_utf8_chunks_with_evidence` for a positive size, without the name of the backend. -/
def splitUtf8Chunks (data : Bytes) (chunkSize : Nat) : Check (List Bytes) := do
  let bounds ← utf8ChunkBounds data chunkSize
  validateBounds data chunkSize bounds 0
  splitAtBounds data bounds 0

/-! ## Checksums -/

/-- The legacy checksum. -/
def fnv1a32 (payload : Bytes) : Nat :=
  let value := payload.foldl (fun value octet => (value ^^^ octet.toNat) * 16777619 % 2 ^ 32) 2166136261
  if value = 0 then 1 else value

/-- The members of `CHECKSUM32_ALGORITHMS`. -/
inductive ChecksumAlgorithm where
  | crc32IeeeV1
  | fnv1a32LegacyV1
deriving DecidableEq

namespace ChecksumAlgorithm

def name : ChecksumAlgorithm → Str
  | crc32IeeeV1 => lit "crc32-ieee-v1"
  | fnv1a32LegacyV1 => lit "fnv1a32-legacy-v1"

/-- `checksum32_python`. -/
def checksum (algorithm : ChecksumAlgorithm) (payload : Bytes) : Nat :=
  match algorithm with
  | crc32IeeeV1 => (crc32 payload).toNat
  | fnv1a32LegacyV1 => fnv1a32 payload

/-- `normalize_checksum32_algorithm` of a string. -/
def normalize [Objects] (algorithm : Str) : Check ChecksumAlgorithm :=
  if algorithm = crc32IeeeV1.name then .ok crc32IeeeV1
  else if algorithm = fnv1a32LegacyV1.name then .ok fnv1a32LegacyV1
  else raise .checksumAlgorithmError (lit "unsupported checksum algorithm: " ++
    Objects.reprOf (.str algorithm))

/-- `manifest_checksum32_algorithm`. -/
def ofManifest [Objects] (manifest : List (Value × Value)) : Check ChecksumAlgorithm :=
  match Value.getItem manifest "chunk_checksum_algorithm" with
  | some .none | none =>
    let backend := match Value.getItem manifest "chunk_checksum_backend" with
      | some value => Objects.strOf value
      | none => lit "python"
    .ok (if backend = lit "native" then fnv1a32LegacyV1 else crc32IeeeV1)
  | some explicit => normalize (Objects.strOf explicit)

end ChecksumAlgorithm

section Methods

variable [Runtime] [Objects]

def utf8ChunkContract : Str := lit "strict-rfc3629-complete-codepoints-v1"

/-- `try: ... except Exception as exc`. -/
def tryExcept {α : Type} (method : Method α) : Method (Check α) := method.attempt fun r => .done (.ok r)

def writeJson (self : Self) (config : RuntimeConfig) (name : Str) (value : Value)
    (overwrite : Bool) (compress : Option Bool) (codec : Str) : Method Result := do
  let exists_ ← exists? name
  if exists_ && !overwrite then
    return .fail self .jsonExists "JSON entry already exists; use overwrite=True to replace." name
  else
    let _ ← writeEntry config ⟨name, value, jsonUtf8, compress, codec⟩
    return .success self (if exists_ then .jsonOverwritten else .jsonWritten) "JSON entry stored."
      name value

def writeText (self : Self) (config : RuntimeConfig) (name : Str) (text : Value) (overwrite : Bool)
    (compress : Option Bool) (codec : Str) : Method Result := do
  match text with
  | .str _ =>
    let exists_ ← exists? name
    if exists_ && !overwrite then
      return .fail self .textExists "Text entry already exists; use overwrite=True to replace." name
    else
      let _ ← writeEntry config ⟨name, text, textUtf8, compress, codec⟩
      return .success self (if exists_ then .textOverwritten else .textWritten) "Text entry stored."
        name text
  | _ => return .fail self .textTypeError "Text entries require str data." name

def hex8 (n : Nat) : Str := (List.range 8).reverse.map fun i => hexDigit (n / 16 ^ i % 16)

/-- What the names of the chunks start with. -/
def textChunkPrefix (key : Key) : Str :=
  lit ".__tds_chunk__" ++ hex8 (adler32 key.bytes) ++ lit "_"

/-- `f"{i:06d}"`. -/
def pad6 (i : Nat) : Str := List.replicate (6 - (printNat i).length) 48 ++ printNat i

/-- `f"{prefix}{i:06d}"`. -/
def chunkName (key : Key) (i : Nat) : Str := textChunkPrefix key ++ pad6 i

/-- `value.get('kind') == 'TEXT_CHUNKED_UTF8'`. -/
def isChunkManifest (items : List (Value × Value)) : Bool :=
  match Value.getItem items "kind" with
  | some (.str s) => s == lit "TEXT_CHUNKED_UTF8"
  | _ => false

/-- The items of `value.get('chunks', []) or []`. -/
def listedChunks (items : List (Value × Value)) : Check (List Value) :=
  match Value.getItem items "chunks" with
  | none => .ok []
  | some chunks => if chunks.truthy then chunks.items else .ok []

def nameOf (value : Value) : Check Str :=
  match value with
  | .str name => .ok name
  | value => raise .attributeError (value.typeName ++ lit " object has no attribute 'encode'")

def deleteExisting (name : Str) : Method Unit := do
  if ← exists? name then deleteEntry name else return ()

/-- The chunks of the manifest that is replaced are deleted, as far as they exist. -/
def deleteChunks : List Value → Method Unit
  | [] => pure ()
  | chunk :: chunks => do
    let name ← nameOf chunk
    deleteExisting name
    deleteChunks chunks

/-- The chunks that a value lists are deleted, if it is the manifest of a chunked text. -/
def deleteChunksOf : Value → Method Unit
  | .dict items =>
    if isChunkManifest items then do
      let chunks ← listedChunks items
      deleteChunks chunks
    else pure ()
  | _ => pure ()

/-- `write_text_chunked` removes the chunks of a manifest that it is going to replace. -/
def removePriorChunks (self : Self) (name : Str) (exists_ : Bool) : Method Unit :=
  if exists_ then do
    let _ ← tryExcept do
      let prior ← readValue self name
      deleteChunksOf prior
    return ()
  else return ()

/-- The chunks are written one by one; the exception of the first that fails. -/
def writeChunks (config : RuntimeConfig) (key : Key) (compress : Option Bool) (codec : Str) :
    List Bytes → Nat → Method (Option PyException)
  | [], _ => return none
  | chunk :: chunks, i => do
    let written ← tryExcept do
      let text ← decodeChunk chunk
      writeEntry config ⟨chunkName key i, .str text, textUtf8, compress, codec⟩
    match written with
    | .ok _ => writeChunks config key compress codec chunks (i + 1)
    | .error e => return some e

def manifestFields (key : Key) (chunkSize : Nat) (raw : Bytes) (chunks : List Bytes) :
    List (Str × Value) :=
  [(lit "kind", .str (lit "TEXT_CHUNKED_UTF8")),
    (lit "name", .str key.val),
    (lit "chunk_size", .int chunkSize),
    (lit "chunk_size_unit", .str (lit "utf8_bytes")),
    (lit "chunks", .list ((List.range chunks.length).map fun i => .str (chunkName key i))),
    (lit "content_hash", .str (sha256 raw).hex),
    (lit "raw_size", .int raw.length),
    (lit "chunk_count", .int chunks.length),
    (lit "chunk_checksums32",
      .list (chunks.map fun chunk => .int (ChecksumAlgorithm.crc32IeeeV1.checksum chunk))),
    (lit "chunk_checksum_algorithm", .str ChecksumAlgorithm.crc32IeeeV1.name),
    (lit "chunk_checksum_backend", .str (lit "python")),
    (lit "chunk_boundary_contract", .str utf8ChunkContract),
    (lit "chunk_boundary_backend", .str (lit "python"))]

/-- The value under the name of a text in chunks. -/
def chunkManifest (key : Key) (chunkSize : Nat) (raw : Bytes) (chunks : List Bytes) : Value :=
  .record (manifestFields key chunkSize raw chunks)

/-- `text.encode('utf-8')`. -/
def encodeText (text : Str) : Check Bytes :=
  match encodeUtf8 text with
  | some raw => .ok raw
  | none => raise .unicodeEncodeError (lit "surrogates not allowed")

/-- The arguments of `write_text_chunked`. -/
structure ChunkedArgs where
  name : Str
  text : Value
  chunkSize : Int := 65536
  overwrite : Bool := false
  compress : Option Bool := none
  codec : Str := []

/-- `write_text_chunked` from the point on where the old chunks are gone. -/
def storeChunks (self : Self) (config : RuntimeConfig) (args : ChunkedArgs) (text : Str)
    (exists_ : Bool) : Method Result := do
  let raw ← encodeText text
  let key ← keyOf args.name
  let chunks ← splitUtf8Chunks raw args.chunkSize.toNat
  let chunks := if chunks = [] then [[]] else chunks
  match ← writeChunks config key args.compress args.codec chunks 0 with
  | some e => return .fromException self .textChunkWriteError e args.name
  | none =>
    let manifest := chunkManifest key args.chunkSize.toNat raw chunks
    let _ ← writeEntry config ⟨args.name, manifest, jsonUtf8, some false, []⟩
    return .success self (if exists_ then .textChunkedOverwritten else .textChunkedWritten)
      "Chunked text entry stored." args.name

/-- Writes a text in chunks, then its manifest. -/
def writeTextChunked (self : Self) (config : RuntimeConfig) (args : ChunkedArgs) :
    Method Result := do
  match args.text with
  | .str text =>
    if args.chunkSize ≤ 0 then
      return .fail self .textChunkSizeInvalid "chunk_size must be positive." args.name
    else
      let exists_ ← exists? args.name
      if exists_ && !args.overwrite then
        return .fail self .textExists "Text entry already exists; use overwrite=True to replace."
          args.name
      else
        removePriorChunks self args.name exists_
        storeChunks self config args text exists_
  | _ => return .fail self .textTypeError "Chunked text entries require str data." args.name

/-- `str(part).encode('utf-8')` of every part. -/
def encodeParts : List Value → Check (List Bytes)
  | [] => .ok []
  | part :: parts => do
    let text := match part with
      | .str s => s
      | part => Objects.strOf part
    let raw ← encodeText text
    let raws ← encodeParts parts
    return raw :: raws

/-- `''.join(parts)`. -/
def joinParts : List Value → Check Str
  | [] => .ok []
  | .str s :: parts => do
    let rest ← joinParts parts
    return s ++ rest
  | part :: _ => raise .typeError (lit "expected str instance, " ++ part.typeName ++ lit " found")

/-- The checksums of the parts are compared with those of the manifest, if it has any. -/
def checkChecksums (name : Str) (manifest : List (Value × Value)) (parts : List Value) :
    Check Unit :=
  match Value.getItem manifest "chunk_checksums32" with
  | some .none | none => .ok ()
  | some expected => do
    let raws ← encodeParts parts
    let algorithm ← ChecksumAlgorithm.ofManifest manifest
    let expected ← (← expected.items).mapM Objects.intOf
    if expected ≠ raws.map fun raw => (algorithm.checksum raw : Int) then
      raise .valueError (lit "Chunk checksum mismatch for " ++ Objects.reprOf (.str name))

/-- The contract of the chunk boundaries, if the manifest names one. -/
def checkContract (name : Str) (manifest : List (Value × Value)) : Check Unit :=
  match Value.getItem manifest "chunk_boundary_contract" with
  | some .none | none => .ok ()
  | some contract =>
    let refuse := raise .valueError (lit "Unsupported UTF-8 chunk boundary contract for " ++
      Objects.reprOf (.str name) ++ lit ": " ++ Objects.reprOf contract)
    match contract with
    | .str s => if s = utf8ChunkContract then .ok () else refuse
    | _ => refuse

/-- The text has the hash that its manifest gives, if any. -/
def checkHash (name : Str) (manifest : List (Value × Value)) (text : Str) : Check Unit :=
  match Value.getItem manifest "content_hash" with
  | none => .ok ()
  | some expected =>
    if expected.truthy then do
      let raw ← encodeText text
      let refuse := raise .valueError (lit "Chunk content hash mismatch for " ++
        Objects.reprOf (.str name))
      match expected with
      | .str s => if s = (sha256 raw).hex then .ok () else refuse
      | _ => refuse
    else .ok ()

/-- Checks the chunks and joins them. -/
def assemble (name : Str) (manifest : List (Value × Value)) (parts : List Value) : Check Str := do
  checkContract name manifest
  checkChecksums name manifest parts
  let text ← joinParts parts
  checkHash name manifest text
  return text

/-- `[self.read_value(chunk_name) for chunk_name in chunk_names]`. -/
def readParts (self : Self) : List Value → Method (List Value)
  | [] => pure []
  | chunk :: chunks => do
    let name ← nameOf chunk
    let part ← readValue self name
    let parts ← readParts self chunks
    return part :: parts

/-- `TypeError(f"Entry {name!r} is not a UTF-8 text entry")`. -/
def notText (name : Str) : PyException :=
  ⟨.typeError, lit "Entry " ++ Objects.reprOf (.str name) ++ lit " is not a UTF-8 text entry"⟩

/-- Reads a text, whether in chunks or not. -/
def readText (self : Self) (name : Str) : Method Str := do
  match ← readValue self name with
  | .dict items =>
    if isChunkManifest items then
      let parts ← readParts self (← listedChunks items)
      assemble name items parts
    else throw (notText name)
  | .str s => return s
  | _ => throw (notText name)

def readTextResult (self : Self) (name : Str) : Method Result := do
  match ← tryExcept (readText self name) with
  | .ok text => return .success self .textReadOk "Text entry read." name (.str text)
  | .error e => return .fromException self .textReadError e name

end Methods

end FileSystem
