import Tds.Generation.Contract
import Tds.Python.Struct

/-!
# Tables of CSV rows

The packed row offsets and row anchors of `generation/csv.py`. A table is a header of fixed size and
one record of fixed size for each row; the decoders pack what they read once more and compare.
-/

namespace Generation

open Python

def csvGenerationFormatVersion : Nat := 1

def offsetMagic : Bytes := encodeAscii (lit "TDSCRO1") ++ [0]

def anchorMagic : Bytes := encodeAscii (lit "TDSCRA1") ++ [0]

/-- `_U64.size`. -/
def u64Size : Nat := 8

/-- `_OFFSET_HEADER.size`. -/
def offsetHeaderSize : Nat := 64

/-- `_ANCHOR_HEADER.size`. -/
def anchorHeaderSize : Nat := 104

/-- `_ANCHOR_RECORD.size`. -/
def anchorRecordSize : Nat := 56

/-- `_root_digest`: the octets that a root spells. -/
def rootDigest (name : String) (root : Str) : Check Root := requireRoot name (.str root)

def digestRoot (digest : Bytes) : Str := lit "sha256:" ++ hexOfBytes digest

/-! ## Row offsets -/

/-- The loop of `pack_row_offsets` over the offsets, after the offset `previous`. -/
def checkOffsets : Int → List Int → Check Unit
  | _, [] => .ok ()
  | previous, value :: offsets => do
    let _ ← requireInt "row offset" (.int value) 0 uint63Max
    raiseIf (value ≤ previous)
      (contractFault "row offsets are not canonical source row starts" .noncanonical)
    checkOffsets value offsets

/-- The first row starts the source and the last one starts inside it. -/
def checkOffsetEnds (offsets : List Int) (sourceSize : Int) : Check Unit :=
  match offsets.head?, offsets.getLast? with
  | some first, some last =>
    raiseIf (first ≠ 0 ∨ sourceSize ≤ last)
      (contractFault "row offsets are not canonical source row starts" .noncanonical)
  | _, _ =>
    raiseIf (sourceSize ≠ 0)
      (contractFault "non-empty CSV source requires a row start" .incompleteGeneration)

/-- `_OFFSET_HEADER.pack_into`. -/
def offsetHeader (count sourceSize : Nat) (digest : Root) : Bytes :=
  offsetMagic ++ (beBytes 2 csvGenerationFormatVersion ++ (beBytes 2 0 ++ (beBytes 4 u64Size ++
    (beBytes 8 count ++ (beBytes 8 sourceSize ++ digest.bytes)))))

def packRowOffsets (offsets : List Int) (sourceSize : Int) (sourceRoot : Str) : Check Bytes := do
  let size ← requireInt "source_size" (.int sourceSize) 0 uint63Max
  let digest ← rootDigest "source_root" sourceRoot
  let count ← requireInt "row count" (natJson offsets.length) 0 uint63Max
  checkOffsets (-1) offsets
  checkOffsetEnds offsets sourceSize
  return offsetHeader count size digest ++ offsets.flatMap fun value => beBytes u64Size value.toNat

/-- What `decode_row_offsets` returns. -/
structure OffsetTable where
  count : Int
  sourceSize : Int
  sourceRoot : Str
  offsets : List Int
deriving DecidableEq

/-- Reads a table of row offsets and checks it. -/
def decodeRowOffsets (data : Bytes) : Check OffsetTable := do
  raiseIf (data.length < offsetHeaderSize) (contractError "CSV row-offset artifact is truncated")
  raiseIf (data.take 8 ≠ offsetMagic ∨ unpackUInt data 8 2 ≠ csvGenerationFormatVersion ∨
      unpackUInt data 10 2 ≠ 0 ∨ unpackUInt data 12 4 ≠ u64Size)
    (contractFault "CSV row-offset header is noncanonical" .noncanonical)
  let count := unpackUInt data 16 8
  let sourceSize : Int := unpackUInt data 24 8
  raiseIf (data.length ≠ offsetHeaderSize + count * u64Size)
    (contractFault "CSV row-offset length does not match its count" .noncanonical)
  let offsets : List Int := (List.range count).map fun index =>
    (unpackUInt data (offsetHeaderSize + index * u64Size) u64Size : Int)
  let sourceRoot := digestRoot ((data.drop 32).take 32)
  let canonical ← packRowOffsets offsets sourceSize sourceRoot
  raiseIf (canonical ≠ data)
    (contractFault "CSV row-offset artifact is noncanonical" .noncanonical)
  return ⟨count, sourceSize, sourceRoot, offsets⟩

/-! ## Row anchors -/

/-- `CSVRowAnchor`. -/
structure CsvRowAnchor where
  rowOrdinal : Bounded 0 uint63Max
  startOffset : Bounded 0 uint63Max
  endOffset : Bounded 1 uint63Max
  contentRoot : Root
  /-- The span is not empty. -/
  start_lt : startOffset.val < endOffset.val
deriving DecidableEq

/-- The constructor of `CSVRowAnchor`. -/
def CsvRowAnchor.init (rowOrdinal startOffset endOffset contentRoot : Json) : Check CsvRowAnchor := do
  let ordinal ← requireInt "row_ordinal" rowOrdinal 0 uint63Max
  let start ← requireInt "start_offset" startOffset 0 uint63Max
  let stop ← requireInt "end_offset" endOffset 1 uint63Max
  if h : start.val < stop.val then
    let root ← requireRoot "anchor content_root" contentRoot
    return ⟨ordinal, start, stop, root, h⟩
  else .error (contractFault "CSV anchor span must be non-empty" .noncanonical)

def CsvRowAnchor.pack (anchor : CsvRowAnchor) : Bytes :=
  beBytes 8 anchor.rowOrdinal ++ (beBytes 8 anchor.startOffset ++ (beBytes 8 anchor.endOffset ++
    anchor.contentRoot.bytes))

/-- The loop of `pack_row_anchors`, after an anchor with this ordinal and this start. -/
def packAnchors (rowCount sourceSize : Int) : Int → Int → List CsvRowAnchor → Check Bytes
  | _, _, [] => .ok []
  | previousOrdinal, previousStart, anchor :: anchors => do
    raiseIf (anchor.rowOrdinal.val ≤ previousOrdinal ∨ anchor.startOffset.val ≤ previousStart ∨
        rowCount ≤ anchor.rowOrdinal.val ∨ sourceSize < anchor.endOffset.val)
      (contractFault "CSV anchors are not ordered within the source" .noncanonical)
    let records ← packAnchors rowCount sourceSize anchor.rowOrdinal.val anchor.startOffset.val anchors
    return anchor.pack ++ records

/-- `_ANCHOR_HEADER.pack`. -/
def anchorHeader (rowCount anchorCount sourceSize : Nat) (sourceDigest offsetsDigest : Root) : Bytes :=
  anchorMagic ++ (beBytes 2 csvGenerationFormatVersion ++ (beBytes 2 0 ++
    (beBytes 4 anchorRecordSize ++ (beBytes 8 rowCount ++ (beBytes 8 anchorCount ++
      (beBytes 8 sourceSize ++ (sourceDigest.bytes ++ offsetsDigest.bytes)))))))

def packRowAnchors (anchors : List CsvRowAnchor) (rowCount sourceSize : Int)
    (sourceRoot offsetsRoot : Str) : Check Bytes := do
  let rows ← requireInt "row_count" (.int rowCount) 0 uint63Max
  let size ← requireInt "source_size" (.int sourceSize) 0 uint63Max
  let sourceDigest ← rootDigest "source_root" sourceRoot
  let offsetsDigest ← rootDigest "offsets_root" offsetsRoot
  raiseIf (0 < rowCount ∧ anchors = [])
    (contractFault "non-empty row set requires at least one bounded anchor" .incompleteGeneration)
  raiseIf (rowCount < anchors.length) (contractFault "anchor count exceeds row count" .noncanonical)
  let records ← packAnchors rowCount sourceSize (-1) (-1) anchors
  raiseIf (rowCount = 0 ∧ (sourceSize ≠ 0 ∨ anchors ≠ []))
    (contractFault "empty row set has one canonical anchor representation" .noncanonical)
  return anchorHeader rows anchors.length size sourceDigest offsetsDigest ++ records

/-- What `decode_row_anchors` returns. -/
structure AnchorTable where
  rowCount : Int
  sourceSize : Int
  sourceRoot : Str
  offsetsRoot : Str
  anchors : List CsvRowAnchor
deriving DecidableEq

/-- The loop of `decode_row_anchors` over the records that are left, from this place on. -/
def unpackAnchors (data : Bytes) : Nat → Nat → Check (List CsvRowAnchor)
  | _, 0 => .ok []
  | place, count + 1 => do
    let anchor ← CsvRowAnchor.init (natJson (unpackUInt data place 8))
      (natJson (unpackUInt data (place + 8) 8)) (natJson (unpackUInt data (place + 16) 8))
      (.str (digestRoot ((data.drop (place + 24)).take 32)))
    let anchors ← unpackAnchors data (place + anchorRecordSize) count
    return anchor :: anchors

/-- Reads a table of row anchors and checks it. -/
def decodeRowAnchors (data : Bytes) : Check AnchorTable := do
  raiseIf (data.length < anchorHeaderSize) (contractError "CSV row-anchor artifact is truncated")
  raiseIf (data.take 8 ≠ anchorMagic ∨ unpackUInt data 8 2 ≠ csvGenerationFormatVersion ∨
      unpackUInt data 10 2 ≠ 0 ∨ unpackUInt data 12 4 ≠ anchorRecordSize)
    (contractFault "CSV row-anchor header is noncanonical" .noncanonical)
  let rowCount : Int := unpackUInt data 16 8
  let anchorCount := unpackUInt data 24 8
  let sourceSize : Int := unpackUInt data 32 8
  raiseIf (data.length ≠ anchorHeaderSize + anchorCount * anchorRecordSize)
    (contractFault "CSV row-anchor length does not match its count" .noncanonical)
  let anchors ← unpackAnchors data anchorHeaderSize anchorCount
  let sourceRoot := digestRoot ((data.drop 40).take 32)
  let offsetsRoot := digestRoot ((data.drop 72).take 32)
  let canonical ← packRowAnchors anchors rowCount sourceSize sourceRoot offsetsRoot
  raiseIf (canonical ≠ data)
    (contractFault "CSV row-anchor artifact is noncanonical" .noncanonical)
  return ⟨rowCount, sourceSize, sourceRoot, offsetsRoot, anchors⟩

/-! ## The choice of anchors -/

/-- `_select_anchor_indices`; `//` rounds down. -/
def selectAnchorIndices (rowCount anchorLimit : Int) : List Int :=
  if rowCount = 0 then []
  else
    let count := min rowCount anchorLimit
    if count = rowCount then (List.range rowCount.toNat).map fun index : Nat => (index : Int)
    else if count = 1 then [0]
    else (List.range count.toNat).map fun index : Nat => (index * (rowCount - 1)).fdiv (count - 1)

end Generation
