import Tds.Generation.RowTables

/-!
# The binding of a CSV generation

`CSVGenerationBinding` of `generation/csv.py`: the record that ties all artifacts of one CSV generation
together, and its canonical bytes.
-/

namespace Generation

open Python

def csvGenerationContractId : Str := lit "tds-csv-generation-binding-v1"

def uint32Max : Nat := 2 ^ 32 - 1

section Objects

variable [Runtime]

/-- A document that is stored in canonical form. -/
def canonicalObject (data : Bytes) (description : String) : Check Dict :=
  let malformed : Error := .contract (lit description ++ lit " is malformed JSON") .invalidInput
  match decodeAscii data with
  | none => .error malformed
  | some text =>
    match loads text with
    | .error .decode => .error malformed
    | .error .digits => .error (.builtin .valueError)
    | .error .recursion => .error (.builtin .recursionError)
    | .ok (.obj fields) => do
      raiseIf ((← canonicalJsonBytes (.obj fields)) ≠ data)
        (.contract (lit description ++ lit " is not canonical JSON") .noncanonical)
      return fields
    | .ok _ => .error (.contract (lit description ++ lit " must be a JSON object") .invalidInput)

/-- `value == 1`: so are `1`, `True` and the float that is written `1.0`. -/
def equalsOne : Json → Bool
  | .int i => i == 1
  | .bool b => b
  | .float f => printFloat f == lit "1.0"
  | _ => false

end Objects

/-- `expected_chunks` of `CSVGenerationBinding`. -/
def expectedChunks (sourceSize chunkBytes : Nat) : Nat :=
  if sourceSize = 0 then 0 else (sourceSize + chunkBytes - 1) / chunkBytes

/-- The fields of `CSVGenerationBinding` whose type the constructor checks. -/
structure CsvBindingFields where
  nameSpace : Name
  parentGenerationRoot : Option Root
  sourceRoot : Root
  sourceSize : Bounded 0 uint63Max
  chunksRoot : Root
  chunkCount : Bounded 0 uint32Max
  chunkBytes : Bounded 1 uint32Max
  parserRoot : Root
  dialectRoot : Root
  rowOffsetsRoot : Root
  rowCount : Bounded 0 uint63Max
  rowAnchorsRoot : Root
  anchorCount : Bounded 0 uint32Max
  anchorLimit : Bounded 1 uint32Max
  closureRoot : Root
  evidenceRoot : Root
  chunkCount_eq : chunkCount.val = expectedChunks sourceSize.val chunkBytes.val
  rowCount_eq_zero : sourceSize.val = 0 ↔ rowCount.val = 0
  anchorCount_eq : anchorCount.val = min rowCount.val anchorLimit.val
deriving DecidableEq

/-- `CSVGenerationBinding`. The constructor compares `format_version` with `1` and keeps the value. -/
structure CsvGenerationBinding [Runtime] extends CsvBindingFields where
  formatVersion : Json
  formatVersion_eq : equalsOne formatVersion = true

namespace CsvGenerationBinding

variable [Runtime]

/-- The binding of these values, if its counts agree. -/
def ofFields (nameSpace : Name) (parentGenerationRoot : Option Root)
    (sourceRoot chunksRoot parserRoot dialectRoot rowOffsetsRoot rowAnchorsRoot closureRoot
      evidenceRoot : Root)
    (sourceSize : Bounded 0 uint63Max) (chunkCount : Bounded 0 uint32Max)
    (chunkBytes : Bounded 1 uint32Max) (rowCount : Bounded 0 uint63Max)
    (anchorCount : Bounded 0 uint32Max) (anchorLimit : Bounded 1 uint32Max)
    (contractId formatVersion : Json) : Check CsvGenerationBinding :=
  if hchunks : chunkCount.val = expectedChunks sourceSize.val chunkBytes.val then
    if hrows : sourceSize.val = 0 ↔ rowCount.val = 0 then
      if hanchors : anchorCount.val = min rowCount.val anchorLimit.val then do
        raiseIf ((match contractId with | .str s => s == csvGenerationContractId | _ => false) = false)
          (contractError "unsupported CSV generation contract")
        if hversion : equalsOne formatVersion = true then
          return ⟨⟨nameSpace, parentGenerationRoot, sourceRoot, sourceSize, chunksRoot, chunkCount,
            chunkBytes, parserRoot, dialectRoot, rowOffsetsRoot, rowCount, rowAnchorsRoot, anchorCount,
            anchorLimit, closureRoot, evidenceRoot, hchunks, hrows, hanchors⟩, formatVersion, hversion⟩
        else .error (contractError "unsupported CSV generation format")
      else .error (contractFault "CSV binding anchor count is not canonical" .noncanonical)
    else .error (contractFault "CSV binding row count does not match its source extent" .noncanonical)
  else .error (contractFault "CSV binding chunk count is not canonical" .noncanonical)

/-- `CSVGenerationBinding(**value)`, for a dictionary with the right keys. -/
def init (value : Dict) : Check CsvGenerationBinding := do
  let nameSpace ← requireName "CSV binding namespace" (← getItem value "namespace")
  let parent ← requireOptionalRoot "parent_generation_root" (← getItem value "parent_generation_root")
  let source ← requireRoot "source_root" (← getItem value "source_root")
  let chunks ← requireRoot "chunks_root" (← getItem value "chunks_root")
  let parser ← requireRoot "parser_root" (← getItem value "parser_root")
  let dialect ← requireRoot "dialect_root" (← getItem value "dialect_root")
  let offsets ← requireRoot "row_offsets_root" (← getItem value "row_offsets_root")
  let anchors ← requireRoot "row_anchors_root" (← getItem value "row_anchors_root")
  let closure ← requireRoot "closure_root" (← getItem value "closure_root")
  let evidence ← requireRoot "evidence_root" (← getItem value "evidence_root")
  let sourceSize ← requireInt "source_size" (← getItem value "source_size") 0 uint63Max
  let chunkCount ← requireInt "chunk_count" (← getItem value "chunk_count") 0 uint32Max
  let chunkBytes ← requireInt "chunk_bytes" (← getItem value "chunk_bytes") 1 uint32Max
  let rowCount ← requireInt "row_count" (← getItem value "row_count") 0 uint63Max
  let anchorCount ← requireInt "anchor_count" (← getItem value "anchor_count") 0 uint32Max
  let anchorLimit ← requireInt "anchor_limit" (← getItem value "anchor_limit") 1 uint32Max
  ofFields nameSpace parent source chunks parser dialect offsets anchors closure evidence sourceSize
    chunkCount chunkBytes rowCount anchorCount anchorLimit (← getItem value "contract_id")
    (← getItem value "format_version")

/-- The keys of `canonical_dict`. -/
def keys : List String :=
  ["contract_id", "format_version", "namespace", "parent_generation_root", "source_root",
    "source_size", "chunks_root", "chunk_count", "chunk_bytes", "parser_root", "dialect_root",
    "row_offsets_root", "row_count", "row_anchors_root", "anchor_count", "anchor_limit",
    "closure_root", "evidence_root"]

def canonicalDict (binding : CsvGenerationBinding) : Dict :=
  [(lit "contract_id", .str csvGenerationContractId), (lit "format_version", binding.formatVersion),
    (lit "namespace", .str binding.nameSpace),
    (lit "parent_generation_root", optionalRootJson binding.parentGenerationRoot),
    (lit "source_root", rootJson binding.sourceRoot), (lit "source_size", natJson binding.sourceSize),
    (lit "chunks_root", rootJson binding.chunksRoot), (lit "chunk_count", natJson binding.chunkCount),
    (lit "chunk_bytes", natJson binding.chunkBytes), (lit "parser_root", rootJson binding.parserRoot),
    (lit "dialect_root", rootJson binding.dialectRoot),
    (lit "row_offsets_root", rootJson binding.rowOffsetsRoot),
    (lit "row_count", natJson binding.rowCount),
    (lit "row_anchors_root", rootJson binding.rowAnchorsRoot),
    (lit "anchor_count", natJson binding.anchorCount), (lit "anchor_limit", natJson binding.anchorLimit),
    (lit "closure_root", rootJson binding.closureRoot),
    (lit "evidence_root", rootJson binding.evidenceRoot)]

/-- `canonical_bytes`: the version is not a number that JSON cannot write. -/
def encode (binding : CsvGenerationBinding) : Bytes := canonicalBytes (.obj binding.canonicalDict)

/-- Reads a binding; its octets have to be canonical. -/
def fromBytes (data : Bytes) : Check CsvGenerationBinding := do
  let value ← canonicalObject data "CSV generation binding"
  raiseIf (sameKeys value keys = false)
    (contractFault "CSV generation-binding fields are not canonical" .noncanonical)
  let result ← init value
  raiseIf (result.encode ≠ data)
    (contractFault "CSV generation binding is not canonical" .noncanonical)
  return result

/-- `binding == other`: the fields are compared as Python compares them, and all versions that the
constructor lets through are equal to `1`, hence to one another. -/
def Equal (binding other : CsvGenerationBinding) : Prop :=
  binding.toCsvBindingFields = other.toCsvBindingFields

end CsvGenerationBinding

end Generation
