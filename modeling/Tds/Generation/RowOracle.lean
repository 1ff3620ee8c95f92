import Tds.Generation.Contract

/-!
# The CSV row oracle

`CSVDialect` and `CSVRowBoundaryOracle` of `generation/csv.py`: a byte automaton that is fed block by
block and finds where the rows of a CSV source start.
-/

namespace Generation

open Python

/-- `CSVDialect`. -/
structure CsvDialect where
  delimiter : UInt8
  quote : UInt8
  escape : Option UInt8
  doublequote : Bool
  delimiter_ne_quote : delimiter ≠ quote
  delimiter_ne_ending : delimiter ≠ 10 ∧ delimiter ≠ 13
  quote_ne_ending : quote ≠ 10 ∧ quote ≠ 13
  /-- `escape` differs from the other two and from the row endings. -/
  escape_ne : ∀ e, escape = some e → e ≠ delimiter ∧ e ≠ quote ∧ e ≠ 10 ∧ e ≠ 13
deriving DecidableEq

/-- `CSVRowBoundaryOracle`. -/
structure CsvRowBoundaryOracle where
  position : Nat
  rowOpen : Bool
  rowOffsets : List Nat
  inQuotes : Bool
  pendingQuote : Bool
  pendingEscape : Bool
  pendingCr : Bool
  fieldStart : Bool
  afterQuote : Bool
  finished : Bool
deriving DecidableEq

namespace CsvRowBoundaryOracle

/-- `CSVRowBoundaryOracle(dialect)`. -/
def init : CsvRowBoundaryOracle :=
  ⟨0, false, [], false, false, false, false, true, false, false⟩

/-- A row starts, unless one is open. -/
def openRow (oracle : CsvRowBoundaryOracle) (start : Nat) : CsvRowBoundaryOracle :=
  if oracle.rowOpen then oracle
  else { oracle with rowOpen := true, rowOffsets := oracle.rowOffsets ++ [start] }

/-- The open row ends; there has to be one. -/
def finishRow (oracle : CsvRowBoundaryOracle) : Check CsvRowBoundaryOracle :=
  if oracle.rowOpen then
    .ok { oracle with rowOpen := false, fieldStart := true, afterQuote := false }
  else .error (contractFault "CSV row state underflow" .noncanonical)

def outsideAfterClosedQuote (dialect : CsvDialect) (oracle : CsvRowBoundaryOracle) (byte : UInt8) :
    Check CsvRowBoundaryOracle :=
  if byte = dialect.delimiter then .ok { oracle with afterQuote := false, fieldStart := true }
  else if byte = 13 then .ok { oracle with pendingCr := true }
  else if byte = 10 then oracle.finishRow
  else .error (contractFault "unexpected byte after a closing CSV quote" .noncanonical)

/-- An octet that is not between quotes. -/
def outside (dialect : CsvDialect) (oracle : CsvRowBoundaryOracle) (byte : UInt8) :
    Check CsvRowBoundaryOracle :=
  if oracle.afterQuote then oracle.outsideAfterClosedQuote dialect byte
  else if oracle.fieldStart && byte == dialect.quote then
    .ok { oracle with inQuotes := true, fieldStart := false }
  else if byte = dialect.delimiter then .ok { oracle with fieldStart := true }
  else if byte = 13 then .ok { oracle with pendingCr := true }
  else if byte = 10 then oracle.finishRow
  else .ok { oracle with fieldStart := false }

/-- A byte of `feed` in an open row. -/
def inside (dialect : CsvDialect) (oracle : CsvRowBoundaryOracle) (byte : UInt8) :
    Check CsvRowBoundaryOracle :=
  if oracle.inQuotes then
    if oracle.pendingEscape then .ok { oracle with pendingEscape := false }
    else if oracle.pendingQuote then
      if dialect.doublequote && byte == dialect.quote then .ok { oracle with pendingQuote := false }
      else
        outsideAfterClosedQuote dialect
          { oracle with pendingQuote := false, inQuotes := false, afterQuote := true } byte
    else if dialect.escape = some byte then .ok { oracle with pendingEscape := true }
    else if byte = dialect.quote then
      if dialect.doublequote then .ok { oracle with pendingQuote := true }
      else .ok { oracle with inQuotes := false, afterQuote := true }
    else .ok oracle
  else oracle.outside dialect byte

/-- The loop body of `feed`. -/
def feedByte (dialect : CsvDialect) (oracle : CsvRowBoundaryOracle) (byte : UInt8) :
    Check CsvRowBoundaryOracle := do
  let currentStart := oracle.position
  let oracle := { oracle with position := oracle.position + 1 }
  if oracle.pendingCr then
    let finished ← finishRow { oracle with pendingCr := false }
    if byte = 10 then return finished
    else inside dialect (finished.openRow currentStart) byte
  else inside dialect (oracle.openRow currentStart) byte

def feed (dialect : CsvDialect) (oracle : CsvRowBoundaryOracle) (block : Bytes) :
    Check CsvRowBoundaryOracle := do
  raiseIf (oracle.finished = true) (contractError "cannot feed a finalized CSV oracle")
  block.foldlM (feedByte dialect) oracle

/-- `finalize`: the offsets, and the oracle that is left. -/
def finalize (oracle : CsvRowBoundaryOracle) : Check (List Nat × CsvRowBoundaryOracle) := do
  raiseIf (oracle.finished = true) (contractError "CSV oracle was already finalized")
  let oracle := { oracle with finished := true }
  raiseIf (oracle.pendingEscape = true)
    (contractFault "CSV source ended after an escape byte" .incompleteGeneration)
  let oracle :=
    if oracle.pendingQuote then
      { oracle with pendingQuote := false, inQuotes := false, afterQuote := true }
    else oracle
  raiseIf (oracle.inQuotes = true)
    (contractFault "CSV source ended inside an open quoted field" .incompleteGeneration)
  let oracle ←
    if oracle.pendingCr then finishRow { oracle with pendingCr := false }
    else if oracle.rowOpen then oracle.finishRow
    else pure oracle
  return (oracle.rowOffsets, oracle)

end CsvRowBoundaryOracle

/-- The offsets that an oracle finds in a source that comes in blocks. -/
def scanRows (dialect : CsvDialect) (blocks : List Bytes) : Check (List Nat) := do
  let oracle ← blocks.foldlM (CsvRowBoundaryOracle.feed dialect) CsvRowBoundaryOracle.init
  let (offsets, _) ← oracle.finalize
  return offsets

end Generation
