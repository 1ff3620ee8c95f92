import Tds.Automata.RowSplitting
import Tds.Generation.RowOracle

/-!
# The quoting grammar of CSV rows

What a row of a CSV source is, without the oracle that looks for it: a record of fields, each plain or
in quotes, and an ending. An automaton for the records stands beside the grammar.
-/

namespace Generation

open Python Automata

/-- The inside of a quoted field. -/
inductive QuotedBody (dialect : CsvDialect) : Bytes → Prop
  | nil : QuotedBody dialect []
  | plain {b : UInt8} {x : Bytes} (hquote : b ≠ dialect.quote) (hescape : dialect.escape ≠ some b)
      (hx : QuotedBody dialect x) : QuotedBody dialect (b :: x)
  | doubled {x : Bytes} (h : dialect.doublequote = true) (hx : QuotedBody dialect x) :
      QuotedBody dialect (dialect.quote :: dialect.quote :: x)
  | escaped {e b : UInt8} {x : Bytes} (he : dialect.escape = some e) (hx : QuotedBody dialect x) :
      QuotedBody dialect (e :: b :: x)

/-- No delimiter and no line break. -/
def Ordinary (dialect : CsvDialect) (b : UInt8) : Prop :=
  b ≠ dialect.delimiter ∧ b ≠ 10 ∧ b ≠ 13

/-- A field: ordinary bytes that do not start with a quote, or a body in quotes. -/
inductive CsvField (dialect : CsvDialect) : Bytes → Prop
  | plain {x : Bytes} (hx : ∀ b ∈ x, Ordinary dialect b) (hhead : x.head? ≠ some dialect.quote) :
      CsvField dialect x
  | quoted {x : Bytes} (hx : QuotedBody dialect x) :
      CsvField dialect (dialect.quote :: (x ++ [dialect.quote]))

/-- Fields between delimiters. -/
inductive CsvRecord (dialect : CsvDialect) : Bytes → Prop
  | single {f : Bytes} (hf : CsvField dialect f) : CsvRecord dialect f
  | cons {f r : Bytes} (hf : CsvField dialect f) (hr : CsvRecord dialect r) :
      CsvRecord dialect (f ++ dialect.delimiter :: r)

abbrev CsvRows (dialect : CsvDialect) (rows : List Bytes) : Prop :=
  Rows 10 13 (CsvRecord dialect) rows

/-- Where in a field a reader is. -/
inductive FieldMode where
  | start
  | plain
  | quoted
  /-- After a quote that may close the field or be the first of two. -/
  | quotedQuote
  | quotedEscape
  | closed
deriving DecidableEq

def fieldStep (dialect : CsvDialect) : FieldMode → UInt8 → Option FieldMode
  | .start, b =>
    if b = dialect.quote then some .quoted
    else if b = dialect.delimiter then some .start
    else if b = 10 ∨ b = 13 then none
    else some .plain
  | .plain, b =>
    if b = dialect.delimiter then some .start else if b = 10 ∨ b = 13 then none else some .plain
  | .quoted, b =>
    if dialect.escape = some b then some .quotedEscape
    else if b = dialect.quote then
      if dialect.doublequote then some .quotedQuote else some .closed
    else some .quoted
  | .quotedQuote, b =>
    if dialect.doublequote = true ∧ b = dialect.quote then some .quoted
    else if b = dialect.delimiter then some .start
    else none
  | .quotedEscape, _ => some .quoted
  | .closed, b => if b = dialect.delimiter then some .start else none

/-- A record may end here. -/
def FieldMode.final : FieldMode → Bool
  | .quoted | .quotedEscape => false
  | _ => true

def recordAutomaton (dialect : CsvDialect) : RecordAutomaton UInt8 FieldMode :=
  ⟨.start, fieldStep dialect, FieldMode.final⟩

end Generation
