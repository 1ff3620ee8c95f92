import Tds.Generation.Proofs.Contract
import Tds.Generation.Proofs.RowGrammar

/-!
# The CSV row oracle finds the rows of the grammar

The flags of the oracle say in which mode the pass of the automaton is. A byte moves both alike, so a
whole source does, however it is cut into blocks.
-/

namespace Generation

open Python Automata CsvRowBoundaryOracle
open Automata.RecordAutomaton (Mode)

variable {dialect : CsvDialect}

/-! ## The oracle follows the automaton -/

/-- The flags of an oracle whose pass is in a mode. After a carriage return the flags of the field are
left as they were. -/
def Flags (oracle : CsvRowBoundaryOracle) : Mode FieldMode → Prop
  | .idle => oracle = { oracle with
      rowOpen := false, inQuotes := false, pendingQuote := false, pendingEscape := false,
      pendingCr := false, fieldStart := true, afterQuote := false, finished := false }
  | .row mode => oracle = { oracle with
      rowOpen := true, pendingCr := false, finished := false,
      inQuotes := mode == .quoted || mode == .quotedQuote || mode == .quotedEscape,
      pendingQuote := mode == .quotedQuote, pendingEscape := mode == .quotedEscape,
      fieldStart := mode == .start, afterQuote := mode == .closed }
  | .afterCr => oracle = { oracle with
      rowOpen := true, inQuotes := false, pendingQuote := false, pendingEscape := false,
      pendingCr := true, finished := false }

/-- What a step of the oracle gives if the pass goes to a mode, or stops. -/
def Tracks (result : Check CsvRowBoundaryOracle) (position : Nat) (offsets : List Nat) :
    Option (Mode FieldMode) → Prop
  | none => ∃ error, result = .error error
  | some mode => ∃ oracle, result = .ok oracle ∧ Flags oracle mode ∧
      oracle.position = position ∧ oracle.rowOffsets = offsets

theorem rowStep_eq (mode : FieldMode) (byte : UInt8) :
    (recordAutomaton dialect).rowStep 10 13 mode byte =
      if mode.final = true ∧ byte = 10 then some .idle
      else if mode.final = true ∧ byte = 13 then some .afterCr
      else (fieldStep dialect mode byte).map .row := rfl

variable {oracle : CsvRowBoundaryOracle}

variable {mode : Mode FieldMode}

theorem tracks_ok {position : Nat} {offsets : List Nat}
    (h : Flags oracle mode) (hposition : oracle.position = position)
    (hoffsets : oracle.rowOffsets = offsets) : Tracks (.ok oracle) position offsets (some mode) :=
  ⟨oracle, rfl, h, hposition, hoffsets⟩

theorem outsideAfterClosedQuote_tracks (h : Flags oracle (.row .closed)) (byte : UInt8) :
    Tracks (oracle.outsideAfterClosedQuote dialect byte) oracle.position oracle.rowOffsets
      ((recordAutomaton dialect).rowStep 10 13 .closed byte) := by
  obtain ⟨hd10, hd13⟩ := dialect.delimiter_ne_ending
  rw [Flags] at h
  rw [rowStep_eq, outsideAfterClosedQuote, fieldStep, h]
  by_cases hd : byte = dialect.delimiter
  · subst hd
    simp only [hd10, hd13, and_false, if_true, if_false, Option.map_some]
    exact tracks_ok rfl rfl rfl
  · by_cases h13 : byte = 13
    · subst h13
      simp only [hd, FieldMode.final, if_true, if_false, and_true, and_false,
        show ¬ (13 : UInt8) = 10 by decide]
      exact tracks_ok rfl rfl rfl
    · by_cases h10 : byte = 10
      · subst h10
        simp only [hd, FieldMode.final, if_true, if_false, and_true,
          show ¬ (10 : UInt8) = 13 by decide]
        exact tracks_ok rfl rfl rfl
      · simp only [hd, h13, h10, if_false, and_false, Option.map_none]
        exact ⟨_, rfl⟩

/-- The oracle in a plain field, and before a field that does not start with a quote. -/
theorem outside_tracks {mode : FieldMode} (hmode : mode = .start ∨ mode = .plain)
    (h : Flags oracle (.row mode)) {byte : UInt8} :
    Tracks (oracle.outside dialect byte) oracle.position oracle.rowOffsets
      ((recordAutomaton dialect).rowStep 10 13 mode byte) := by
  obtain ⟨hd10, hd13⟩ := dialect.delimiter_ne_ending
  obtain ⟨hq10, hq13⟩ := dialect.quote_ne_ending
  have hdq := dialect.delimiter_ne_quote
  have hfinal : mode.final = true := by rcases hmode with rfl | rfl <;> rfl
  have hclosed : (mode == .closed) = false := by rcases hmode with rfl | rfl <;> rfl
  rw [Flags] at h
  rw [rowStep_eq, outside, hfinal, h]
  simp only [hclosed, Bool.false_eq_true, if_false, true_and]
  by_cases hq : byte = dialect.quote ∧ mode = .start
  · obtain ⟨rfl, rfl⟩ := hq
    simp only [hq10, hq13, fieldStep, beq_self_eq_true, Bool.and_self, if_true, if_false,
      Option.map_some]
    exact tracks_ok rfl rfl rfl
  · have hopen : ((mode == .start) && (byte == dialect.quote)) = false := by
      rw [Bool.eq_false_iff, Ne, Bool.and_eq_true, beq_iff_eq, beq_iff_eq]
      exact fun h => hq ⟨h.2, h.1⟩
    have hstep : fieldStep dialect mode byte =
        if byte = dialect.delimiter then some .start
        else if byte = 10 ∨ byte = 13 then none else some .plain := by
      rcases hmode with rfl | rfl
      · have hne : byte ≠ dialect.quote := fun h => hq ⟨h, rfl⟩
        rw [fieldStep, if_neg hne]
      · rfl
    rw [hopen, hstep]
    simp only [Bool.false_eq_true, if_false]
    by_cases hd : byte = dialect.delimiter
    · subst hd
      simp only [hd10, hd13, if_true, if_false, Option.map_some]
      refine tracks_ok ?_ rfl rfl
      rcases hmode with rfl | rfl <;> rfl
    · by_cases h13 : byte = 13
      · subst h13
        simp only [hd, if_true, if_false, show ¬ (13 : UInt8) = 10 by decide]
        refine tracks_ok ?_ rfl rfl
        rcases hmode with rfl | rfl <;> rfl
      · by_cases h10 : byte = 10
        · subst h10
          simp only [hd, if_true, if_false, show ¬ (10 : UInt8) = 13 by decide]
          refine tracks_ok ?_ rfl rfl
          rcases hmode with rfl | rfl <;> rfl
        · simp only [hd, h13, h10, if_false, or_self, Option.map_some]
          refine tracks_ok ?_ rfl rfl
          rcases hmode with rfl | rfl <;> rfl

theorem inside_tracks {mode : FieldMode} (h : Flags oracle (.row mode)) (byte : UInt8) :
    Tracks (oracle.inside dialect byte) oracle.position oracle.rowOffsets
      ((recordAutomaton dialect).rowStep 10 13 mode byte) := by
  have hescape := dialect.escape_ne byte
  cases mode with
  | start =>
    have hout : oracle.inside dialect byte = oracle.outside dialect byte := by
      rw [inside, h]
      rfl
    rw [hout]
    exact outside_tracks (.inl rfl) h
  | plain =>
    have hout : oracle.inside dialect byte = oracle.outside dialect byte := by
      rw [inside, h]
      rfl
    rw [hout]
    exact outside_tracks (.inr rfl) h
  | quoted =>
    rw [Flags] at h
    rw [rowStep_eq, inside, h]
    simp only [FieldMode.final, fieldStep, Bool.false_eq_true, false_and, if_false]
    by_cases he : dialect.escape = some byte
    · simp only [he, if_true]
      exact tracks_ok rfl rfl rfl
    · rw [if_neg he, if_neg he]
      by_cases hq : byte = dialect.quote
      · rw [if_pos hq, if_pos hq]
        cases dialect.doublequote with
        | true => exact tracks_ok rfl rfl rfl
        | false => exact tracks_ok rfl rfl rfl
      · rw [if_neg hq, if_neg hq]
        exact tracks_ok rfl rfl rfl
  | quotedQuote =>
    rw [Flags] at h
    by_cases hq : dialect.doublequote = true ∧ byte = dialect.quote
    · obtain ⟨hq10, hq13⟩ := dialect.quote_ne_ending
      obtain ⟨hdouble, rfl⟩ := hq
      rw [rowStep_eq, inside, h]
      simp only [hq10, hq13, hdouble, fieldStep, beq_self_eq_true, Bool.and_self, and_false,
        and_self, if_true, if_false, Option.map_some]
      exact tracks_ok rfl rfl rfl
    · -- the quote has closed the field, and the byte comes after it
      have hbool : (dialect.doublequote && byte == dialect.quote) = false := by
        rw [Bool.eq_false_iff, Ne, Bool.and_eq_true, beq_iff_eq]
        exact hq
      have hstep : (recordAutomaton dialect).rowStep 10 13 .quotedQuote byte =
          (recordAutomaton dialect).rowStep 10 13 .closed byte := by
        rw [rowStep_eq, rowStep_eq, fieldStep, if_neg hq]
        rfl
      have hinside : oracle.inside dialect byte =
          outsideAfterClosedQuote dialect
            { oracle with pendingQuote := false, inQuotes := false, afterQuote := true } byte := by
        rw [inside, hbool, h]
        rfl
      rw [hstep, hinside]
      refine outsideAfterClosedQuote_tracks ?_ byte
      rw [h]
      rfl
  | quotedEscape =>
    rw [Flags] at h
    rw [rowStep_eq, inside, h]
    exact tracks_ok rfl rfl rfl
  | closed =>
    have hout : oracle.inside dialect byte = oracle.outsideAfterClosedQuote dialect byte := by
      rw [inside, h]
      rfl
    rw [hout]
    exact outsideAfterClosedQuote_tracks h byte

/-- What feeding a byte gives if the pass goes to a mode, where a row may start, or stops. -/
def Feeds (oracle : CsvRowBoundaryOracle) (result : Check CsvRowBoundaryOracle) :
    Option (Bool × Mode FieldMode) → Prop
  | none => ∃ error, result = .error error
  | some (opens, mode) => Tracks result (oracle.position + 1)
      (if opens then oracle.rowOffsets ++ [oracle.position] else oracle.rowOffsets) (some mode)

theorem feeds_map {result : Check CsvRowBoundaryOracle} {opens : Bool}
    {next : Option (Mode FieldMode)}
    (h : Tracks result (oracle.position + 1)
      (if opens then oracle.rowOffsets ++ [oracle.position] else oracle.rowOffsets) next) :
    Feeds oracle result (next.map (opens, ·)) := by
  cases next with
  | none => exact h
  | some mode => exact h

/-- A byte moves the oracle as it moves the pass, and opens a row where the pass does. -/
theorem feedByte_feeds (dialect : CsvDialect) {mode : Mode FieldMode} (h : Flags oracle mode)
    (byte : UInt8) :
    Feeds oracle (oracle.feedByte dialect byte)
      ((recordAutomaton dialect).splitStep 10 13 mode byte) := by
  cases mode with
  | idle =>
    rw [Flags] at h
    have hfeed : oracle.feedByte dialect byte =
        inside dialect { oracle with
          position := oracle.position + 1, rowOpen := true,
          rowOffsets := oracle.rowOffsets ++ [oracle.position] } byte := by
      rw [h]
      rfl
    rw [hfeed]
    refine feeds_map (inside_tracks ?_ byte)
    rw [h]
    rfl
  | row mode =>
    rw [Flags] at h
    have hfeed : oracle.feedByte dialect byte =
        inside dialect { oracle with position := oracle.position + 1 }
          byte := by
      rw [h]
      rfl
    rw [hfeed]
    refine feeds_map (inside_tracks ?_ byte)
    rw [h]
    rfl
  | afterCr =>
    rw [Flags] at h
    rw [RecordAutomaton.splitStep]
    by_cases hbyte : byte = 10
    · rw [if_pos hbyte, hbyte, h]
      exact tracks_ok rfl rfl rfl
    · have hfeed : oracle.feedByte dialect byte =
          inside dialect { oracle with
            position := oracle.position + 1, rowOpen := true, pendingCr := false,
            fieldStart := true, afterQuote := false,
            rowOffsets := oracle.rowOffsets ++ [oracle.position] } byte := by
        rw [h]
        exact if_neg hbyte
      rw [if_neg hbyte, hfeed]
      refine feeds_map (inside_tracks ?_ byte)
      rw [h]
      rfl

theorem finalize_iff (dialect : CsvDialect) {mode : Mode FieldMode} (h : Flags oracle mode)
    {offsets : List Nat} :
    (∃ final, oracle.finalize = .ok (offsets, final)) ↔
      (recordAutomaton dialect).accepting mode = true ∧ offsets = oracle.rowOffsets := by
  have hok : ∀ {result : CsvRowBoundaryOracle}, oracle.finalize = .ok (oracle.rowOffsets, result) →
      (recordAutomaton dialect).accepting mode = true →
      ((∃ final, oracle.finalize = .ok (offsets, final)) ↔
        (recordAutomaton dialect).accepting mode = true ∧ offsets = oracle.rowOffsets) := by
    intro result hresult haccepting
    rw [hresult]
    constructor
    · rintro ⟨final, hfinal⟩
      exact ⟨haccepting, (Prod.mk.inj (Except.ok.inj hfinal)).1.symm⟩
    · rintro ⟨-, rfl⟩
      exact ⟨result, rfl⟩
  have herror : ∀ {error : Error}, oracle.finalize = .error error →
      (recordAutomaton dialect).accepting mode = false →
      ((∃ final, oracle.finalize = .ok (offsets, final)) ↔
        (recordAutomaton dialect).accepting mode = true ∧ offsets = oracle.rowOffsets) := by
    intro error hresult haccepting
    rw [hresult, haccepting]
    exact iff_of_false (fun ⟨_, h⟩ => by cases h) (fun h => by cases h.1)
  rw [Flags.eq_def] at h
  cases mode with
  | idle => exact hok (by rw [h]; rfl) rfl
  | afterCr => exact hok (by rw [h]; rfl) rfl
  | row mode =>
    cases mode with
    | quoted => exact herror (by rw [h]; rfl) rfl
    | quotedEscape => exact herror (by rw [h]; rfl) rfl
    | _ => exact hok (by rw [h]; rfl) rfl

theorem feedBytes_iff (h : Flags oracle mode) {x : Bytes}
    {offsets : List Nat} :
    (∃ final, (x.foldlM (feedByte dialect) oracle >>=
        finalize) = .ok (offsets, final)) ↔
      ∃ rest, (recordAutomaton dialect).splitFrom 10 13 mode oracle.position x = some rest ∧
        offsets = oracle.rowOffsets ++ rest := by
  induction x generalizing oracle mode offsets with
  | nil =>
    rw [List.foldlM_nil, pure_bind, finalize_iff dialect h, RecordAutomaton.splitFrom]
    split
    · next hfinal => simp [hfinal]
    · next hfinal => simp [hfinal]
  | cons byte x ih =>
    rw [List.foldlM_cons, bind_assoc]
    simp only [RecordAutomaton.splitFrom]
    have hfeeds := feedByte_feeds dialect h byte
    cases hstep : (recordAutomaton dialect).splitStep 10 13 mode byte with
    | none =>
      rw [hstep] at hfeeds
      obtain ⟨error, herror⟩ := hfeeds
      rw [herror]
      exact iff_of_false (by rintro ⟨_, h⟩; cases h) (by rintro ⟨_, h, _⟩; cases h)
    | some next =>
      obtain ⟨opens, mode'⟩ := next
      rw [hstep] at hfeeds
      obtain ⟨oracle', hfeed, hflags, hposition, hoffsets⟩ := hfeeds
      have hrest := @ih oracle' mode' hflags offsets
      rw [hposition, hoffsets] at hrest
      rw [hfeed]
      refine hrest.trans ?_
      simp only [Option.bind_some, Option.map_eq_some_iff]
      constructor
      · rintro ⟨rest, hsplit, rfl⟩
        refine ⟨_, ⟨rest, hsplit, rfl⟩, ?_⟩
        cases opens <;> simp
      · rintro ⟨_, ⟨rest, hsplit, rfl⟩, rfl⟩
        refine ⟨rest, hsplit, ?_⟩
        cases opens <;> simp

/-! ## Blocks -/

theorem Flags.finished_eq (h : Flags oracle mode) :
    oracle.finished = false := by
  rw [Flags.eq_def] at h
  cases mode <;> rw [h]

theorem Flags.of_feedBytes {oracle' : CsvRowBoundaryOracle} {mode : Mode FieldMode}
    (h : Flags oracle mode) {x : Bytes}
    (hx : x.foldlM (feedByte dialect) oracle = .ok oracle') :
    ∃ mode', Flags oracle' mode' := by
  induction x generalizing oracle mode with
  | nil =>
    cases hx
    exact ⟨mode, h⟩
  | cons byte x ih =>
    rw [List.foldlM_cons, bind_eq_ok] at hx
    obtain ⟨next, hnext, hx⟩ := hx
    have hfeeds := feedByte_feeds dialect h byte
    cases hstep : (recordAutomaton dialect).splitStep 10 13 mode byte with
    | none =>
      rw [hstep] at hfeeds
      obtain ⟨error, herror⟩ := hfeeds
      rw [hnext] at herror
      cases herror
    | some move =>
      rw [hstep] at hfeeds
      obtain ⟨_, hfeed, hflags, -⟩ := hfeeds
      rw [hnext] at hfeed
      cases hfeed
      exact ih hflags hx

theorem feed_eq (h : Flags oracle mode) (block : Bytes) :
    oracle.feed dialect block = block.foldlM (feedByte dialect) oracle := by
  rw [feed, h.finished_eq]
  rfl

theorem feedBlocks_eq (h : Flags oracle mode) (blocks : List Bytes) :
    blocks.foldlM (feed dialect) oracle =
      blocks.flatten.foldlM (feedByte dialect) oracle := by
  induction blocks generalizing oracle mode with
  | nil => rfl
  | cons block blocks ih =>
    rw [List.foldlM_cons, List.flatten_cons, List.foldlM_append, feed_eq h]
    cases hblock : block.foldlM (feedByte dialect) oracle with
    | error error => rfl
    | ok oracle' =>
      obtain ⟨mode', hflags⟩ := h.of_feedBytes hblock
      exact ih hflags

theorem scanRows_eq_ok {blocks : List Bytes} {offsets : List Nat} :
    scanRows dialect blocks = .ok offsets ↔
      ∃ rows, CsvRows dialect rows ∧ rows.flatten = blocks.flatten ∧ starts 0 rows = offsets := by
  have hinit : Flags init .idle := rfl
  have hscan : scanRows dialect blocks = .ok offsets ↔
      ∃ final, (blocks.flatten.foldlM (feedByte dialect)
        init >>= finalize) = .ok (offsets, final) := by
    rw [scanRows, feedBlocks_eq hinit, ← bind_assoc, bind_eq_ok]
    constructor
    · rintro ⟨⟨_, final⟩, hfinal, hpure⟩
      cases hpure
      exact ⟨final, hfinal⟩
    · rintro ⟨final, hfinal⟩
      exact ⟨_, hfinal, rfl⟩
  rw [hscan, feedBytes_iff hinit, ← split_iff_csvRows]
  constructor
  · rintro ⟨rest, hrest, rfl⟩
    exact hrest
  · intro h
    exact ⟨offsets, h, rfl⟩

/-! ## The rows of a source -/

theorem CsvRows.eq_spans {rows : List Bytes} {blocks : List Bytes} {offsets : List Nat}
    (hscan : scanRows dialect blocks = .ok offsets) (hrows : CsvRows dialect rows)
    (hflat : rows.flatten = blocks.flatten) : rows = spans blocks.flatten offsets := by
  have hother : scanRows dialect blocks = .ok (starts 0 rows) :=
    scanRows_eq_ok.mpr ⟨rows, hrows, hflat, rfl⟩
  rw [hscan] at hother
  cases hother
  rw [← hflat]
  exact (spans_starts [] rows).symm

/-- **The row oracle.** However a source is cut into blocks, the oracle raises if the source does not
consist of rows of the grammar. Otherwise the spans between the offsets that it finds are the one
division of the source into rows, and the offsets start at 0, increase and stay below the length. -/
theorem scanRows_spec (dialect : CsvDialect) (blocks : List Bytes) :
    ((∃ error, scanRows dialect blocks = .error error) ↔
      ¬ ∃ rows, CsvRows dialect rows ∧ rows.flatten = blocks.flatten) ∧
    ∀ offsets, scanRows dialect blocks = .ok offsets →
      CsvRows dialect (spans blocks.flatten offsets) ∧
      (spans blocks.flatten offsets).flatten = blocks.flatten ∧
      (∀ rows, CsvRows dialect rows → rows.flatten = blocks.flatten →
        rows = spans blocks.flatten offsets) ∧
      offsets.head? = (if blocks.flatten = [] then none else some 0) ∧
      offsets.Pairwise (· < ·) ∧ (∀ offset ∈ offsets, offset < blocks.flatten.length) ∧
      ∀ blocks', blocks'.flatten = blocks.flatten → scanRows dialect blocks' = .ok offsets := by
  refine ⟨?_, fun offsets hscan => ?_⟩
  · constructor
    · rintro ⟨error, herror⟩ ⟨rows, hrows, hflat⟩
      have hok := scanRows_eq_ok.mpr ⟨rows, hrows, hflat, rfl⟩
      rw [herror] at hok
      cases hok
    · intro hnone
      cases hscan : scanRows dialect blocks with
      | error error => exact ⟨error, rfl⟩
      | ok offsets =>
        obtain ⟨rows, hrows, hflat, -⟩ := scanRows_eq_ok.mp hscan
        exact absurd ⟨rows, hrows, hflat⟩ hnone
  · obtain ⟨rows, hrows, hflat, hstarts⟩ := scanRows_eq_ok.mp hscan
    have hspans := hrows.eq_spans hscan hflat
    rw [← hspans]
    refine ⟨hrows, hflat, fun rows' hrows' hflat' => ?_, ?_, ?_, ?_, fun blocks' hblocks => ?_⟩
    · rw [hspans]
      exact hrows'.eq_spans hscan hflat'
    · rw [← hstarts, ← hflat]
      cases rows with
      | nil => rfl
      | cons row rows =>
        have hne : (row :: rows).flatten ≠ [] := fun h => List.cons_ne_nil _ _ (hrows.eq_nil h)
        rw [if_neg hne]
        rfl
    · rw [← hstarts]
      exact pairwise_starts hrows.ne_nil 0
    · intro offset hoffset
      rw [← hstarts] at hoffset
      have hbounds := mem_starts_bounds hrows.ne_nil hoffset
      rw [← hflat]
      omega
    · exact scanRows_eq_ok.mpr ⟨rows, hrows, hflat.trans hblocks.symm, hstarts⟩

end Generation
