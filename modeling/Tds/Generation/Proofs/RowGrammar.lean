import Tds.Generation.RowGrammar

/-!
# The automaton of the records

The automaton accepts exactly the records of the grammar. Each mode has the language that completes a
record from it, and a byte takes the language of a mode to the language of the next one.
-/

namespace Generation

open Python Automata List

variable {dialect : CsvDialect}

/-- What may follow a field: the end of the record, or a delimiter and a record. -/
def After (dialect : CsvDialect) : Bytes → Prop
  | [] => True
  | b :: x => b = dialect.delimiter ∧ CsvRecord dialect x

def RestPlain (dialect : CsvDialect) (x : Bytes) : Prop :=
  ∃ f rest, (∀ b ∈ f, Ordinary dialect b) ∧ After dialect rest ∧ x = f ++ rest

def RestQuoted (dialect : CsvDialect) (x : Bytes) : Prop :=
  ∃ body rest, QuotedBody dialect body ∧ After dialect rest ∧ x = body ++ dialect.quote :: rest

def Completes (dialect : CsvDialect) : FieldMode → Bytes → Prop
  | .start, x => CsvRecord dialect x
  | .plain, x => RestPlain dialect x
  | .quoted, x => RestQuoted dialect x
  | .quotedQuote, x =>
    After dialect x ∨
      dialect.doublequote = true ∧ ∃ x', x = dialect.quote :: x' ∧ RestQuoted dialect x'
  | .quotedEscape, x => ∃ b x', x = b :: x' ∧ RestQuoted dialect x'
  | .closed, x => After dialect x

/-! ## The languages of the modes -/

theorem record_append {f rest : Bytes} (hf : CsvField dialect f) (h : After dialect rest) :
    CsvRecord dialect (f ++ rest) := by
  cases rest with
  | nil =>
    rw [append_nil]
    exact .single hf
  | cons b x =>
    obtain ⟨rfl, hx⟩ := h
    exact .cons hf hx

variable {x : Bytes} {b : UInt8}

theorem record_iff :
    CsvRecord dialect x ↔ ∃ f rest, CsvField dialect f ∧ After dialect rest ∧ x = f ++ rest := by
  constructor
  · intro h
    cases h with
    | single hf => exact ⟨x, [], hf, trivial, (append_nil x).symm⟩
    | @cons f r hf hr => exact ⟨f, dialect.delimiter :: r, hf, ⟨rfl, hr⟩, rfl⟩
  · rintro ⟨f, rest, hf, hrest, rfl⟩
    exact record_append hf hrest

/-- A record starts with the rest of a quoted field after its quote, or is plain up to its first
delimiter. -/
theorem record_cons_iff :
    CsvRecord dialect (b :: x) ↔
      (b = dialect.quote ∧ RestQuoted dialect x) ∨
        (b ≠ dialect.quote ∧ RestPlain dialect (b :: x)) := by
  rw [record_iff]
  constructor
  · rintro ⟨f, rest, hf, hrest, hx⟩
    cases hf with
    | plain hf hhead =>
      refine .inr ⟨?_, f, rest, hf, hrest, hx⟩
      rintro rfl
      cases f with
      | nil =>
        obtain rfl : dialect.quote :: x = rest := hx
        exact dialect.delimiter_ne_quote hrest.1.symm
      | cons c f => exact hhead (congrArg some (cons.inj hx).1.symm)
    | @quoted body hbody =>
      obtain ⟨rfl, rfl⟩ := cons.inj hx
      exact .inl ⟨rfl, body, rest, hbody, hrest, append_assoc _ _ _⟩
  · rintro (⟨rfl, body, rest, hbody, hrest, rfl⟩ | ⟨hquote, f, rest, hf, hrest, hx⟩)
    · refine ⟨_, rest, .quoted hbody, hrest, ?_⟩
      rw [cons_append, append_assoc]
      rfl
    · refine ⟨f, rest, .plain hf ?_, hrest, hx⟩
      cases f with
      | nil => exact nofun
      | cons c f =>
        obtain ⟨rfl, -⟩ := cons.inj hx
        exact fun h => hquote (Option.some.inj h)

theorem record_nil : CsvRecord dialect [] :=
  .single (.plain (fun _ h => absurd h not_mem_nil) nofun)

theorem restPlain_nil : RestPlain dialect [] :=
  ⟨[], [], fun _ h => absurd h not_mem_nil, trivial, rfl⟩

theorem restPlain_cons :
    RestPlain dialect (b :: x) ↔
      (b = dialect.delimiter ∧ CsvRecord dialect x) ∨ (Ordinary dialect b ∧ RestPlain dialect x) := by
  constructor
  · rintro ⟨f, rest, hf, hrest, hx⟩
    cases f with
    | nil =>
      obtain rfl : b :: x = rest := hx
      exact .inl hrest
    | cons c f =>
      obtain ⟨rfl, rfl⟩ := cons.inj hx
      obtain ⟨hc, hf⟩ := forall_mem_cons.mp hf
      exact .inr ⟨hc, f, rest, hf, hrest, rfl⟩
  · rintro (h | ⟨hb, f, rest, hf, hrest, rfl⟩)
    · exact ⟨[], b :: x, fun _ h => absurd h not_mem_nil, h, rfl⟩
    · exact ⟨b :: f, rest, forall_mem_cons.mpr ⟨hb, hf⟩, hrest, rfl⟩

theorem not_restQuoted_nil : ¬ RestQuoted dialect [] := by
  rintro ⟨body, rest, -, -, h⟩
  exact append_ne_nil_of_right_ne_nil body (cons_ne_nil _ _) h.symm

/-- The first byte of the rest of a quoted field escapes the next one, closes the field, is the first of
two quotes, or is itself meant. -/
theorem restQuoted_cons :
    RestQuoted dialect (b :: x) ↔
      (dialect.escape = some b ∧ ∃ c x', x = c :: x' ∧ RestQuoted dialect x') ∨
      (b = dialect.quote ∧ (After dialect x ∨
        dialect.doublequote = true ∧ ∃ x', x = dialect.quote :: x' ∧ RestQuoted dialect x')) ∨
      (b ≠ dialect.quote ∧ dialect.escape ≠ some b ∧ RestQuoted dialect x) := by
  constructor
  · rintro ⟨body, rest, hbody, hrest, hx⟩
    cases hbody with
    | nil =>
      obtain ⟨rfl, rfl⟩ := cons.inj hx
      exact .inr (.inl ⟨rfl, .inl hrest⟩)
    | plain hquote hescape hbody =>
      obtain ⟨rfl, rfl⟩ := cons.inj hx
      exact .inr (.inr ⟨hquote, hescape, _, rest, hbody, hrest, rfl⟩)
    | doubled h hbody =>
      obtain ⟨rfl, rfl⟩ := cons.inj hx
      exact .inr (.inl ⟨rfl, .inr ⟨h, _, rfl, _, rest, hbody, hrest, rfl⟩⟩)
    | escaped he hbody =>
      obtain ⟨rfl, rfl⟩ := cons.inj hx
      exact .inl ⟨he, _, _, rfl, _, rest, hbody, hrest, rfl⟩
  · rintro (⟨he, c, _, rfl, body, rest, hbody, hrest, rfl⟩ |
      ⟨rfl, hrest | ⟨h, _, rfl, body, rest, hbody, hrest, rfl⟩⟩ |
      ⟨hquote, hescape, body, rest, hbody, hrest, rfl⟩)
    · exact ⟨_, rest, .escaped he hbody, hrest, rfl⟩
    · exact ⟨[], x, .nil, hrest, rfl⟩
    · exact ⟨_, rest, .doubled h hbody, hrest, rfl⟩
    · exact ⟨_, rest, .plain hquote hescape hbody, hrest, rfl⟩

/-! ## The automaton -/

variable (mode : FieldMode)

theorem completes_nil : Completes dialect mode [] ↔ mode.final = true := by
  cases mode with
  | start => exact iff_of_true record_nil rfl
  | plain => exact iff_of_true restPlain_nil rfl
  | quoted => exact iff_of_false not_restQuoted_nil nofun
  | quotedQuote => exact iff_of_true (.inl trivial) rfl
  | quotedEscape => exact iff_of_false (fun ⟨_, _, h, _⟩ => by cases h) nofun
  | closed => exact iff_of_true trivial rfl

theorem completes_cons (b : UInt8) (x : Bytes) :
    Completes dialect mode (b :: x) ↔
      ∃ mode', fieldStep dialect mode b = some mode' ∧ Completes dialect mode' x := by
  have hdq := dialect.delimiter_ne_quote
  have hescape := dialect.escape_ne b
  have hplain : RestPlain dialect (b :: x) ↔
      ∃ mode', fieldStep dialect .plain b = some mode' ∧ Completes dialect mode' x := by
    rw [restPlain_cons, fieldStep, Ordinary]
    by_cases hd : b = dialect.delimiter
    · simp [hd, Completes]
    · by_cases hending : b = 10 ∨ b = 13
      · rw [if_neg hd, if_pos hending]
        refine iff_of_false ?_ nofun
        rintro (⟨h, -⟩ | ⟨⟨-, h10, h13⟩, -⟩)
        · exact hd h
        · exact hending.elim h10 h13
      · simp only [not_or] at hending
        simp [hd, hending, Completes]
  cases mode with
  | start =>
    change CsvRecord dialect (b :: x) ↔ _
    rw [record_cons_iff, hplain]
    by_cases hq : b = dialect.quote
    · simp [fieldStep, hq, Completes]
    · simp [fieldStep, hq]
  | plain => exact hplain
  | quoted =>
    change RestQuoted dialect (b :: x) ↔ _
    rw [restQuoted_cons, fieldStep]
    by_cases he : dialect.escape = some b
    · have hq : b ≠ dialect.quote := (hescape he).2.1
      simp [he, hq, Completes]
    · by_cases hq : b = dialect.quote
      · have he' : dialect.escape ≠ some dialect.quote := hq ▸ he
        by_cases hdouble : dialect.doublequote = true
        · simp [hq, he', hdouble, Completes]
        · simp [hq, he', hdouble, Completes]
      · simp [hq, he, Completes]
  | quotedQuote =>
    change b = dialect.delimiter ∧ CsvRecord dialect x ∨ dialect.doublequote = true ∧
      (∃ x', b :: x = dialect.quote :: x' ∧ RestQuoted dialect x') ↔ _
    rw [fieldStep]
    by_cases hq : dialect.doublequote = true ∧ b = dialect.quote
    · simp [hq, hdq.symm, Completes]
    · have hne : ¬ (dialect.doublequote = true ∧
          ∃ x', b :: x = dialect.quote :: x' ∧ RestQuoted dialect x') := by
        rintro ⟨h, _, hx, -⟩
        exact hq ⟨h, (cons.inj hx).1⟩
      rw [if_neg hq, or_iff_left hne]
      by_cases hd : b = dialect.delimiter <;> simp [hd, Completes]
  | quotedEscape => simp [Completes, fieldStep]
  | closed =>
    change b = dialect.delimiter ∧ CsvRecord dialect x ↔ _
    rw [fieldStep]
    by_cases hd : b = dialect.delimiter <;> simp [hd, Completes]

theorem accepts_iff_completes (x : Bytes) :
    (recordAutomaton dialect).Accepts mode x ↔ Completes dialect mode x := by
  induction x generalizing mode with
  | nil => exact (completes_nil mode).symm
  | cons b x ih =>
    rw [completes_cons]
    exact exists_congr fun mode' => and_congr_right fun _ => ih mode'

theorem accepts_start : (recordAutomaton dialect).Accepts FieldMode.start = CsvRecord dialect :=
  funext fun x => propext (accepts_iff_completes .start x)

theorem fieldStep_ending {mode : FieldMode} (h : mode.final = true) (hb : b = 10 ∨ b = 13) :
    fieldStep dialect mode b = none := by
  have hd : b ≠ dialect.delimiter := by
    obtain ⟨h10, h13⟩ := dialect.delimiter_ne_ending
    rintro rfl
    exact hb.elim h10 h13
  have hq : b ≠ dialect.quote := by
    obtain ⟨h10, h13⟩ := dialect.quote_ne_ending
    rintro rfl
    exact hb.elim h10 h13
  cases mode with
  | quoted => cases h
  | quotedEscape => cases h
  | _ => simp [fieldStep, hd, hq, hb]

theorem split_iff_csvRows {place : Nat} {offsets : List Nat} :
    (recordAutomaton dialect).splitFrom 10 13 .idle place x = some offsets ↔
      ∃ rows, CsvRows dialect rows ∧ rows.flatten = x ∧ starts place rows = offsets := by
  rw [RecordAutomaton.splitFrom_iff (fun _ h => fieldStep_ending h (.inl rfl))
    (fun _ h => fieldStep_ending h (.inr rfl)) (by decide)]
  have hstart : (recordAutomaton dialect).Accepts (recordAutomaton dialect).start = CsvRecord dialect :=
    accepts_start
  rw [hstart]

end Generation
