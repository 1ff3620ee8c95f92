import Mathlib.Data.List.Basic
import Mathlib.Tactic.Common

/-!
# Splitting a text into rows

Rows of a text are records that end with a line feed, with a carriage return, or with both. Given an
automaton that accepts the records, and that cannot go on with a row ending where a record may end, a
single pass over the text finds where the rows start.

The grammar (`Rows`) and the pass (`splitFrom`) are over an arbitrary alphabet.
-/

namespace Automata

open List

variable {α σ : Type}

/-! ## The grammar -/

/-- The ending of a row that `next` follows: a carriage return alone is one unless a line feed follows,
and only the end of the text ends a row by itself. -/
inductive EndsRow (lf cr : α) : List α → Option α → Prop
  | lf (next : Option α) : EndsRow lf cr [lf] next
  | crlf (next : Option α) : EndsRow lf cr [cr, lf] next
  | cr (next : Option α) (h : next ≠ some lf) : EndsRow lf cr [cr] next
  | last : EndsRow lf cr [] none

/-- The rows of a text whose records are described by `record`. -/
inductive Rows (lf cr : α) (record : List α → Prop) : List (List α) → Prop
  | nil : Rows lf cr record []
  | cons {r ending : List α} {rest : List (List α)} (hr : record r)
      (hending : EndsRow lf cr ending rest.flatten.head?) (hne : r ++ ending ≠ [])
      (hrest : Rows lf cr record rest) : Rows lf cr record ((r ++ ending) :: rest)

/-- The places where rows start, the first one at `place`. -/
def starts : Nat → List (List α) → List Nat
  | _, [] => []
  | place, row :: rows => place :: starts (place + row.length) rows

/-- The spans of a text that places delimit, the last one up to the end of the text. -/
def spans (x : List α) : List Nat → List (List α)
  | [] => []
  | [place] => [x.drop place]
  | place :: next :: places => (x.drop place).take (next - place) :: spans x (next :: places)

/-! ## The automaton -/

structure RecordAutomaton (α σ : Type) where
  start : σ
  step : σ → α → Option σ
  final : σ → Bool

namespace RecordAutomaton

/-- The records that can be completed from a state with this text. -/
def Accepts (A : RecordAutomaton α σ) : σ → List α → Prop
  | s, [] => A.final s = true
  | s, a :: x => ∃ s', A.step s a = some s' ∧ A.Accepts s' x

/-- Where the pass is: before a row, in a row, or after a carriage return that may end a row. -/
inductive Mode (σ : Type) where
  | idle
  | row (s : σ)
  | afterCr

variable [DecidableEq α] (A : RecordAutomaton α σ) (lf cr : α)

def rowStep (s : σ) (a : α) : Option (Mode σ) :=
  if A.final s = true ∧ a = lf then some .idle
  else if A.final s = true ∧ a = cr then some .afterCr
  else (A.step s a).map .row

/-- A character of the text: the new mode, and whether a row starts here. -/
def splitStep : Mode σ → α → Option (Bool × Mode σ)
  | .idle, a => (A.rowStep lf cr A.start a).map (true, ·)
  | .row s, a => (A.rowStep lf cr s a).map (false, ·)
  | .afterCr, a =>
    if a = lf then some (false, .idle) else (A.rowStep lf cr A.start a).map (true, ·)

def accepting : Mode σ → Bool
  | .row s => A.final s
  | _ => true

/-- The places from `place` on where rows start. -/
def splitFrom : Mode σ → Nat → List α → Option (List Nat)
  | m, _, [] => if A.accepting m then some [] else none
  | m, place, a :: x =>
    (A.splitStep lf cr m a).bind fun (opens, m') =>
      (splitFrom m' (place + 1) x).map fun offsets => if opens then place :: offsets else offsets

end RecordAutomaton

/-! ## Starts -/

variable {place : Nat}

section Starts

variable {lf cr : α} {record : List α → Prop} {rows : List (List α)}

theorem Rows.ne_nil (h : Rows lf cr record rows) : ∀ row ∈ rows, row ≠ [] := by
  induction h with
  | nil => exact fun row hrow => absurd hrow not_mem_nil
  | cons _ _ hne _ ih => exact forall_mem_cons.mpr ⟨hne, ih⟩

theorem Rows.eq_nil (h : Rows lf cr record rows) (hflat : rows.flatten = []) : rows = [] := by
  cases h with
  | nil => rfl
  | cons _ _ hne _ =>
    rw [flatten_cons, append_eq_nil_iff] at hflat
    exact absurd hflat.1 hne

theorem mem_starts_bounds (h : ∀ row ∈ rows, row ≠ []) {offset : Nat}
    (ho : offset ∈ starts place rows) : place ≤ offset ∧ offset < place + rows.flatten.length := by
  induction rows generalizing place with
  | nil => cases ho
  | cons row rows ih =>
    obtain ⟨hrow, hrows⟩ := forall_mem_cons.mp h
    have hpos : 0 < row.length := length_pos_iff.mpr hrow
    rw [flatten_cons, length_append]
    rcases mem_cons.mp ho with rfl | ho
    · omega
    · have hbounds := ih hrows ho
      omega

theorem pairwise_starts (h : ∀ row ∈ rows, row ≠ []) (place : Nat) :
    (starts place rows).Pairwise (· < ·) := by
  induction rows generalizing place with
  | nil => exact .nil
  | cons row rows ih =>
    obtain ⟨hrow, hrows⟩ := forall_mem_cons.mp h
    have hpos : 0 < row.length := length_pos_iff.mpr hrow
    refine pairwise_cons.mpr ⟨fun offset ho => ?_, ih hrows _⟩
    have hbounds := mem_starts_bounds hrows ho
    omega

theorem spans_starts (before : List α) (rows : List (List α)) :
    spans (before ++ rows.flatten) (starts before.length rows) = rows := by
  induction rows generalizing before with
  | nil => rfl
  | cons row rows ih =>
    have htail := ih (before ++ row)
    rw [append_assoc, ← flatten_cons, length_append] at htail
    cases rows with
    | nil => simp [starts, spans]
    | cons row' rows =>
      have hrow : ((before ++ (row :: row' :: rows).flatten).drop before.length).take
          (before.length + row.length - before.length) = row := by
        simp
      rw [starts] at htail
      simp only [starts, spans]
      rw [hrow, htail]

end Starts

section Split

namespace RecordAutomaton

variable [DecidableEq α] {A : RecordAutomaton α σ} {lf cr : α}

variable {offsets : List Nat} {x : List α} {s : σ} {a : α}

theorem splitFrom_cons {m : Mode σ} :
    A.splitFrom lf cr m place (a :: x) = some offsets ↔
      ∃ opens m', A.splitStep lf cr m a = some (opens, m') ∧
        ∃ rest, A.splitFrom lf cr m' (place + 1) x = some rest ∧
          (if opens then place :: rest else rest) = offsets := by
  simp only [splitFrom, Option.bind_eq_some_iff, Option.map_eq_some_iff, Prod.exists]

theorem splitFrom_idle (hx : x ≠ []) :
    A.splitFrom lf cr .idle place x = some offsets ↔
      ∃ rest, A.splitFrom lf cr (.row A.start) place x = some rest ∧ offsets = place :: rest := by
  cases x with
  | nil => exact absurd rfl hx
  | cons a x =>
    simp only [splitFrom_cons, splitStep, Option.map_eq_some_iff, Prod.mk.injEq]
    constructor
    · rintro ⟨_, _, ⟨m', hm', rfl, rfl⟩, rest, hrest, rfl⟩
      exact ⟨rest, ⟨false, m', ⟨m', hm', rfl, rfl⟩, rest, hrest, rfl⟩, rfl⟩
    · rintro ⟨_, ⟨_, _, ⟨m', hm', rfl, rfl⟩, rest, hrest, rfl⟩, rfl⟩
      exact ⟨true, m', ⟨m', hm', rfl, rfl⟩, rest, hrest, rfl⟩

/-- After a carriage return, a line feed belongs to the ending and anything else to the next row. -/
theorem splitFrom_afterCr :
    A.splitFrom lf cr .afterCr place x = some offsets ↔
      (∃ x', x = lf :: x' ∧ A.splitFrom lf cr .idle (place + 1) x' = some offsets) ∨
        (x.head? ≠ some lf ∧ A.splitFrom lf cr .idle place x = some offsets) := by
  cases x with
  | nil => simp [splitFrom, accepting]
  | cons a x =>
    by_cases ha : a = lf
    · subst ha
      simp [splitFrom_cons, splitStep]
    · simp [splitFrom_cons, splitStep, ha]

def RowsFrom (A : RecordAutomaton α σ) (lf cr : α) (place : Nat) (x : List α) (offsets : List Nat) :
    Prop :=
  ∃ rows, Rows lf cr (A.Accepts A.start) rows ∧ rows.flatten = x ∧ starts place rows = offsets

/-- The text consists of the rest of a row and of rows that start at these places. -/
def RestFrom (A : RecordAutomaton α σ) (lf cr : α) (s : σ) (place : Nat) (x : List α)
    (offsets : List Nat) : Prop :=
  ∃ r ending rows, A.Accepts s r ∧ EndsRow lf cr ending rows.flatten.head? ∧
    Rows lf cr (A.Accepts A.start) rows ∧ r ++ ending ++ rows.flatten = x ∧
    starts (place + (r ++ ending).length) rows = offsets

omit [DecidableEq α] in
/-- A text that is not empty consists of rows if it is the rest of a row and rows. -/
theorem rowsFrom_iff (hx : x ≠ []) :
    A.RowsFrom lf cr place x offsets ↔
      ∃ rest, A.RestFrom lf cr A.start place x rest ∧ offsets = place :: rest := by
  constructor
  · rintro ⟨rows, hrows, hflat, rfl⟩
    cases hrows with
    | nil => exact absurd hflat.symm hx
    | cons hr hending hne hrest =>
      rw [flatten_cons] at hflat
      exact ⟨_, ⟨_, _, _, hr, hending, hrest, hflat, rfl⟩, rfl⟩
  · rintro ⟨_, ⟨r, ending, rows, hr, hending, hrows, hflat, rfl⟩, rfl⟩
    have hne : r ++ ending ≠ [] := by
      intro hnil
      obtain ⟨rfl, rfl⟩ := append_eq_nil_iff.mp hnil
      -- only the end of the text ends a row by itself
      generalize hnext : rows.flatten.head? = next at hending
      cases hending
      rw [head?_eq_none_iff] at hnext
      rw [hnext] at hflat
      exact hx hflat.symm
    exact ⟨_, .cons hr hending hne hrows, hflat, rfl⟩

theorem splitFrom_row_nil :
    A.splitFrom lf cr (.row s) place [] = some offsets ↔ A.RestFrom lf cr s place [] offsets := by
  rw [splitFrom, accepting]
  constructor
  · intro h
    split at h
    · next hfinal =>
      cases h
      exact ⟨[], [], [], hfinal, .last, .nil, rfl, rfl⟩
    · cases h
  · rintro ⟨r, ending, rows, hr, hending, hrows, hflat, rfl⟩
    obtain ⟨hrow, hflat⟩ := append_eq_nil_iff.mp hflat
    obtain ⟨rfl, rfl⟩ := append_eq_nil_iff.mp hrow
    obtain rfl := hrows.eq_nil hflat
    exact if_pos hr

omit [DecidableEq α] in
/-- The first character of the rest of a row belongs to the record, or it begins the ending. -/
theorem restFrom_cons :
    A.RestFrom lf cr s place (a :: x) offsets ↔
      (∃ s', A.step s a = some s' ∧ A.RestFrom lf cr s' (place + 1) x offsets) ∨
      A.final s = true ∧ (a = lf ∧ A.RowsFrom lf cr (place + 1) x offsets ∨
        a = cr ∧ ((∃ x', x = lf :: x' ∧ A.RowsFrom lf cr (place + 2) x' offsets) ∨
          (x.head? ≠ some lf ∧ A.RowsFrom lf cr (place + 1) x offsets))) := by
  constructor
  · rintro ⟨r, ending, rows, hr, hending, hrows, hflat, rfl⟩
    cases r with
    | nil =>
      refine .inr ⟨hr, ?_⟩
      generalize hnext : rows.flatten.head? = next at hending
      cases hending with
      | lf => exact .inl ⟨(cons.inj hflat).1.symm, rows, hrows, (cons.inj hflat).2, rfl⟩
      | crlf =>
        exact .inr ⟨(cons.inj hflat).1.symm, .inl ⟨_, (cons.inj hflat).2.symm, rows, hrows, rfl, rfl⟩⟩
      | cr _ h =>
        obtain ⟨rfl, rfl⟩ := cons.inj hflat
        exact .inr ⟨rfl, .inr ⟨hnext ▸ h, rows, hrows, rfl, rfl⟩⟩
      | last =>
        rw [head?_eq_none_iff] at hnext
        rw [hnext] at hflat
        cases hflat
    | cons b r =>
      obtain ⟨rfl, hrest⟩ := cons.inj hflat
      obtain ⟨s', hs', hr⟩ := hr
      refine .inl ⟨s', hs', r, ending, rows, hr, hending, hrows, hrest, ?_⟩
      rw [cons_append, length_cons, Nat.add_right_comm, Nat.add_assoc]
  · rintro (⟨s', hs', r, ending, rows, hr, hending, hrows, rfl, rfl⟩ |
      ⟨hfinal, ⟨rfl, rows, hrows, rfl, rfl⟩ | ⟨rfl, ⟨x', rfl, rows, hrows, rfl, rfl⟩ |
        ⟨hhead, rows, hrows, rfl, rfl⟩⟩⟩)
    · refine ⟨a :: r, ending, rows, ⟨s', hs', hr⟩, hending, hrows, rfl, ?_⟩
      rw [cons_append, length_cons, Nat.add_right_comm, Nat.add_assoc]
    · exact ⟨[], [a], rows, hfinal, .lf _, hrows, rfl, rfl⟩
    · exact ⟨[], [a, lf], rows, hfinal, .crlf _, hrows, rfl, rfl⟩
    · exact ⟨[], [a], rows, hfinal, .cr _ hhead, hrows, rfl, rfl⟩

section Pass

variable (hlf : ∀ s, A.final s = true → A.step s lf = none)
  (hcr : ∀ s, A.final s = true → A.step s cr = none) (hne : lf ≠ cr)
include hlf hcr hne

/-- What the pass finds in the middle of a row, if it finds the rows of shorter texts. -/
theorem splitFrom_row_cons (hidle : ∀ y, y.length ≤ x.length → ∀ place offsets,
      A.splitFrom lf cr .idle place y = some offsets ↔ A.RowsFrom lf cr place y offsets)
    (hrow : ∀ s place offsets,
      A.splitFrom lf cr (.row s) place x = some offsets ↔ A.RestFrom lf cr s place x offsets) :
    A.splitFrom lf cr (.row s) place (a :: x) = some offsets ↔
      A.RestFrom lf cr s place (a :: x) offsets := by
  rw [splitFrom_cons]
  simp only [splitStep, rowStep]
  by_cases hlast : A.final s = true ∧ a = lf
  · obtain ⟨hfinal, rfl⟩ := hlast
    rw [restFrom_cons, ← hidle x (Nat.le_refl _)]
    simp [hfinal, hlf s hfinal, hne]
  · rw [if_neg hlast]
    by_cases hreturn : A.final s = true ∧ a = cr
    · obtain ⟨hfinal, rfl⟩ := hreturn
      have hafter : A.splitFrom lf a .afterCr (place + 1) x = some offsets ↔
          (∃ x', x = lf :: x' ∧ A.RowsFrom lf a (place + 2) x' offsets) ∨
            (x.head? ≠ some lf ∧ A.RowsFrom lf a (place + 1) x offsets) := by
        rw [splitFrom_afterCr, hidle x (Nat.le_refl _)]
        refine or_congr (exists_congr fun x' => and_congr_right fun hx => ?_) Iff.rfl
        exact hidle x' (by rw [hx, length_cons]; omega) _ _
      rw [restFrom_cons, ← hafter]
      simp [hfinal, hcr s hfinal, hne.symm]
    · rw [if_neg hreturn, restFrom_cons, or_iff_left fun ⟨hfinal, h⟩ =>
        h.elim (fun h => hlast ⟨hfinal, h.1⟩) fun h => hreturn ⟨hfinal, h.1⟩]
      simp only [← hrow, Option.map_eq_some_iff]
      constructor
      · rintro ⟨_, _, ⟨_, ⟨s', hs', rfl⟩, heq⟩, rest, hrest, rfl⟩
        cases heq
        exact ⟨s', hs', hrest⟩
      · rintro ⟨s', hs', hrest⟩
        exact ⟨false, .row s', ⟨_, ⟨s', hs', rfl⟩, rfl⟩, offsets, hrest, rfl⟩

/-- The pass from between two rows and from the middle of a row, for texts up to a length. -/
theorem splitFrom_bounded (n : Nat) :
    (∀ y, y.length ≤ n → ∀ place offsets,
      A.splitFrom lf cr .idle place y = some offsets ↔ A.RowsFrom lf cr place y offsets) ∧
    (∀ y, y.length ≤ n → ∀ s place offsets,
      A.splitFrom lf cr (.row s) place y = some offsets ↔ A.RestFrom lf cr s place y offsets) := by
  -- a row in the middle comes first; the text between rows starts in the middle of its first row
  have hidle : ∀ y, (∀ s place offsets, A.splitFrom lf cr (.row s) place y = some offsets ↔
      A.RestFrom lf cr s place y offsets) → ∀ place offsets,
      A.splitFrom lf cr .idle place y = some offsets ↔ A.RowsFrom lf cr place y offsets := by
    intro y hrow place offsets
    cases y with
    | nil =>
      constructor
      · intro h
        cases h
        exact ⟨[], .nil, rfl, rfl⟩
      · rintro ⟨rows, hrows, hflat, rfl⟩
        obtain rfl := hrows.eq_nil hflat
        rfl
    | cons a y =>
      rw [splitFrom_idle (cons_ne_nil a y), rowsFrom_iff (cons_ne_nil a y)]
      simp only [hrow]
  induction n with
  | zero =>
    have hrow : ∀ y : List α, y.length ≤ 0 → ∀ s place offsets,
        A.splitFrom lf cr (.row s) place y = some offsets ↔ A.RestFrom lf cr s place y offsets := by
      intro y hy s place offsets
      obtain rfl : y = [] := eq_nil_of_length_eq_zero (by omega)
      exact splitFrom_row_nil
    exact ⟨fun y hy => hidle y (hrow y hy), hrow⟩
  | succ n ih =>
    have hrow : ∀ y : List α, y.length ≤ n + 1 → ∀ s place offsets,
        A.splitFrom lf cr (.row s) place y = some offsets ↔ A.RestFrom lf cr s place y offsets := by
      intro y hy s place offsets
      cases y with
      | nil => exact splitFrom_row_nil
      | cons a y =>
        rw [length_cons] at hy
        exact splitFrom_row_cons hlf hcr hne (fun z hz => ih.1 z (by omega)) (ih.2 y (by omega))
    exact ⟨fun y hy => hidle y (hrow y hy), hrow⟩

/-- **Splitting.** The pass succeeds on the texts that consist of rows, and finds their starts. -/
theorem splitFrom_iff :
    A.splitFrom lf cr .idle place x = some offsets ↔
      ∃ rows, Rows lf cr (A.Accepts A.start) rows ∧ rows.flatten = x ∧
        starts place rows = offsets :=
  (splitFrom_bounded hlf hcr hne x.length).1 x (Nat.le_refl _) place offsets

end Pass

end RecordAutomaton

end Split

end Automata
