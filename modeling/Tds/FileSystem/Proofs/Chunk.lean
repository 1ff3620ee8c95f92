import Tds.FileSystem.Text
import Tds.Python.Proofs.Text
import Tds.Python.Raise

/-!
# Chunks of UTF-8

`splitUtf8Chunks_utf8`: the text is cut between characters, greedily, into groups that fit into a
chunk. The boundaries are always accepted by the checks that follow.
-/

namespace FileSystem

open Python List

@[simp] theorem raiseIf_eq_ok {c : Prop} [Decidable c] {type : ExceptionType} {message : Str}
    {u : Unit} : raiseIf c type message = .ok u ↔ ¬ c := by
  unfold raiseIf raise
  split <;> simp_all

theorem raiseIf_neg {c : Prop} [Decidable c] (h : ¬ c) (type : ExceptionType) (message : Str) :
    raiseIf c type message = .ok () := if_neg h

abbrev utf8 (s : Str) : Bytes := s.flatMap encodeUtf8Char

/-! ## Characters -/

theorem continuation_eq_ok {data : Bytes} {offset : Nat} {b : UInt8} :
    continuation data offset = .ok b ↔ data[offset]? = some b ∧ isContinuation b = true := by
  unfold continuation
  cases data[offset]? with
  | none => simp [raise]
  | some b' =>
    have hiff : isContinuation b' = true ↔ ¬ (b' < 0x80 || 0xBF < b') = true := by
      simp [isContinuation]
    dsimp only
    split
    · next h =>
      have hnot := (not_congr hiff).mpr (not_not_intro h)
      refine iff_of_false (by simp [raise]) ?_
      rintro ⟨⟨⟩, hb⟩
      exact hnot hb
    · next h =>
      simp only [Except.ok.injEq, Option.some.injEq]
      exact ⟨fun heq => ⟨heq, heq ▸ hiff.mpr h⟩, fun heq => heq.1⟩

theorem length_encodeUtf8Char_pos (c : Nat) : 0 < (encodeUtf8Char c).length := by
  unfold encodeUtf8Char
  split
  · simp
  · split
    · simp
    · split <;> simp

theorem sequenceLength_append {c : Nat} {octets : Bytes} (h : Sequence c octets) (rest : Bytes) :
    sequenceLength (octets ++ rest) = .ok octets.length := by
  cases h with
  | one h0 => exact if_pos (UInt8.le_iff_toNat_le.mpr (Nat.le_of_lt_succ h0))
  | @two b0 b1 h0 h1 =>
    have hb1 : continuation (b0 :: b1 :: rest) 1 = .ok b1 := continuation_eq_ok.mpr ⟨rfl, h1⟩
    have hlt : ¬ b0.toNat ≤ 0x7F := by omega
    simp [sequenceLength, UInt8.le_iff_toNat_le, hlt, h0, hb1]
  | @three b0 b1 b2 h0 h1 h2 hlow hhigh =>
    have hb1 : continuation (b0 :: b1 :: b2 :: rest) 1 = .ok b1 := continuation_eq_ok.mpr ⟨rfl, h1⟩
    have hb2 : continuation (b0 :: b1 :: b2 :: rest) 2 = .ok b2 := continuation_eq_ok.mpr ⟨rfl, h2⟩
    simp only [cons_append, nil_append, sequenceLength, hb1, hb2, ok_bind, pure_eq_ok,
      UInt8.le_iff_toNat_le, UInt8.lt_iff_toNat_lt, ← UInt8.toNat_inj, UInt8.reduceToNat, Bool.and_eq_true,
      Bool.or_eq_true, decide_eq_true_eq]
    rw [if_neg (by omega), if_neg (by omega)]
    split
    · next h => exact congrArg (· >>= _) (raiseIf_neg (Nat.not_lt.mpr (hlow h)) _ _)
    · split
      · rfl
      · next hne hother =>
        have heq : b0.toNat = 0xED := by omega
        rw [if_pos heq, raiseIf_neg (Nat.not_lt.mpr (hhigh heq)), ok_bind]
        rfl
  | @four b0 b1 b2 b3 h0 h1 h2 h3 hlow hhigh =>
    have hb1 : continuation (b0 :: b1 :: b2 :: b3 :: rest) 1 = .ok b1 := continuation_eq_ok.mpr ⟨rfl, h1⟩
    have hb2 : continuation (b0 :: b1 :: b2 :: b3 :: rest) 2 = .ok b2 := continuation_eq_ok.mpr ⟨rfl, h2⟩
    have hb3 : continuation (b0 :: b1 :: b2 :: b3 :: rest) 3 = .ok b3 := continuation_eq_ok.mpr ⟨rfl, h3⟩
    simp only [cons_append, nil_append, sequenceLength, hb1, hb2, hb3, ok_bind, pure_eq_ok,
      UInt8.le_iff_toNat_le, UInt8.lt_iff_toNat_lt, ← UInt8.toNat_inj, UInt8.reduceToNat, Bool.and_eq_true,
      Bool.or_eq_true, decide_eq_true_eq]
    rw [if_neg (by omega), if_neg (by omega), if_neg (by omega), if_neg (by omega), if_neg (by omega)]
    split
    · next h => exact congrArg (· >>= _) (raiseIf_neg (Nat.not_lt.mpr (hlow h)) _ _)
    · split
      · rfl
      · next hne hother =>
        have heq : b0.toNat = 0xF4 := by omega
        rw [if_pos heq, raiseIf_neg (Nat.not_lt.mpr (hhigh heq)), ok_bind]
        rfl

/-! ## Groups of characters -/

/-- The groups that are complete, and the characters that are left, when the characters of `group` are
already taken together. -/
def closedGroups (chunkSize : Nat) : Str → Str → List Str × Str
  | [], group => ([], group)
  | c :: s, group =>
    let cut := group ≠ [] ∧ chunkSize < (utf8 group).length + (encodeUtf8Char c).length
    let grown := (if cut then [] else group) ++ [c]
    let full := chunkSize ≤ (utf8 grown).length
    let tail := closedGroups chunkSize s (if full then [] else grown)
    ((if cut then [group] else []) ++ (if full then [grown] else []) ++ tail.1, tail.2)

def chunkTexts (chunkSize : Nat) (s : Str) : List Str :=
  let closed := closedGroups chunkSize s []
  if closed.2 = [] then closed.1 else closed.1 ++ [closed.2]

/-- The ends of the groups, when the first one begins at a position. -/
def boundsFrom : Nat → List Str → List Nat
  | _, [] => []
  | start, group :: groups =>
    (start + (utf8 group).length) :: boundsFrom (start + (utf8 group).length) groups

theorem utf8_append (s t : Str) : utf8 (s ++ t) = utf8 s ++ utf8 t := flatMap_append

theorem boundsFrom_append (start : Nat) (gs hs : List Str) :
    boundsFrom start (gs ++ hs) =
      boundsFrom start gs ++ boundsFrom (start + (utf8 gs.flatten).length) hs := by
  induction gs generalizing start with
  | nil => simp [boundsFrom]
  | cons g gs ih =>
    rw [cons_append, boundsFrom, boundsFrom, ih, cons_append, flatten_cons, utf8_append,
      length_append, Nat.add_assoc]

variable {s : Str} {gs : List Str}

theorem length_utf8_pos (h : s ≠ []) : 0 < (utf8 s).length := by
  cases s with
  | nil => exact absurd rfl h
  | cons c s =>
    have := length_encodeUtf8Char_pos c
    rw [utf8, flatMap_cons, length_append]
    omega

variable (chunkSize : Nat)

theorem scanBounds_utf8 (hs : s.all isScalar = true) (group : Str)
    (start fuel : Nat) (hfuel : (utf8 s).length ≤ fuel) :
    scanBounds chunkSize fuel (utf8 s) (start + (utf8 group).length) start =
      .ok (boundsFrom start (closedGroups chunkSize s group).1) := by
  induction s generalizing group start fuel with
  | nil => cases fuel <;> rfl
  | cons c s ih =>
    rw [all_cons, Bool.and_eq_true] at hs
    have hpos := length_encodeUtf8Char_pos c
    have hcons : utf8 (c :: s) = encodeUtf8Char c ++ utf8 s := flatMap_cons ..
    rw [hcons, length_append] at hfuel
    obtain ⟨fuel, rfl⟩ : ∃ n, fuel = n + 1 := ⟨fuel - 1, by omega⟩
    have hne : encodeUtf8Char c ++ utf8 s ≠ [] := by
      intro h
      rw [append_eq_nil_iff] at h
      simp [h.1] at hpos
    rw [hcons, scanBounds, if_neg hne, sequenceLength_append (sequence_encodeUtf8Char hs.1), ok_bind, drop_left,
      closedGroups]
    dsimp only
    -- what happens once it is known where the group of the character begins
    have hrest : ∀ (pre : List Nat) (start' next : Nat) (grown : Str),
        next = start' + (utf8 grown).length →
        (do
          let bounds ← scanBounds chunkSize fuel (utf8 s) next
            (if chunkSize ≤ next - start' then next else start')
          pure (pre ++ (if chunkSize ≤ next - start' then [next] else []) ++ bounds)) =
        .ok (pre ++ boundsFrom start' ((if chunkSize ≤ (utf8 grown).length then [grown] else []) ++
          (closedGroups chunkSize s (if chunkSize ≤ (utf8 grown).length then [] else grown)).1)) := by
      rintro pre start' next grown rfl
      rw [Nat.add_sub_cancel_left]
      by_cases hfull : chunkSize ≤ (utf8 grown).length
      · simp only [if_pos hfull]
        have hscan := ih hs.2 [] (start' + (utf8 grown).length) fuel (by omega)
        rw [show (utf8 []).length = 0 from rfl, Nat.add_zero] at hscan
        rw [hscan, ok_bind, append_assoc]
        rfl
      · simp only [if_neg hfull]
        rw [ih hs.2 grown start' fuel (by omega), ok_bind, append_nil]
        rfl
    -- the character closes the open group or joins it
    have hcut : (start < start + (utf8 group).length ∧ chunkSize < start + (utf8 group).length +
        (encodeUtf8Char c).length - start) ↔
        (group ≠ [] ∧ chunkSize < (utf8 group).length + (encodeUtf8Char c).length) := by
      refine and_congr ⟨fun h hnil => ?_, fun h => ?_⟩ (by omega)
      · simp [hnil] at h
      · have := length_utf8_pos h
        omega
    by_cases h : group ≠ [] ∧ chunkSize < (utf8 group).length + (encodeUtf8Char c).length
    · simp only [if_pos h, if_pos (hcut.mpr h)]
      refine (hrest _ _ _ [c] ?_).trans ?_
      · simp [utf8]
      · rfl
    · simp only [if_neg h, if_neg (mt hcut.mp h)]
      refine (hrest _ _ _ (group ++ [c]) ?_).trans ?_
      · simp [utf8, Nat.add_assoc]
      · rfl

theorem flatten_closedGroups (s group : Str) :
    (closedGroups chunkSize s group).1.flatten ++ (closedGroups chunkSize s group).2 = group ++ s := by
  induction s generalizing group with
  | nil => simp [closedGroups]
  | cons c s ih =>
    rw [closedGroups]
    dsimp only
    rw [flatten_append, append_assoc, ih]
    by_cases hcut : group ≠ [] ∧ chunkSize < (utf8 group).length + (encodeUtf8Char c).length
    · simp only [if_pos hcut, nil_append]
      split <;> simp
    · simp only [if_neg hcut]
      split <;> simp

/-- A group that may become a chunk: it fits into one, or it is a single character. -/
def Fits (chunkSize : Nat) (group : Str) : Prop :=
  group ≠ [] ∧ ((utf8 group).length ≤ chunkSize ∨ group.length = 1)

theorem fits_closedGroups (s : Str) {group : Str}
    (hgroup : group = [] ∨ (utf8 group).length < chunkSize) :
    (∀ g ∈ (closedGroups chunkSize s group).1, Fits chunkSize g) ∧
      ((closedGroups chunkSize s group).2 = [] ∨
        (utf8 (closedGroups chunkSize s group).2).length < chunkSize) := by
  induction s generalizing group with
  | nil => exact ⟨by simp [closedGroups], hgroup⟩
  | cons c s ih =>
    rw [closedGroups]
    dsimp only
    set cut := group ≠ [] ∧ chunkSize < (utf8 group).length + (encodeUtf8Char c).length with hcut
    set grown := (if cut then [] else group) ++ [c] with hgrown
    have hfits : Fits chunkSize grown := by
      refine ⟨by simp [hgrown], ?_⟩
      by_cases h : cut
      · right
        simp [hgrown, if_pos h]
      · rcases hgroup with hnil | hlt
        · right
          simp [hgrown, hnil]
        · by_cases hne : group = []
          · right
            simp [hgrown, hne]
          · left
            have := fun h' => h ⟨hne, h'⟩
            rw [hgrown, if_neg h, utf8_append, length_append]
            simp only [utf8, flatMap_cons, flatMap_nil, append_nil]
            exact Nat.not_lt.mp this
    have hnext : (if chunkSize ≤ (utf8 grown).length then [] else grown) = [] ∨
        (utf8 (if chunkSize ≤ (utf8 grown).length then [] else grown)).length < chunkSize := by
      by_cases h : chunkSize ≤ (utf8 grown).length
      · exact .inl (if_pos h)
      · rw [if_neg h]
        exact .inr (Nat.not_le.mp h)
    obtain ⟨htail, hrest⟩ := ih hnext
    refine ⟨fun g hg => ?_, hrest⟩
    rw [mem_append, mem_append] at hg
    rcases hg with (hg | hg) | hg
    · by_cases h : cut
      · rw [if_pos h, mem_singleton] at hg
        subst hg
        exact ⟨h.1, .inl (hgroup.resolve_left h.1).le⟩
      · rw [if_neg h] at hg
        cases hg
    · by_cases h : chunkSize ≤ (utf8 grown).length
      · rw [if_pos h, mem_singleton] at hg
        exact hg ▸ hfits
      · rw [if_neg h] at hg
        cases hg
    · exact htail g hg

theorem flatten_chunkTexts (s : Str) : (chunkTexts chunkSize s).flatten = s := by
  have h := flatten_closedGroups chunkSize s []
  unfold chunkTexts
  dsimp only
  split
  · next hnil => rwa [hnil, append_nil] at h
  · rw [flatten_append, flatten_singleton]
    exact h

theorem fits_chunkTexts (s : Str) : ∀ g ∈ chunkTexts chunkSize s, Fits chunkSize g := by
  obtain ⟨hclosed, hrest⟩ := fits_closedGroups chunkSize s (.inl rfl)
  unfold chunkTexts
  dsimp only
  split
  · exact hclosed
  · next hne =>
    intro g hg
    rcases mem_append.mp hg with hg | hg
    · exact hclosed g hg
    · rw [mem_singleton.mp hg]
      exact ⟨hne, .inl (hrest.resolve_left hne).le⟩

/-! ## Boundaries -/

theorem getLast?_boundsFrom (start : Nat) (h : gs ≠ []) :
    (boundsFrom start gs).getLast? = some (start + (utf8 gs.flatten).length) := by
  have hsplit := dropLast_append_getLast h
  rw [← hsplit, boundsFrom_append, boundsFrom, boundsFrom, getLast?_append, flatten_append,
    utf8_append, length_append, flatten_singleton, Nat.add_assoc]
  rfl

theorem utf8ChunkBounds_utf8 (hs : s.all isScalar = true) (chunkSize : Nat) :
    utf8ChunkBounds (utf8 s) chunkSize = .ok (boundsFrom 0 (chunkTexts chunkSize s)) := by
  have hscan := scanBounds_utf8 chunkSize hs [] 0 (utf8 s).length le_rfl
  have hflat := flatten_closedGroups chunkSize s []
  rw [show 0 + (utf8 []).length = 0 from rfl] at hscan
  rw [utf8ChunkBounds, hscan, ok_bind, pure_eq_ok]
  unfold chunkTexts
  dsimp only
  congr 1
  generalize closedGroups chunkSize s [] = closed at hflat ⊢
  obtain ⟨groups, rest⟩ := closed
  dsimp only at hflat ⊢
  rw [nil_append] at hflat
  subst hflat
  by_cases hrest : rest = []
  · -- all groups are complete, so the last boundary is the end
    subst hrest
    rw [if_pos rfl, append_nil, if_neg]
    rintro ⟨hlast, hne⟩
    have hgroups : groups ≠ [] := by
      rintro rfl
      exact hne rfl
    rw [getLast?_boundsFrom 0 hgroups, Nat.zero_add] at hlast
    exact hlast rfl
  · -- the end is a boundary of its own
    have hpos := length_utf8_pos hrest
    rw [if_neg hrest, boundsFrom_append, if_pos, utf8_append, length_append, Nat.zero_add]
    · rfl
    · rw [utf8_append]
      refine ⟨?_, fun hnil => ?_⟩
      · by_cases hgroups : groups = []
        · subst hgroups
          simp [boundsFrom]
        · rw [getLast?_boundsFrom 0 hgroups, length_append]
          intro heq
          have := Option.some.inj heq
          omega
      · rw [(append_eq_nil_iff.mp hnil).2] at hpos
        exact absurd hpos (by simp)

theorem sliceBytes_append (a b c : Bytes) :
    sliceBytes (a ++ b ++ c) a.length (a.length + b.length) = b := by
  rw [sliceBytes, ← length_append, take_left, drop_left]

theorem decodeChunk_utf8 (hs : s.all isScalar = true) : decodeChunk (utf8 s) = .ok s := by
  rw [decodeChunk, decodeUtf8_flatMap hs]

theorem length_encodeUtf8Char_le (c : Nat) : (encodeUtf8Char c).length ≤ 4 := by
  unfold encodeUtf8Char
  split
  · simp
  · split
    · simp
    · split <;> simp

section Boundaries

variable {chunkSize : Nat}

theorem Fits.budget {g : Str} (h : Fits chunkSize g) :
    ¬ (chunkSize < (utf8 g).length ∧ (g.length ≠ 1 ∨ 4 < (utf8 g).length)) := by
  rintro ⟨hlt, hbad⟩
  have hone := h.2.resolve_left (Nat.not_le.mpr hlt)
  obtain ⟨c, rfl⟩ := length_eq_one_iff.mp hone
  have := length_encodeUtf8Char_le c
  simp only [utf8, flatMap_cons, flatMap_nil, append_nil] at hbad
  omega

theorem boundary_step {g : Str} (hg : g ≠ []) (pre post : Str) :
    ¬ ((utf8 pre).length + (utf8 g).length ≤ (utf8 pre).length ∨
        (utf8 (pre ++ (g ++ post))).length < (utf8 pre).length + (utf8 g).length) ∧
      sliceBytes (utf8 (pre ++ (g ++ post))) (utf8 pre).length
        ((utf8 pre).length + (utf8 g).length) = utf8 g := by
  have hpos := length_utf8_pos hg
  rw [utf8_append, utf8_append, ← append_assoc]
  refine ⟨?_, sliceBytes_append _ _ _⟩
  rw [length_append, length_append]
  omega

theorem bounds_boundsFrom (hfits : ∀ g ∈ gs, Fits chunkSize g) (pre : Str)
    (hs : (pre ++ gs.flatten).all isScalar = true) :
    validateBounds (utf8 (pre ++ gs.flatten)) chunkSize (boundsFrom (utf8 pre).length gs)
      (utf8 pre).length = .ok () ∧
    splitAtBounds (utf8 (pre ++ gs.flatten)) (boundsFrom (utf8 pre).length gs) (utf8 pre).length =
      .ok (gs.map utf8) := by
  induction gs generalizing pre with
  | nil =>
    rw [boundsFrom, validateBounds, splitAtBounds, raiseIf_neg (by simp), raiseIf_neg (by simp)]
    exact ⟨rfl, rfl⟩
  | cons g gs ih =>
    have hg := hfits g mem_cons_self
    obtain ⟨hrange, hslice⟩ := boundary_step hg.1 pre gs.flatten
    have hassoc : pre ++ (g ++ gs.flatten) = (pre ++ g) ++ gs.flatten := (append_assoc ..).symm
    rw [flatten_cons] at hs ⊢
    have hscalar : g.all isScalar = true := by
      rw [all_append, all_append, Bool.and_eq_true, Bool.and_eq_true] at hs
      exact hs.2.1
    obtain ⟨hvalidate, hsplit⟩ :=
      ih (fun g' h' => hfits g' (mem_cons_of_mem _ h')) (pre ++ g) (hassoc ▸ hs)
    rw [boundsFrom, validateBounds, splitAtBounds, raiseIf_neg hrange, raiseIf_neg hrange, ok_bind,
      ok_bind]
    dsimp only
    rw [hslice, decodeChunk_utf8 hscalar, ok_bind, ok_bind, raiseIf_neg hg.budget, ok_bind, hassoc,
      ← length_append, ← utf8_append, hvalidate, hsplit, ok_bind]
    exact ⟨rfl, rfl⟩

end Boundaries

/-- A text is split into chunks that make it up, each of them text and within the budget. -/
theorem splitUtf8Chunks_utf8 (hs : s.all isScalar = true) (chunkSize : Nat) :
    splitUtf8Chunks (utf8 s) chunkSize = .ok ((chunkTexts chunkSize s).map utf8) := by
  have hfits := fits_chunkTexts chunkSize s
  have hflat := flatten_chunkTexts chunkSize s
  have hs' : ([] ++ (chunkTexts chunkSize s).flatten).all isScalar = true := by rwa [hflat]
  obtain ⟨hvalidate, hsplit⟩ := bounds_boundsFrom hfits [] hs'
  rw [nil_append, hflat] at hvalidate hsplit
  rw [splitUtf8Chunks, utf8ChunkBounds_utf8 hs, ok_bind]
  exact (congrArg (· >>= _) hvalidate).trans hsplit

/-! ## A text of one letter -/

/-- The letter `x` a number of times. -/
def letters (n : Nat) : Str := List.replicate n 120

theorem length_utf8_letters (n : Nat) : (utf8 (letters n)).length = n := by
  induction n with
  | zero => rfl
  | succ n ih =>
    rw [letters, replicate_succ, utf8, flatMap_cons, length_append]
    rw [utf8, letters] at ih
    rw [ih, show (encodeUtf8Char 120).length = 1 from rfl, Nat.add_comm]

theorem all_isScalar_letters (n : Nat) : (letters n).all isScalar = true := by
  rw [all_eq_true]
  intro c hc
  rw [eq_of_mem_replicate hc]
  rfl

theorem closedGroups_letters {r n : Nat} (hn : 0 < n) (s : Str) :
    closedGroups (r + n) (letters n ++ s) (letters r) =
      (letters (r + n) :: (closedGroups (r + n) s []).1, (closedGroups (r + n) s []).2) := by
  induction n generalizing r with
  | zero => exact absurd hn (Nat.lt_irrefl 0)
  | succ n ih =>
    have hcut : ¬ (letters r ≠ [] ∧
        r + (n + 1) < (utf8 (letters r)).length + (encodeUtf8Char 120).length) := by
      rw [length_utf8_letters, show (encodeUtf8Char 120).length = 1 from rfl]
      omega
    have hgrown : letters r ++ [120] = letters (r + 1) := (replicate_succ' ..).symm
    have hcons : letters (n + 1) ++ s = 120 :: (letters n ++ s) := rfl
    rw [hcons, closedGroups, if_neg hcut, if_neg hcut, hgrown, length_utf8_letters]
    cases n with
    | zero =>
      rw [if_pos (Nat.le_refl _), if_pos (Nat.le_refl _)]
      rfl
    | succ n =>
      have hfull : ¬ r + (n + 1 + 1) ≤ r + 1 := by omega
      have hstep := ih (r := r + 1) (Nat.succ_pos n)
      rw [show r + 1 + (n + 1) = r + (n + 1 + 1) by omega] at hstep
      rw [if_neg hfull, if_neg hfull, hstep]
      rfl

theorem chunkTexts_letters {chunkSize : Nat} (h : 0 < chunkSize) (k : Nat) :
    chunkTexts chunkSize (letters (k * chunkSize)) = List.replicate k (letters chunkSize) := by
  have hclosed : closedGroups chunkSize (letters (k * chunkSize)) [] =
      (replicate k (letters chunkSize), []) := by
    induction k with
    | zero =>
      rw [Nat.zero_mul]
      rfl
    | succ k ih =>
      have hsplit : letters ((k + 1) * chunkSize) = letters chunkSize ++ letters (k * chunkSize) := by
        rw [Nat.succ_mul, Nat.add_comm]
        exact (replicate_append_replicate ..).symm
      have hstep := closedGroups_letters (r := 0) h (letters (k * chunkSize))
      rw [Nat.zero_add] at hstep
      rw [hsplit, show ([] : Str) = letters 0 from rfl, hstep, ih]
      rfl
  rw [chunkTexts, hclosed]
  rfl

end FileSystem
