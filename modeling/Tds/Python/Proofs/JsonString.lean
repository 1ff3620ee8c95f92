import Tds.Python.Json

/-!
# Reading back what was written: strings and numbers

The tokens of a JSON text are read back exactly. A string must be free of surrogates: two escaped
surrogates that happen to be neighbours would be read as one code point.
-/

namespace Python

open List

/-! ## Hexadecimal digits -/

theorem hexVal_hexDigit : ∀ n, n < 16 → hexVal (hexDigit n) = some n := by decide

theorem isLowerHex_hexDigit : ∀ n, n < 16 → isLowerHex (hexDigit n) = true := by decide

theorem bytesOfHex_hexOfBytes (b : Bytes) : bytesOfHex (hexOfBytes b) = some b := by
  induction b with
  | nil => rfl
  | cons x t ih =>
    have hx : x.toNat < 256 := x.toNat_lt
    have hhi := hexVal_hexDigit (x.toNat / 16) (by omega)
    have hlo := hexVal_hexDigit (x.toNat % 16) (by omega)
    have hh := isLowerHex_hexDigit (x.toNat / 16) (by omega)
    have hl := isLowerHex_hexDigit (x.toNat % 16) (by omega)
    have hb : UInt8.ofNat (16 * (x.toNat / 16) + x.toNat % 16) = x := by
      rw [Nat.div_add_mod]
      exact UInt8.ofNat_toNat
    have hcons : hexOfBytes (x :: t) =
        hexDigit (x.toNat / 16) :: hexDigit (x.toNat % 16) :: hexOfBytes t := rfl
    rw [hcons, bytesOfHex]
    simp only [hh, hl, Bool.and_self, if_true, hhi, hlo, ih, Option.bind_eq_bind, Option.bind_some,
      Option.pure_def, hb]

variable {c n : Nat} {rest s : Str}

theorem hexDigit_of_hexVal (hc : isLowerHex c = true) (h : hexVal c = some n) :
    n < 16 ∧ hexDigit n = c := by
  simp only [isLowerHex, isDigit, Bool.or_eq_true, Bool.and_eq_true, decide_eq_true_eq] at hc
  rw [hexVal] at h
  split at h
  · next hd =>
    simp only [Bool.and_eq_true, decide_eq_true_eq] at hd
    cases h
    exact ⟨by omega, by rw [hexDigit, if_pos (by omega)]; omega⟩
  · split at h
    · next hd =>
      simp only [Bool.and_eq_true, decide_eq_true_eq] at hd
      cases h
      exact ⟨by omega, by rw [hexDigit, if_neg (by omega)]; omega⟩
    · next hdigit hlower =>
      simp only [Bool.and_eq_true, decide_eq_true_eq] at hdigit hlower
      omega

theorem hexOfBytes_of_bytesOfHex {b : Bytes} (h : bytesOfHex s = some b) : hexOfBytes b = s := by
  induction s using bytesOfHex.induct generalizing b with
  | case1 =>
    cases h
    rfl
  | case2 c d t hlower ih =>
    rw [bytesOfHex, if_pos hlower] at h
    simp only [bind, Option.bind_eq_some_iff] at h
    obtain ⟨hi, hhi, lo, hlo, rest, hrest, heq⟩ := h
    cases heq
    rw [Bool.and_eq_true] at hlower
    obtain ⟨hhi16, hhid⟩ := hexDigit_of_hexVal hlower.1 hhi
    obtain ⟨hlo16, hlod⟩ := hexDigit_of_hexVal hlower.2 hlo
    have hval : (UInt8.ofNat (16 * hi + lo)).toNat = 16 * hi + lo := by
      rw [UInt8.toNat_ofNat']
      omega
    have hdiv : (16 * hi + lo) / 16 = hi := by omega
    have hmod : (16 * hi + lo) % 16 = lo := by omega
    rw [hexOfBytes, flatMap_cons, hval, hdiv, hmod, hhid, hlod]
    exact congrArg (fun t => c :: d :: t) (ih hrest)
  | case3 c d t hlower =>
    rw [bytesOfHex, if_neg hlower] at h
    cases h
  | case4 c => cases h

theorem length_hexOfBytes (b : Bytes) : (hexOfBytes b).length = 2 * b.length := by
  induction b with
  | nil => rfl
  | cons x t ih =>
    have hcons : hexOfBytes (x :: t) =
        hexDigit (x.toNat / 16) :: hexDigit (x.toNat % 16) :: hexOfBytes t := rfl
    rw [hcons]
    simp only [length_cons, ih]
    omega

theorem Digest.hex_ne_nil (digest : Digest) : digest.hex ≠ [] := by
  intro h
  have hlength := length_hexOfBytes digest.bytes
  rw [show hexOfBytes digest.bytes = [] from h, digest.length_eq] at hlength
  cases hlength

/-! ## Escapes -/

theorem hex4_escapeUnit (h : n < 65536) :
    hex4 (hexDigit (n / 4096 % 16)) (hexDigit (n / 256 % 16)) (hexDigit (n / 16 % 16))
      (hexDigit (n % 16)) = some n := by
  unfold hex4
  rw [hexVal_hexDigit _ (by omega), hexVal_hexDigit _ (by omega), hexVal_hexDigit _ (by omega),
    hexVal_hexDigit _ (by omega)]
  simp only [Option.bind_eq_bind, Option.bind_some, Option.pure_def, Option.some.injEq]
  omega

theorem parseUnits_escapeUnit (h : n < 65536) (rest : Str) :
    parseUnits (escapeUnit n ++ rest) = (parseUnits rest).map fun p => (n :: p.1, p.2) := by
  have hhex := hex4_escapeUnit h
  simp only [escapeUnit, cons_append, nil_append]
  rw [parseUnits.eq_def]
  simp [hhex]

/-- A code point as UTF-16 has it. -/
def units (c : Nat) : Str :=
  if c < 0x10000 then [c] else [0xD800 + (c - 0x10000) / 1024, 0xDC00 + (c - 0x10000) % 1024]

theorem parseUnits_simple {e : Nat} (he : e ≠ 117) (h : simpleEscape e = some c) (rest : Str) :
    parseUnits (92 :: e :: rest) = (parseUnits rest).map fun p => (c :: p.1, p.2) := by
  rw [parseUnits.eq_def]
  simp [he, h]

theorem parseUnits_plain (hq : c ≠ 34) (hb : c ≠ 92) (hc : 32 ≤ c) (rest : Str) :
    parseUnits (c :: rest) = (parseUnits rest).map fun p => (c :: p.1, p.2) := by
  rw [parseUnits.eq_def]
  simp [hq, hb, Nat.not_lt.mpr hc]

theorem parseUnits_escapeChar (h : c < 0x110000) (rest : Str) :
    parseUnits (escapeChar c ++ rest) =
      (parseUnits rest).map fun p => (units c ++ p.1, p.2) := by
  unfold escapeChar
  split_ifs with h1 h2 h3 h4 h5 h6 h7 h8 h9
  · subst h1; exact parseUnits_simple (by decide) rfl rest
  · subst h2; exact parseUnits_simple (by decide) rfl rest
  · subst h3; exact parseUnits_simple (by decide) rfl rest
  · subst h4; exact parseUnits_simple (by decide) rfl rest
  · subst h5; exact parseUnits_simple (by decide) rfl rest
  · subst h6; exact parseUnits_simple (by decide) rfl rest
  · subst h7; exact parseUnits_simple (by decide) rfl rest
  · simp only [Bool.and_eq_true, decide_eq_true_eq] at h8
    have hu : units c = [c] := by simp [units]; omega
    rw [hu]
    exact parseUnits_plain h1 h2 h8.1 rest
  · have hu : units c = [c] := by simp [units, h9]
    rw [hu]
    exact parseUnits_escapeUnit h9 rest
  · have hu : units c = [0xD800 + (c - 0x10000) / 1024, 0xDC00 + (c - 0x10000) % 1024] := by
      simp [units, h9]
    rw [hu, append_assoc, parseUnits_escapeUnit (by omega), parseUnits_escapeUnit (by omega)]
    cases parseUnits rest <;> rfl

theorem parseUnits_flatMap (hs : ∀ c ∈ s, c < 0x110000) (rest : Str) :
    parseUnits (s.flatMap escapeChar ++ 34 :: rest) = .ok (s.flatMap units, rest) := by
  induction s with
  | nil =>
    rw [flatMap_nil, nil_append, parseUnits.eq_def]
    rfl
  | cons c t ih =>
    have hc := hs c (mem_cons_self ..)
    have ht := ih fun x hx => hs x (mem_cons_of_mem _ hx)
    rw [flatMap_cons, append_assoc, parseUnits_escapeChar hc, ht]
    rfl

/-! ## Surrogates -/

theorem isScalar_lt (h : isScalar c = true) : c < 0x110000 := by
  simp only [isScalar, Bool.or_eq_true, Bool.and_eq_true, decide_eq_true_eq] at h
  omega

/-- The units of a scalar value never end in a high surrogate that the next unit could complete. -/
theorem joinSurrogates_units (h : isScalar c = true) (t : Str) :
    joinSurrogates (units c ++ t) = c :: joinSurrogates t := by
  simp only [isScalar, Bool.or_eq_true, Bool.and_eq_true, decide_eq_true_eq] at h
  unfold units
  split_ifs with hc
  · cases t with
    | nil => rfl
    | cons v t =>
      rw [cons_append, nil_append, joinSurrogates]
      have hns : ¬ (0xD800 ≤ c ∧ c ≤ 0xDBFF) := by omega
      simp only [Bool.and_eq_true, decide_eq_true_eq]
      rw [if_neg fun hh => hns hh.1.1]
  · rw [cons_append, cons_append, nil_append, joinSurrogates]
    have hlt : (c - 65536) / 1024 < 1024 := by omega
    have hmod : (c - 65536) % 1024 < 1024 := Nat.mod_lt _ (by decide)
    rw [if_pos (by simp only [Bool.and_eq_true, decide_eq_true_eq]; omega)]
    have hjoin : 0x10000 + (0xD800 + (c - 65536) / 1024 - 0xD800) * 1024
        + (0xDC00 + (c - 65536) % 1024 - 0xDC00) = c := by omega
    rw [hjoin]

theorem joinSurrogates_flatMap_units (hs : ∀ c ∈ s, isScalar c = true) :
    joinSurrogates (s.flatMap units) = s := by
  induction s with
  | nil => rfl
  | cons c t ih =>
    rw [flatMap_cons, joinSurrogates_units (hs c (mem_cons_self ..)),
      ih fun x hx => hs x (mem_cons_of_mem _ hx)]

theorem parseString_escape (hs : ∀ c ∈ s, isScalar c = true) (rest : Str) :
    parseString (s.flatMap escapeChar ++ 34 :: rest) = .ok (s, rest) := by
  unfold parseString
  rw [parseUnits_flatMap (fun c hc => isScalar_lt (hs c hc))]
  show Except.ok (joinSurrogates (s.flatMap units), rest) = _
  rw [joinSurrogates_flatMap_units hs]

/-! ## What is written is printable -/

def Printable (s : Str) : Prop := ∀ c ∈ s, 32 ≤ c ∧ c ≤ 126

theorem Printable.append {t : Str} (hs : Printable s) (ht : Printable t) : Printable (s ++ t) := by
  intro c hc
  rcases mem_append.mp hc with h | h
  · exact hs c h
  · exact ht c h

theorem Printable.cons {t : Str} (hc : 32 ≤ c ∧ c ≤ 126) (ht : Printable t) :
    Printable (c :: t) := by
  intro x hx
  rcases mem_cons.mp hx with rfl | h
  · exact hc
  · exact ht x h

theorem Printable.nil : Printable [] := by simp [Printable]

variable (n : Nat)

theorem printable_escapeUnit : Printable (escapeUnit n) := by
  have hd : ∀ m, m < 16 → 32 ≤ hexDigit m ∧ hexDigit m ≤ 126 := by decide
  refine .cons (by omega) (.cons (by omega) (.cons (hd _ (by omega)) (.cons (hd _ (by omega))
    (.cons (hd _ (by omega)) (.cons (hd _ (by omega)) .nil)))))

theorem printable_escapeChar (c : Nat) : Printable (escapeChar c) := by
  unfold escapeChar
  split_ifs with h1 h2 h3 h4 h5 h6 h7 h8 h9
  iterate 7 · exact .cons (by omega) (.cons (by omega) .nil)
  · simp only [Bool.and_eq_true, decide_eq_true_eq] at h8
    exact .cons h8 .nil
  · exact printable_escapeUnit c
  · exact (printable_escapeUnit _).append (printable_escapeUnit _)

theorem printable_quote (s : Str) : Printable (quote s) := by
  have hb : Printable (s.flatMap escapeChar) := by
    intro c hc
    obtain ⟨x, -, hx⟩ := mem_flatMap.mp hc
    exact printable_escapeChar x c hx
  exact (Printable.cons (by omega) hb).append (.cons (by omega) .nil)

/-- A string of printable characters other than the quote and the backslash is written as it is. -/
theorem flatMap_escapeChar_of_plain (hs : ∀ c ∈ s, 32 ≤ c ∧ c ≤ 126 ∧ c ≠ 34 ∧ c ≠ 92) :
    s.flatMap escapeChar = s := by
  induction s with
  | nil => rfl
  | cons c t ih =>
    obtain ⟨h1, h2, h3, h4⟩ := hs c (mem_cons_self ..)
    have he : escapeChar c = [c] := by
      unfold escapeChar
      rw [if_neg h3, if_neg h4, if_neg (by omega), if_neg (by omega), if_neg (by omega),
        if_neg (by omega), if_neg (by omega), if_pos (by simp [h1, h2])]
    rw [flatMap_cons, he, ih fun x hx => hs x (mem_cons_of_mem _ hx)]
    rfl

/-! ## Numbers -/

/-- A comma or a closing bracket is next, if anything. -/
def Delimited (rest : Str) : Prop := ∀ c t, rest = c :: t → c = 44 ∨ c = 93 ∨ c = 125

theorem delimited_nil : Delimited [] := by
  intro c t h
  cases h

theorem delimited_cons (h : c = 44 ∨ c = 93 ∨ c = 125) (t : Str) : Delimited (c :: t) := by
  intro c' t' h'
  cases h'
  exact h

theorem spanDigits_append {ds : Str} (hd : ∀ c ∈ ds, isDigit c = true) (hr : Delimited rest) :
    spanDigits (ds ++ rest) = (ds, rest) := by
  induction ds with
  | nil =>
    cases rest with
    | nil => rfl
    | cons c t =>
      rw [nil_append, spanDigits]
      obtain rfl | rfl | rfl := hr c t rfl <;> rfl
  | cons d ds ih =>
    rw [cons_append, spanDigits, hd d (mem_cons_self ..),
      ih fun x hx => hd x (mem_cons_of_mem _ hx)]
    rfl

theorem digitsVal_map_reverse (l : List Nat) :
    digitsVal (l.reverse.map (48 + ·)) = Nat.ofDigits 10 l := by
  unfold digitsVal
  rw [foldl_map, foldl_reverse]
  induction l with
  | nil => rfl
  | cons d t ih =>
    rw [foldr_cons, ih, Nat.ofDigits_cons]
    omega

theorem printNat_cases :
    (n = 0 ∧ printNat n = [48]) ∨
    ∃ d ds, printNat n = d :: ds ∧ isDigit d = true ∧ d ≠ 48 ∧ (∀ c ∈ ds, isDigit c = true) ∧
      digitsVal (d :: ds) = n := by
  unfold printNat
  split_ifs with h
  · exact .inl ⟨h, rfl⟩
  · right
    have hlt : ∀ d ∈ Nat.digits 10 n, d < 10 := fun d hd => Nat.digits_lt_base (by decide) hd
    have hval : digitsVal ((Nat.digits 10 n).reverse.map (48 + ·)) = n := by
      rw [digitsVal_map_reverse, Nat.ofDigits_digits]
    have hne : Nat.digits 10 n ≠ [] := Nat.digits_ne_nil_iff_ne_zero.mpr h
    have hlast : (Nat.digits 10 n).getLast hne ≠ 0 := Nat.getLast_digit_ne_zero 10 h
    cases hrev : (Nat.digits 10 n).reverse with
    | nil => exact absurd (reverse_eq_nil_iff.mp hrev) hne
    | cons d ds =>
      have hd : d = (Nat.digits 10 n).getLast hne := by
        rw [← head_reverse (by simpa using hne)]
        simp [hrev]
      have hmem : ∀ x, x ∈ d :: ds → x < 10 := by
        intro x hx
        rw [← hrev, mem_reverse] at hx
        exact hlt x hx
      have hdig : ∀ x, x < 10 → isDigit (48 + x) = true := by decide
      refine ⟨48 + d, ds.map (48 + ·), by simp, hdig d (hmem d (mem_cons_self ..)),
        by rw [← hd] at hlast; omega, ?_, ?_⟩
      · intro c hc
        obtain ⟨x, hx, rfl⟩ := mem_map.mp hc
        exact hdig x (hmem x (mem_cons_of_mem _ hx))
      · rw [hrev] at hval
        simpa using hval

theorem printNat_digits : ∀ c ∈ printNat n, isDigit c = true := by
  rcases printNat_cases n with ⟨-, h⟩ | ⟨d, ds, h, hd, -, hds, -⟩
  · rw [h]; decide
  · rw [h]
    intro c hc
    rcases mem_cons.mp hc with rfl | hc
    · exact hd
    · exact hds c hc

theorem digitsVal_printNat : digitsVal (printNat n) = n := by
  rcases printNat_cases n with ⟨rfl, h⟩ | ⟨d, ds, h, -, -, -, hv⟩
  · rw [h]; rfl
  · rw [h, hv]

theorem parseIntPart_printNat (hr : Delimited rest) :
    parseIntPart (printNat n ++ rest) = .ok (printNat n, rest) := by
  rcases printNat_cases n with ⟨-, h⟩ | ⟨d, ds, h, hd, hne, hds, -⟩
  · rw [h]; rfl
  · rw [h, cons_append, parseIntPart, if_neg hne, if_pos hd, spanDigits_append hds hr]

theorem parseFraction_delimited (hr : Delimited rest) : parseFraction rest = ([], rest) := by
  cases rest with
  | nil => rfl
  | cons c t => obtain rfl | rfl | rfl := hr c t rfl <;> rfl

theorem parseExponent_delimited (hr : Delimited rest) : parseExponent rest = ([], rest) := by
  cases rest with
  | nil => rfl
  | cons c t => obtain rfl | rfl | rfl := hr c t rfl <;> rfl

/-- The digits of a number read back as the number, with the sign that was read before. -/
theorem parseUnsigned_printNat (negative : Bool) (n : Nat) (hr : Delimited rest)
    (hlen : (printNat n).length ≤ intMaxStrDigits) :
    parseUnsigned negative (printNat n ++ rest) =
      .ok (.int (if negative then -(n : Int) else n), rest) := by
  unfold parseUnsigned
  rw [parseIntPart_printNat n hr]
  simp only [bind, Except.bind, parseFraction_delimited hr, parseExponent_delimited hr,
    isEmpty_nil, Bool.and_self, if_true, digitsVal_printNat]
  rw [if_neg (Nat.not_lt.mpr hlen)]
  rfl

theorem lit_null : lit "null" = [110, 117, 108, 108] := by decide

theorem lit_true : lit "true" = [116, 114, 117, 101] := by decide

theorem lit_false : lit "false" = [102, 97, 108, 115, 101] := by decide

theorem lit_nan : lit "NaN" = [78, 97, 78] := by decide

theorem lit_infinity : lit "Infinity" = [73, 110, 102, 105, 110, 105, 116, 121] := by decide

theorem lit_negInfinity : lit "-Infinity" = [45, 73, 110, 102, 105, 110, 105, 116, 121] := by decide

theorem stripWord_ne {w : Nat} (h : w ≠ c) (ws t : Str) : stripWord (w :: ws) (c :: t) = none := by
  rw [stripWord, if_neg h]

/-- A text that starts with a digit or a minus sign before a digit is read as a number. -/
theorem parseScalar_digit (hc : isDigit c = true) (t : Str) :
    parseScalar (c :: t) = parseUnsigned false (c :: t) := by
  simp only [isDigit, Bool.and_eq_true, decide_eq_true_eq] at hc
  have h45 : c ≠ 45 := by omega
  unfold parseScalar
  rw [lit_null, lit_true, lit_false, lit_nan, lit_infinity, lit_negInfinity]
  rw [stripWord_ne (by simp; omega), stripWord_ne (by simp; omega), stripWord_ne (by simp; omega),
    stripWord_ne (by simp; omega), stripWord_ne (by simp; omega), stripWord_ne (by simp; omega)]
  dsimp only
  split
  · rename_i h
    exact absurd (cons.inj h).1 h45
  · rfl

/-- A text that starts with a minus sign before a digit is read as a negative number. -/
theorem parseScalar_minus (hc : isDigit c = true) (t : Str) :
    parseScalar (45 :: c :: t) = parseUnsigned true (c :: t) := by
  simp only [isDigit, Bool.and_eq_true, decide_eq_true_eq] at hc
  unfold parseScalar
  rw [lit_null, lit_true, lit_false, lit_nan, lit_infinity, lit_negInfinity]
  rw [stripWord_ne (by decide), stripWord_ne (by decide), stripWord_ne (by decide),
    stripWord_ne (by decide), stripWord_ne (by decide), stripWord, if_pos rfl,
    stripWord_ne (by omega)]
  rfl

theorem parseScalar_printInt (i : Int) (hr : Delimited rest)
    (hlen : (printNat i.natAbs).length ≤ intMaxStrDigits) :
    parseScalar (printInt i ++ rest) = .ok (.int i, rest) := by
  have hhead : ∀ n, ∃ d ds, printNat n = d :: ds ∧ isDigit d = true := by
    intro n
    rcases printNat_cases n with ⟨-, h⟩ | ⟨d, ds, h, hd, -⟩
    · exact ⟨48, [], h, rfl⟩
    · exact ⟨d, ds, h, hd⟩
  cases i with
  | ofNat n =>
    obtain ⟨d, ds, h, hd⟩ := hhead n
    have hparse := parseUnsigned_printNat false n hr hlen
    simp only [printInt]
    rw [h, cons_append] at hparse ⊢
    rw [parseScalar_digit hd, hparse]
    rfl
  | negSucc n =>
    obtain ⟨d, ds, h, hd⟩ := hhead (n + 1)
    have hparse := parseUnsigned_printNat true (n + 1) hr hlen
    simp only [printInt]
    rw [h, cons_append] at hparse
    rw [h, cons_append, cons_append, parseScalar_minus hd, hparse]
    rfl

end Python
