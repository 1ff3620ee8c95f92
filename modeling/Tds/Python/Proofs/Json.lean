import Tds.Python.Proofs.JsonString

/-!
# Reading back what was written

`loads_print`: a value without surrogates, and without floats other than fractions, reads back from
the text `json.dumps` writes for it, with the keys of its objects sorted.
-/

namespace Python

open List Json UInt8

/-! ## Objects as dictionaries -/

variable {d : Nat} {v : Json} {fields : List (Str × Json)} {α : Type} {s literal : Str}

theorem sortByKey_map {β : Type} (f : α → β) (fields : List (Str × α)) :
    sortByKey (fields.map fun kv => (kv.1, f kv.2)) =
      (sortByKey fields).map fun kv => (kv.1, f kv.2) := by
  unfold sortByKey
  exact (map_insertionSort (r := fun a b : Str × α => a.1 ≤ b.1)
    (s := fun a b : Str × β => a.1 ≤ b.1) (f := fun kv : Str × α => (kv.1, f kv.2)) fields
    (fun _ _ _ _ => Iff.rfl)).symm

theorem perm_sortByKey (fields : List (Str × α)) : (sortByKey fields).Perm fields :=
  perm_insertionSort _ fields

theorem mem_sortByKey {fields : List (Str × α)} {kv : Str × α} :
    kv ∈ sortByKey fields ↔ kv ∈ fields :=
  (perm_sortByKey fields).mem_iff

theorem dictSet_of_notMem {d : List (Str × α)} {k : Str} (v : α) (h : k ∉ d.map Prod.fst) :
    dictSet d k v = d ++ [(k, v)] := by
  induction d with
  | nil => rfl
  | cons kv d ih =>
    obtain ⟨k', v'⟩ := kv
    simp only [map_cons, mem_cons, not_or] at h
    rw [dictSet, if_neg (Ne.symm h.1), ih h.2, cons_append]

theorem foldl_dictSet_of_nodup (fields d : List (Str × α))
    (h : ((d ++ fields).map Prod.fst).Nodup) :
    fields.foldl (fun d kv => dictSet d kv.1 kv.2) d = d ++ fields := by
  induction fields generalizing d with
  | nil => simp
  | cons kv fields ih =>
    have hk : kv.1 ∉ d.map Prod.fst := by
      intro hin
      rw [map_append, map_cons] at h
      exact disjoint_of_nodup_append h hin (mem_cons_self ..)
    rw [foldl_cons, dictSet_of_notMem kv.2 hk, ih _ (by simpa using h)]
    simp

theorem dictOf_of_nodup {fields : List (Str × α)} (h : (fields.map Prod.fst).Nodup) :
    dictOf fields = fields := by
  rw [dictOf, foldl_dictSet_of_nodup fields [] (by simpa using h), nil_append]

/-! ## Values that are written exactly -/

mutual

/-- Objects with their keys in order. -/
def Json.sorted : Json → Json
  | .arr items => .arr (itemsSorted items)
  | .obj fields => .obj (sortByKey (fieldsSorted fields))
  | v => v

def itemsSorted : List Json → List Json
  | [] => []
  | v :: vs => v.sorted :: itemsSorted vs

def fieldsSorted : List (Str × Json) → List (Str × Json)
  | [] => []
  | (k, v) :: fields => (k, v.sorted) :: fieldsSorted fields

end

theorem itemsSorted_eq (items : List Json) : itemsSorted items = items.map sorted := by
  induction items with
  | nil => rfl
  | cons v vs ih => rw [itemsSorted, ih, map_cons]

theorem fieldsSorted_eq (fields : List (Str × Json)) :
    fieldsSorted fields = fields.map fun kv => (kv.1, kv.2.sorted) := by
  induction fields with
  | nil => rfl
  | cons kv fields ih =>
    obtain ⟨k, v⟩ := kv
    rw [fieldsSorted, ih, map_cons]

theorem sorted_arr (items : List Json) :
    (arr items).sorted = .arr (items.map sorted) := by
  rw [sorted, itemsSorted_eq]

theorem sorted_obj (fields : List (Str × Json)) :
    (obj fields).sorted = .obj ((sortByKey fields).map fun kv => (kv.1, kv.2.sorted)) := by
  rw [sorted, fieldsSorted_eq, sortByKey_map]

/-- A value that survives being written and read: no float, no surrogate, no number that is too
long, distinct keys, and containers nested at most to the given depth. -/
inductive Json.Plain : Nat → Json → Prop
  | null (d : Nat) : Plain d .null
  | bool (d : Nat) (b : Bool) : Plain d (.bool b)
  | int (d : Nat) (i : Int) (h : (printNat i.natAbs).length ≤ intMaxStrDigits) : Plain d (.int i)
  | str (d : Nat) (s : Str) (h : ∀ c ∈ s, isScalar c = true) : Plain d (.str s)
  | arr (d : Nat) (items : List Json) (h : ∀ v ∈ items, Plain d v) : Plain (d + 1) (.arr items)
  | obj (d : Nat) (fields : List (Str × Json)) (hnd : (fields.map Prod.fst).Nodup)
      (hk : ∀ kv ∈ fields, ∀ c ∈ kv.1, isScalar c = true) (h : ∀ kv ∈ fields, Plain d kv.2) :
      Plain (d + 1) (.obj fields)

/-! ## How a text starts and what it contains -/

/-- The text starts with a character that opens a value: neither a blank nor a closing bracket. -/
def Opens (s : Str) : Prop := ∃ c t, s = c :: t ∧ isBlank c = false ∧ c ≠ 93 ∧ c ≠ 125

theorem opens_digit {c : Nat} (hc : isDigit c = true) (t : Str) : Opens (c :: t) := by
  simp only [isDigit, Bool.and_eq_true, decide_eq_true_eq] at hc
  refine ⟨c, t, rfl, ?_, by omega, by omega⟩
  simp [isBlank]
  omega

theorem opens_printInt (i : Int) : Opens (printInt i) := by
  cases i with
  | ofNat n =>
    rcases printNat_cases n with ⟨-, h⟩ | ⟨d, ds, h, hd, -⟩
    · rw [printInt, h]; exact opens_digit rfl []
    · rw [printInt, h]; exact opens_digit hd ds
  | negSucc n => exact ⟨45, _, rfl, rfl, by decide, by decide⟩

theorem Opens.append (h : Opens s) (t : Str) : Opens (s ++ t) := by
  obtain ⟨c, s', rfl, hc⟩ := h
  exact ⟨c, s' ++ t, rfl, hc⟩

theorem Opens.skipBlanks (h : Opens s) : skipBlanks s = s := by
  obtain ⟨c, t, rfl, hc, -⟩ := h
  rw [Python.skipBlanks, if_neg (by simp [hc])]

theorem printable_joinComma {texts : List Str} (h : ∀ s ∈ texts, Printable s) :
    Printable (joinComma texts) := by
  induction texts with
  | nil => exact .nil
  | cons x xs ih =>
    have hx := h x (mem_cons_self ..)
    have hxs := ih fun s hs => h s (mem_cons_of_mem _ hs)
    cases xs with
    | nil => exact hx
    | cons y ys => exact hx.append (.cons (by omega) hxs)

theorem printable_printNat (n : Nat) : Printable (printNat n) := by
  intro c hc
  have hd := printNat_digits n c hc
  simp only [isDigit, Bool.and_eq_true, decide_eq_true_eq] at hd
  omega

theorem nodup_keys_sorted (h : (fields.map Prod.fst).Nodup) :
    (((sortByKey fields).map fun kv => (kv.1, kv.2.sorted)).map Prod.fst).Nodup := by
  rw [map_map]
  exact (((perm_sortByKey fields).map Prod.fst).nodup_iff).mpr h

theorem length_joinComma_le (texts : List Str) (h : ∀ s ∈ texts, s ≠ []) :
    texts.length ≤ (joinComma texts).length := by
  induction texts with
  | nil => simp
  | cons x xs ih =>
    have hx := length_pos_iff.mpr (h x (mem_cons_self ..))
    have hxs := ih fun s hs => h s (mem_cons_of_mem _ hs)
    cases xs with
    | nil => exact hx
    | cons y ys => simp only [joinComma, length_cons, length_append] at hxs ⊢; omega

/-! ## Bytes -/

theorem decodeUtf8_encodeAscii (h : Printable s) : decodeUtf8 (encodeAscii s) = some s := by
  induction s with
  | nil => rfl
  | cons c t ih =>
    have hc := h c (mem_cons_self ..)
    have ht := ih fun x hx => h x (mem_cons_of_mem _ hx)
    have hnat : (ofNat c).toNat = c := by
      rw [toNat_ofNat']
      omega
    have hlt : ofNat c < 0x80 := by
      rw [lt_iff_toNat_lt, hnat]
      show c < 128
      omega
    rw [encodeAscii, map_cons, decodeUtf8.eq_def]
    dsimp only
    rw [if_pos hlt]
    rw [encodeAscii] at ht
    rw [ht, Option.map_some, hnat]

theorem decodeAscii_encodeAscii (h : Printable s) : decodeAscii (encodeAscii s) = some s := by
  have hascii : ∀ c ∈ s, c < 128 := fun c hc => by
    have := h c hc
    omega
  have hall : (encodeAscii s).all (· < 0x80) = true := by
    rw [all_eq_true]
    intro b hb
    obtain ⟨c, hc, rfl⟩ := mem_map.mp hb
    have hlt := hascii c hc
    rw [decide_eq_true_eq, lt_iff_toNat_lt, toNat_ofNat']
    show c % 256 < 128
    omega
  rw [decodeAscii, if_pos hall, encodeAscii, map_map]
  refine congrArg some ((map_congr_left fun c hc => ?_).trans (map_id s))
  have hlt := hascii c hc
  show (ofNat c).toNat = c
  rw [toNat_ofNat']
  omega

theorem newline_notMem_encodeAscii (h : Printable s) : (10 : UInt8) ∉ encodeAscii s := by
  intro hin
  obtain ⟨c, hc, he⟩ := mem_map.mp hin
  have hp := h c hc
  have := congrArg toNat he
  rw [toNat_ofNat'] at this
  have h10 : (10 : UInt8).toNat = 10 := rfl
  omega

/-! ## Fractions -/

/-- The literal of a number from zero up to one, like `0.92`. -/
def IsFraction (literal : Str) : Prop :=
  ∃ digits, literal = 48 :: 46 :: digits ∧ digits ≠ [] ∧ ∀ c ∈ digits, isDigit c = true

theorem IsFraction.printable (h : IsFraction literal) : Printable literal := by
  obtain ⟨digits, rfl, -, hdigits⟩ := h
  refine .cons (by omega) (.cons (by omega) fun c hc => ?_)
  have hd := hdigits c hc
  simp only [isDigit, Bool.and_eq_true, decide_eq_true_eq] at hd
  omega

theorem IsFraction.opens (h : IsFraction literal) : Opens literal := by
  obtain ⟨digits, rfl, -, -⟩ := h
  exact opens_digit rfl _

theorem foldl_digits_lt {ds : Str} (h : ∀ c ∈ ds, isDigit c = true) (n : Nat) :
    ds.foldl (fun n c => 10 * n + (c - 48)) n < (n + 1) * 10 ^ ds.length := by
  induction ds generalizing n with
  | nil => simp
  | cons c ds ih =>
    have hc := h c mem_cons_self
    simp only [isDigit, Bool.and_eq_true, decide_eq_true_eq] at hc
    have hrest := ih (fun d hd => h d (mem_cons_of_mem _ hd)) (10 * n + (c - 48))
    have hle : 10 * n + (c - 48) + 1 ≤ (n + 1) * 10 := by omega
    calc _ < (10 * n + (c - 48) + 1) * 10 ^ ds.length := hrest
      _ ≤ (n + 1) * 10 * 10 ^ ds.length := Nat.mul_le_mul_right _ hle
      _ = (n + 1) * 10 ^ (c :: ds).length := by rw [length_cons, Nat.pow_succ']; ring

theorem floatOverflows_fraction {digits : Str} (hne : digits ≠ [])
    (hdigits : ∀ c ∈ digits, isDigit c = true) : floatOverflows [48] (46 :: digits) [] = false := by
  have hlen := length_pos_iff.mpr hne
  have hscale : ¬ (0 : Int) ≤ exponentVal [] - (digits.length : Int) := by
    rw [exponentVal]
    omega
  have hmin : min (-(exponentVal [] - (digits.length : Int))).toNat ([48] ++ digits).length =
      digits.length := by
    rw [exponentVal, length_append]
    simp
  have hlt : digitsVal ([48] ++ digits) < floatLimit * 10 ^ digits.length := by
    have hlimit : 1 ≤ floatLimit := by
      rw [floatLimit]
      exact Nat.mul_pos (by decide) (by positivity)
    have hval : digitsVal ([48] ++ digits) = digits.foldl (fun n c => 10 * n + (c - 48)) 0 := by
      simp [digitsVal]
    calc digitsVal ([48] ++ digits) < (0 + 1) * 10 ^ digits.length := hval ▸ foldl_digits_lt hdigits 0
      _ ≤ floatLimit * 10 ^ digits.length := Nat.mul_le_mul_right _ hlimit
  refine (if_neg hscale).trans (decide_eq_false (Nat.not_le.mpr ?_))
  exact hlt.trans_eq (by rw [← hmin]; rfl)

theorem IsFraction.parseScalar {rest : Str} (h : IsFraction literal) (hr : Delimited rest) :
    parseScalar (literal ++ rest) = .ok (.float (.finite literal), rest) := by
  obtain ⟨digits, rfl, hne, hdigits⟩ := h
  have hfraction : parseFraction (46 :: (digits ++ rest)) = (46 :: digits, rest) := by
    cases digits with
    | nil => exact absurd rfl hne
    | cons d ds =>
      rw [parseFraction, spanDigits_append hdigits hr]
  rw [cons_append, cons_append, parseScalar_digit rfl, parseUnsigned, parseIntPart,
    if_pos rfl]
  simp only [bind, Except.bind, hfraction, parseExponent_delimited hr, isEmpty_cons,
    Bool.false_and, Bool.false_eq_true, if_false, floatOf, floatOverflows_fraction hne hdigits,
    append_nil]
  rfl

section RoundTrip

variable [Runtime]

/-- A value that survives being written and read: no surrogate, no number that is too long, no float
but fractions as `repr` writes them, distinct keys, and containers nested at most to the given depth. -/
inductive Json.Regular : Nat → Json → Prop
  | null (d : Nat) : Regular d .null
  | bool (d : Nat) (b : Bool) : Regular d (.bool b)
  | int (d : Nat) (i : Int) (h : (printNat i.natAbs).length ≤ intMaxStrDigits) : Regular d (.int i)
  | float (d : Nat) (literal : Str) (h : IsFraction literal) (hrepr : floatRepr literal = literal) :
      Regular d (.float (.finite literal))
  | str (d : Nat) (s : Str) (h : ∀ c ∈ s, isScalar c = true) : Regular d (.str s)
  | arr (d : Nat) (items : List Json) (h : ∀ v ∈ items, Regular d v) : Regular (d + 1) (.arr items)
  | obj (d : Nat) (fields : List (Str × Json)) (hnd : (fields.map Prod.fst).Nodup)
      (hk : ∀ kv ∈ fields, ∀ c ∈ kv.1, isScalar c = true) (h : ∀ kv ∈ fields, Regular d kv.2) :
      Regular (d + 1) (.obj fields)

theorem Json.Plain.regular (h : v.Plain d) : v.Regular d := by
  induction h with
  | null d => exact .null d
  | bool d b => exact .bool d b
  | int d i h => exact .int d i h
  | str d s h => exact .str d s h
  | arr d items _ ih => exact .arr d items ih
  | obj d fields hnd hk _ ih => exact .obj d fields hnd hk ih

theorem Json.Regular.mono {d' : Nat} (h : v.Regular d) (hd : d ≤ d') : v.Regular d' := by
  induction h generalizing d' with
  | null => exact .null _
  | bool d b => exact .bool _ b
  | int d i h => exact .int _ i h
  | float d literal h hrepr => exact .float _ literal h hrepr
  | str d s h => exact .str _ s h
  | arr d items _ ih =>
    obtain ⟨e, rfl⟩ : ∃ e, d' = e + 1 := ⟨d' - 1, by omega⟩
    exact .arr e items fun v hv => ih v hv (by omega)
  | obj d fields hnd hk _ ih =>
    obtain ⟨e, rfl⟩ : ∃ e, d' = e + 1 := ⟨d' - 1, by omega⟩
    exact .obj e fields hnd hk fun kv hkv => ih kv hkv (by omega)

/-! ## The printer -/

theorem printItems_eq (items : List Json) : printItems items = items.map print := by
  induction items with
  | nil => rfl
  | cons v vs ih => rw [printItems, ih, map_cons]

theorem printFields_eq (fields : List (Str × Json)) :
    printFields fields = fields.map fun kv => (kv.1, kv.2.print) := by
  induction fields with
  | nil => rfl
  | cons kv fields ih =>
    obtain ⟨k, v⟩ := kv
    rw [printFields, ih, map_cons]

theorem print_arr (items : List Json) :
    (arr items).print = 91 :: joinComma (items.map print) ++ [93] := by
  rw [print, printItems_eq]

theorem print_obj (fields : List (Str × Json)) :
    (obj fields).print =
      123 :: joinComma ((sortByKey fields).map fun kv => printField (kv.1, kv.2.print)) ++ [125] := by
  rw [print, printFields_eq, sortByKey_map, map_map]
  rfl

theorem Json.Regular.opens (h : v.Regular d) : Opens v.print := by
  cases h with
  | null => exact ⟨110, _, rfl, rfl, by decide, by decide⟩
  | bool d b =>
    cases b with
    | true => exact ⟨116, _, rfl, rfl, by decide, by decide⟩
    | false => exact ⟨102, _, rfl, rfl, by decide, by decide⟩
  | int d i => rw [print]; exact opens_printInt i
  | float d literal h hrepr =>
    rw [print, printFloat, hrepr]
    exact h.opens
  | str d s => exact ⟨34, _, rfl, rfl, by decide, by decide⟩
  | arr d items => rw [print_arr]; exact ⟨91, _, rfl, rfl, by decide, by decide⟩
  | obj d fields => rw [print_obj]; exact ⟨123, _, rfl, rfl, by decide, by decide⟩

theorem Json.Regular.printable (h : v.Regular d) : Printable v.print := by
  induction h with
  | null => intro c hc; rw [print, lit_null] at hc; revert c; decide
  | bool d b =>
    cases b with
    | true => intro c hc; rw [print, lit_true] at hc; revert c; decide
    | false => intro c hc; rw [print, lit_false] at hc; revert c; decide
  | int d i =>
    rw [print]
    cases i with
    | ofNat n => exact printable_printNat n
    | negSucc n => exact .cons (by omega) (printable_printNat _)
  | float d literal h hrepr =>
    rw [print, printFloat, hrepr]
    exact h.printable
  | str d s => rw [print]; exact printable_quote s
  | arr d items _ ih =>
    rw [print_arr]
    refine (Printable.cons (by omega) (printable_joinComma ?_)).append (.cons (by omega) .nil)
    intro s hs
    obtain ⟨v, hv, rfl⟩ := mem_map.mp hs
    exact ih v hv
  | obj d fields _ _ _ ih =>
    rw [print_obj]
    refine (Printable.cons (by omega) (printable_joinComma ?_)).append (.cons (by omega) .nil)
    intro s hs
    obtain ⟨kv, hkv, rfl⟩ := mem_map.mp hs
    exact (printable_quote _).append (.cons (by omega) (ih kv (mem_sortByKey.mp hkv)))

/-! ## The reader on containers -/

/-- The reader `value` reads `v` back as `w` wherever a value may end. -/
def ReadsBack (value : Str → Parse Json) (v w : Json) : Prop :=
  ∀ rest, Delimited rest → value (v.print ++ rest) = .ok (w, rest)

theorem parseItems_print {value : Str → Parse Json} {items : List Json} (hne : items ≠ [])
    (hp : ∀ v ∈ items, v.Regular d) (hv : ∀ v ∈ items, ReadsBack value v v.sorted) (rest : Str)
    (fuel : Nat) (hf : items.length ≤ fuel) :
    parseItems value fuel (joinComma (items.map print) ++ 93 :: rest) =
      .ok (items.map sorted, rest) := by
  induction items generalizing fuel with
  | nil => exact absurd rfl hne
  | cons v vs ih =>
    obtain ⟨fuel, rfl⟩ : ∃ n, fuel = n + 1 := ⟨fuel - 1, by simp at hf; omega⟩
    have hread := hv v (mem_cons_self ..)
    cases vs with
    | nil =>
      simp only [map_cons, map_nil, joinComma]
      rw [parseItems, hread _ (delimited_cons (by omega) _)]
      rfl
    | cons w ws =>
      have hrest := ih (by simp) (fun x hx => hp x (mem_cons_of_mem _ hx))
        (fun x hx => hv x (mem_cons_of_mem _ hx)) fuel (by simpa using hf)
      have hopen : Opens (joinComma ((w :: ws).map print) ++ 93 :: rest) := by
        have hw := (hp w (by simp)).opens
        cases ws with
        | nil => exact hw.append _
        | cons x xs =>
          simp only [map_cons, joinComma, append_assoc]
          exact hw.append _
      simp only [map_cons, joinComma, append_assoc, cons_append] at hrest hopen ⊢
      rw [parseItems, hread _ (delimited_cons (by omega) _)]
      show (parseItems value fuel (skipBlanks _) >>= _) = _
      rw [hopen.skipBlanks, hrest]
      rfl

theorem parseFields_print {value : Str → Parse Json} (hne : fields ≠ [])
    (hk : ∀ kv ∈ fields, ∀ c ∈ kv.1, isScalar c = true) (hp : ∀ kv ∈ fields, kv.2.Regular d)
    (hv : ∀ kv ∈ fields, ReadsBack value kv.2 kv.2.sorted) (rest : Str) (fuel : Nat)
    (hf : fields.length ≤ fuel) :
    ∃ t, joinComma (fields.map fun kv => printField (kv.1, kv.2.print)) = 34 :: t ∧
      parseFields value fuel (t ++ 125 :: rest) =
        .ok (fields.map fun kv => (kv.1, kv.2.sorted), rest) := by
  induction fields generalizing fuel with
  | nil => exact absurd rfl hne
  | cons kv kvs ih =>
    obtain ⟨k, v⟩ := kv
    obtain ⟨fuel, rfl⟩ : ∃ n, fuel = n + 1 := ⟨fuel - 1, by simp at hf; omega⟩
    have hread := hv (k, v) (mem_cons_self ..)
    have hkey := hk (k, v) (mem_cons_self ..)
    have hopen := (hp (k, v) (mem_cons_self ..)).opens
    cases kvs with
    | nil =>
      refine ⟨k.flatMap escapeChar ++ 34 :: 58 :: v.print, by simp [joinComma, printField, quote],
        ?_⟩
      rw [append_assoc, cons_append, cons_append, parseFields,
        parseString_escape hkey]
      show bind (m := Except LoadsError) (value (skipBlanks (v.print ++ 125 :: rest))) _ = _
      rw [(hopen.append _).skipBlanks, hread _ (delimited_cons (by omega) _)]
      rfl
    | cons kv' kvs' =>
      obtain ⟨t', ht', hrest⟩ := ih (by simp) (fun x hx => hk x (mem_cons_of_mem _ hx))
        (fun x hx => hp x (mem_cons_of_mem _ hx))
        (fun x hx => hv x (mem_cons_of_mem _ hx)) fuel (by simpa using hf)
      refine ⟨k.flatMap escapeChar ++ 34 :: 58 :: (v.print ++ 44 :: 34 :: t'), ?_, ?_⟩
      · simp only [map_cons] at ht' ⊢
        rw [joinComma, ht']
        simp [printField, quote]
      · rw [append_assoc, cons_append, cons_append, parseFields,
          parseString_escape hkey]
        show bind (m := Except LoadsError)
          (value (skipBlanks ((v.print ++ 44 :: 34 :: t') ++ 125 :: rest))) _ = _
        rw [append_assoc, cons_append, cons_append, (hopen.append _).skipBlanks,
          hread _ (delimited_cons (by omega) _)]
        show (parseFields value fuel (t' ++ 125 :: rest) >>= _) = _
        rw [hrest]
        rfl

theorem Json.Regular.not_startsConstant (h : v.Regular d) (rest : Str) :
    startsConstant (v.print ++ rest) = false := by
  have hhead : ∀ {c : Nat} {t : Str}, c ≠ 78 → c ≠ 73 → c ≠ 45 → startsConstant (c :: t) = false := by
    intro c t h78 h73 h45
    rw [startsConstant, lit_nan, lit_infinity, lit_negInfinity, stripWord_ne h78.symm,
      stripWord_ne h73.symm, stripWord_ne h45.symm]
    rfl
  have hdigit : ∀ {c : Nat} {t : Str}, isDigit c = true → startsConstant (c :: t) = false := by
    intro c t hc
    simp only [isDigit, Bool.and_eq_true, decide_eq_true_eq] at hc
    exact hhead (by omega) (by omega) (by omega)
  have hnat : ∀ n, ∃ c t, printNat n = c :: t ∧ isDigit c = true := by
    intro n
    rcases printNat_cases n with ⟨-, h⟩ | ⟨c, ds, h, hc, -⟩
    · exact ⟨48, [], h, by decide⟩
    · exact ⟨c, ds, h, hc⟩
  cases h with
  | null => exact hhead (by decide) (by decide) (by decide)
  | bool d b => cases b <;> exact hhead (by decide) (by decide) (by decide)
  | int d i h =>
    rw [print]
    cases i with
    | ofNat n =>
      obtain ⟨c, t, hc, hd⟩ := hnat n
      rw [printInt, hc]
      exact hdigit hd
    | negSucc n =>
      obtain ⟨c, t, hc, hd⟩ := hnat (n + 1)
      simp only [isDigit, Bool.and_eq_true, decide_eq_true_eq] at hd
      rw [printInt, hc, startsConstant, lit_nan, lit_infinity, lit_negInfinity, cons_append,
        cons_append, stripWord_ne (by decide), stripWord_ne (by decide), stripWord, if_pos rfl,
        stripWord_ne (by omega)]
      rfl
  | float d literal h hrepr =>
    obtain ⟨digits, rfl, -, -⟩ := h
    rw [print, printFloat, hrepr]
    exact hdigit (by decide)
  | str => exact hhead (by decide) (by decide) (by decide)
  | arr => exact hhead (by decide) (by decide) (by decide)
  | obj => exact hhead (by decide) (by decide) (by decide)

/-- The reader of the values inside a container, where the nesting limit admits one. -/
def innerReader (value : Nat → Str → Parse Json) : Nat → Option (Str → Parse Json)
  | 0 => none
  | d + 1 => some (value d)

/-- A regular value reads back from its text, whatever text follows, by every reader that differs from
the standard one at most on constants. -/
theorem Json.Regular.readsBack_of {value : Nat → Str → Parse Json}
    (hvalue : ∀ d s, startsConstant s = false → value d s = parseWith (innerReader value d) s)
    (h : v.Regular d) : ReadsBack (value d) v v.sorted := by
  induction h with
  | null d =>
    intro rest hr
    rw [hvalue d _ ((Json.Regular.null d).not_startsConstant rest)]
    rfl
  | bool d b =>
    intro rest hr
    rw [hvalue d _ ((Json.Regular.bool d b).not_startsConstant rest)]
    cases b <;> rfl
  | int d i hlen =>
    intro rest hr
    rw [hvalue d _ ((Json.Regular.int d i hlen).not_startsConstant rest)]
    have hscalar := parseScalar_printInt i hr hlen
    have hw : ∀ inner, parseWith inner (printInt i ++ rest) = parseScalar (printInt i ++ rest) := by
      intro inner
      have hne : ∀ n, ∃ c t, printInt n = c :: t ∧ c ≠ 34 ∧ c ≠ 123 ∧ c ≠ 91 := by
        intro n
        cases n with
        | ofNat n =>
          rcases printNat_cases n with ⟨-, h⟩ | ⟨c, ds, h, hc, -⟩
          · exact ⟨48, [], h, by decide, by decide, by decide⟩
          · simp only [isDigit, Bool.and_eq_true, decide_eq_true_eq] at hc
            exact ⟨c, ds, h, by omega, by omega, by omega⟩
        | negSucc n => exact ⟨45, _, rfl, by decide, by decide, by decide⟩
      obtain ⟨c, t, hc, h1, h2, h3⟩ := hne i
      rw [hc, cons_append]
      unfold parseWith
      split
      · rename_i h; exact absurd (cons.inj h).1 h1
      · rename_i h; exact absurd (cons.inj h).1 h2
      · rename_i h; exact absurd (cons.inj h).1 h3
      · rfl
    rw [print, hw]
    exact hscalar
  | float d literal h hrepr =>
    intro rest hr
    rw [hvalue d _ ((Json.Regular.float d literal h hrepr).not_startsConstant rest)]
    have hw : ∀ inner, parseWith inner (literal ++ rest) = parseScalar (literal ++ rest) := by
      intro inner
      obtain ⟨digits, rfl, -, -⟩ := h
      rfl
    rw [print, printFloat, hrepr, hw]
    exact h.parseScalar hr
  | str d s hs =>
    intro rest hr
    rw [hvalue d _ ((Json.Regular.str d s hs).not_startsConstant rest)]
    have hstr : ∀ inner, parseWith inner (quote s ++ rest) = .ok (.str s, rest) := by
      intro inner
      have hq : quote s ++ rest = 34 :: (s.flatMap escapeChar ++ 34 :: rest) := by simp [quote]
      rw [hq]
      show (parseString (s.flatMap escapeChar ++ 34 :: rest)).map _ = _
      rw [parseString_escape hs]
      rfl
    exact hstr _
  | arr d items hp ih =>
    intro rest hr
    rw [hvalue (d + 1) _ ((Json.Regular.arr d items hp).not_startsConstant rest), print_arr,
      sorted_arr]
    show parseArray (value d) (joinComma (items.map print) ++ [93] ++ rest) = _
    rw [append_assoc, cons_append, nil_append]
    cases items with
    | nil => rfl
    | cons v vs =>
      have hopen : Opens (joinComma ((v :: vs).map print) ++ 93 :: rest) := by
        have hv := (hp v (by simp)).opens
        cases vs with
        | nil => exact hv.append _
        | cons x xs =>
          simp only [map_cons, joinComma, append_assoc]
          exact hv.append _
      have hlen : (v :: vs).length ≤ (joinComma ((v :: vs).map print)).length := by
        have := length_joinComma_le ((v :: vs).map print) (by
          intro s hs
          obtain ⟨w, hw, rfl⟩ := mem_map.mp hs
          obtain ⟨c, t, h, -⟩ := (hp w hw).opens
          rw [h]
          simp)
        simpa using this
      have hitems := parseItems_print (by simp) hp ih rest
        ((joinComma ((v :: vs).map print) ++ 93 :: rest).length + 1)
        (by rw [length_append]; omega)
      unfold parseArray
      rw [hopen.skipBlanks]
      obtain ⟨c, t, hc, -, h93, -⟩ := hopen
      rw [hc] at hitems ⊢
      split
      · rename_i h; exact absurd (cons.inj h).1 h93
      · rename_i h; rw [hitems]; rfl
  | obj d fields hnd hk hp ih =>
    intro rest hr
    rw [hvalue (d + 1) _ ((Json.Regular.obj d fields hnd hk hp).not_startsConstant rest), print_obj,
      sorted_obj]
    show parseObject (value d) (joinComma _ ++ [125] ++ rest) = _
    rw [append_assoc, cons_append, nil_append]
    by_cases hne : sortByKey fields = []
    · rw [hne]; rfl
    · obtain ⟨t, ht, -⟩ := parseFields_print hne
        (fun kv hkv => hk kv (mem_sortByKey.mp hkv)) (fun kv hkv => hp kv (mem_sortByKey.mp hkv))
        (fun kv hkv => ih kv (mem_sortByKey.mp hkv)) rest _ le_rfl
      have hlen : (sortByKey fields).length ≤ (t ++ 125 :: rest).length + 1 := by
        have := length_joinComma_le
          ((sortByKey fields).map fun kv => printField (kv.1, kv.2.print)) (by
            intro s hs
            obtain ⟨kv, -, rfl⟩ := mem_map.mp hs
            simp [printField, quote])
        rw [ht] at this
        simp at this ⊢
        omega
      obtain ⟨t', ht', hparse⟩ := parseFields_print hne
        (fun kv hkv => hk kv (mem_sortByKey.mp hkv)) (fun kv hkv => hp kv (mem_sortByKey.mp hkv))
        (fun kv hkv => ih kv (mem_sortByKey.mp hkv)) rest _ hlen
      obtain rfl : t' = t := by rw [ht] at ht'; exact (cons.inj ht').2.symm
      rw [ht]
      show (parseFields (value d) ((t' ++ 125 :: rest).length + 1) (t' ++ 125 :: rest)).map _ = _
      rw [hparse]
      show Except.ok (Json.obj (dictOf _), rest) = _
      rw [dictOf_of_nodup (nodup_keys_sorted hnd)]

theorem Json.Regular.readsBack (h : v.Regular d) : ReadsBack (parseValue d) v v.sorted :=
  h.readsBack_of fun d _ _ => by cases d <;> rfl

theorem Json.Regular.readsBack_finite (h : v.Regular d) :
    ReadsBack (parseFiniteValue d) v v.sorted := by
  refine h.readsBack_of fun d s hs => ?_
  cases d with
  | zero => rw [parseFiniteValue, hs]; rfl
  | succ d => rw [parseFiniteValue, hs]; rfl

/-! ## Whole texts -/

theorem Json.Regular.head_ne_bom (h : v.Regular d) : v.print.head? ≠ some 0xFEFF := by
  obtain ⟨c, t, hc, -⟩ := h.opens
  have hp := h.printable c (by rw [hc]; exact mem_cons_self ..)
  rw [hc, head?_cons]
  intro he
  have : c = 65279 := by simpa using he
  omega

/-- `json.loads(json.dumps(value, sort_keys=True, ...))` gives the value back. -/
theorem Json.Regular.loads_print (h : v.Regular d) (hd : d ≤ 16) :
    loads v.print = .ok v.sorted := by
  have hread := (h.mono (hd.trans Runtime.le_recursionLimit)).readsBack [] delimited_nil
  rw [append_nil] at hread
  unfold loads
  rw [if_neg h.head_ne_bom, h.opens.skipBlanks]
  simp only [bind, Except.bind, pure, Except.pure, hread]
  rfl

theorem Json.Regular.loadsFinite_print (h : v.Regular d) (hd : d ≤ 16) :
    loadsFinite v.print = .ok v.sorted := by
  have hread := (h.mono (hd.trans Runtime.le_recursionLimit)).readsBack_finite [] delimited_nil
  rw [append_nil] at hread
  unfold loadsFinite
  rw [if_neg h.head_ne_bom, h.opens.skipBlanks]
  simp only [bind, Except.bind, pure, Except.pure, hread]
  rfl

/-! ## Plain values -/

theorem opens_print (h : v.Plain d) : Opens v.print := h.regular.opens

theorem printable_print (h : v.Plain d) : Printable v.print :=
  h.regular.printable

theorem loads_print (h : v.Plain d) (hd : d ≤ 16) :
    loads v.print = .ok v.sorted := h.regular.loads_print hd

end RoundTrip

/-! ## Documents with machine integers and ASCII text -/

theorem length_printNat_le {n k : Nat} (h : n < 10 ^ k) (hk : 0 < k) :
    (printNat n).length ≤ k := by
  unfold printNat
  split
  · exact hk
  · rw [length_map, length_reverse]
    exact (Nat.digits_length_le_iff (by omega) n).mpr h

theorem isScalar_of_lt {c : Nat} (h : c < 0xD800) : isScalar c = true := by
  simp [isScalar, h]

theorem all_isScalar_lit (s : String) : (lit s).all isScalar = true := by
  rw [lit, all_map, all_eq_true]
  intro c _
  have hvalid := c.valid
  simp only [isScalar, Function.comp_apply, Bool.or_eq_true, Bool.and_eq_true, decide_eq_true_eq]
  simp only [UInt32.isValidChar, Nat.isValidChar] at hvalid
  simp only [Char.toNat]
  omega

theorem hexOfBytes_bounds (b : Bytes) : ∀ c ∈ hexOfBytes b, 48 ≤ c ∧ c ≤ 102 ∧ c ≠ 92 := by
  intro c hc
  obtain ⟨x, -, hx⟩ := mem_flatMap.mp hc
  have hlt := x.toNat_lt
  have key : ∀ n, n < 16 → 48 ≤ hexDigit n ∧ hexDigit n ≤ 102 ∧ hexDigit n ≠ 92 := by decide
  simp only [mem_cons, not_mem_nil, or_false] at hx
  rcases hx with rfl | rfl
  · exact key _ (by omega)
  · exact key _ (by omega)

theorem plain_dict (hnd : (fields.map Prod.fst).Nodup)
    (hk : (fields.map Prod.fst).all (·.all isScalar) = true) (hv : ∀ kv ∈ fields, kv.2.Plain d) :
    (obj fields).Plain (d + 1) := by
  refine .obj d fields hnd ?_ hv
  intro kv hkv c hc
  rw [all_eq_true] at hk
  exact all_eq_true.mp (hk kv.1 (mem_map_of_mem hkv)) c hc

end Python
