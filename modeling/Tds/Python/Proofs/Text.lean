import Tds.Python.Text

/-!
# UTF-8 is a bijection between scalar strings and the bytes that decode

`Sequence` is the grammar of RFC 3629; encoder and decoder are both related to it.
-/

namespace Python

open UInt8

theorem toNat_ofNat_of_lt {n : Nat} (h : n < 256) : (ofNat n).toNat = n := by
  simp [Nat.mod_eq_of_lt h]

theorem isScalar_iff (c : Nat) :
    isScalar c = true ↔ c < 0xD800 ∨ 0xE000 ≤ c ∧ c < 0x110000 := by
  simp [isScalar]

theorem isContinuation_iff (b : UInt8) :
    isContinuation b = true ↔ 0x80 ≤ b.toNat ∧ b.toNat ≤ 0xBF := by
  simp [isContinuation, le_iff_toNat_le]

/-! ## Sequences of one to four octets -/

/-- The octets of a code point. The second octet excludes overlong forms, surrogates and what is above
`U+10FFFF`. -/
inductive Sequence : Nat → Bytes → Prop where
  | one {b0 : UInt8} (h0 : b0.toNat < 0x80) : Sequence b0.toNat [b0]
  | two {b0 b1 : UInt8} (h0 : 0xC2 ≤ b0.toNat ∧ b0.toNat ≤ 0xDF) (h1 : isContinuation b1 = true) :
    Sequence ((b0.toNat - 0xC0) * 64 + (b1.toNat - 0x80)) [b0, b1]
  | three {b0 b1 b2 : UInt8} (h0 : 0xE0 ≤ b0.toNat ∧ b0.toNat ≤ 0xEF) (h1 : isContinuation b1 = true)
    (h2 : isContinuation b2 = true) (hlow : b0.toNat = 0xE0 → 0xA0 ≤ b1.toNat)
    (hhigh : b0.toNat = 0xED → b1.toNat ≤ 0x9F) :
    Sequence ((b0.toNat - 0xE0) * 4096 + (b1.toNat - 0x80) * 64 + (b2.toNat - 0x80)) [b0, b1, b2]
  | four {b0 b1 b2 b3 : UInt8} (h0 : 0xF0 ≤ b0.toNat ∧ b0.toNat ≤ 0xF4) (h1 : isContinuation b1 = true)
    (h2 : isContinuation b2 = true) (h3 : isContinuation b3 = true)
    (hlow : b0.toNat = 0xF0 → 0x90 ≤ b1.toNat) (hhigh : b0.toNat = 0xF4 → b1.toNat ≤ 0x8F) :
    Sequence ((b0.toNat - 0xF0) * 262144 + (b1.toNat - 0x80) * 4096 + (b2.toNat - 0x80) * 64 +
      (b3.toNat - 0x80)) [b0, b1, b2, b3]

variable {octets : Bytes} {c : Nat} {s : Str}

theorem Sequence.isScalar (h : Sequence c octets) : isScalar c = true := by
  rw [isScalar_iff]
  cases h with
  | one h0 => omega
  | two h0 h1 =>
    rw [isContinuation_iff] at h1
    omega
  | three h0 h1 h2 hlow hhigh =>
    rw [isContinuation_iff] at h1 h2
    omega
  | four h0 h1 h2 h3 hlow hhigh =>
    rw [isContinuation_iff] at h1 h2 h3
    omega

theorem ofNat_eq_of_toNat {n : Nat} {b : UInt8} (h : n = b.toNat) : ofNat n = b := by
  rw [h]
  exact UInt8.ofNat_toNat

theorem Sequence.eq_encode (h : Sequence c octets) : octets = encodeUtf8Char c := by
  unfold encodeUtf8Char
  cases h with
  | one h0 => rw [if_pos h0, UInt8.ofNat_toNat]
  | @two b0 b1 h0 h1 =>
    rw [isContinuation_iff] at h1
    rw [if_neg (by omega), if_pos (by omega), ofNat_eq_of_toNat (b := b0) (by omega),
      ofNat_eq_of_toNat (b := b1) (by omega)]
  | @three b0 b1 b2 h0 h1 h2 hlow hhigh =>
    rw [isContinuation_iff] at h1 h2
    rw [if_neg (by omega), if_neg (by omega), if_pos (by omega), ofNat_eq_of_toNat (b := b0) (by omega),
      ofNat_eq_of_toNat (b := b1) (by omega), ofNat_eq_of_toNat (b := b2) (by omega)]
  | @four b0 b1 b2 b3 h0 h1 h2 h3 hlow hhigh =>
    rw [isContinuation_iff] at h1 h2 h3
    rw [if_neg (by omega), if_neg (by omega), if_neg (by omega), ofNat_eq_of_toNat (b := b0) (by omega),
      ofNat_eq_of_toNat (b := b1) (by omega), ofNat_eq_of_toNat (b := b2) (by omega),
      ofNat_eq_of_toNat (b := b3) (by omega)]

theorem sequence_encodeUtf8Char (h : isScalar c = true) : Sequence c (encodeUtf8Char c) := by
  have hc := (isScalar_iff c).mp h
  have hsix : ∀ n, (ofNat (0x80 + n % 64)).toNat = 0x80 + n % 64 := fun n =>
    toNat_ofNat_of_lt (by omega)
  have hcont : ∀ n, isContinuation (ofNat (0x80 + n % 64)) = true := by
    intro n
    rw [isContinuation_iff, hsix]
    omega
  -- the code point of the octets is the one that was encoded
  have hof : ∀ {c' : Nat} {octets : Bytes}, Sequence c' octets → c' = c → Sequence c octets :=
    fun hs heq => heq ▸ hs
  unfold encodeUtf8Char
  split
  · next h1 =>
    have hb0 : (ofNat c).toNat = c := toNat_ofNat_of_lt (by omega)
    exact hof (.one (by rwa [hb0])) hb0
  · split
    · next h1 h2 =>
      have hb0 : (ofNat (0xC0 + c / 64)).toNat = 0xC0 + c / 64 := toNat_ofNat_of_lt (by omega)
      refine hof (.two ?_ (hcont c)) ?_ <;> rw [hb0]
      · omega
      · rw [hsix]
        omega
    · split
      · next h1 h2 h3 =>
        have hb0 : (ofNat (0xE0 + c / 4096)).toNat = 0xE0 + c / 4096 :=
          toNat_ofNat_of_lt (by omega)
        refine hof (.three ?_ (hcont (c / 64)) (hcont c) ?_ ?_) ?_ <;> rw [hb0]
        · omega
        all_goals
          simp only [hsix]
          omega
      · next h1 h2 h3 =>
        have hb0 : (ofNat (0xF0 + c / 262144)).toNat = 0xF0 + c / 262144 :=
          toNat_ofNat_of_lt (by omega)
        refine hof (.four ?_ (hcont (c / 4096)) (hcont (c / 64)) (hcont c) ?_ ?_) ?_ <;> rw [hb0]
        · omega
        all_goals
          simp only [hsix]
          omega

/-! ## The decoder -/

theorem Sequence.decode (h : Sequence c octets) (rest : Bytes) :
    decodeUtf8 (octets ++ rest) = (decodeUtf8 rest).map (c :: ·) := by
  have hs := h.isScalar
  cases h with
  | one h0 =>
    rw [List.singleton_append, decodeUtf8.eq_def]
    exact if_pos (lt_iff_toNat_lt.mpr h0)
  | @two b0 b1 h0 h1 =>
    have hlt : ¬ b0.toNat < 0x80 := by omega
    rw [decodeUtf8.eq_def]
    simp [lt_iff_toNat_lt, le_iff_toNat_le, hlt, h0, h1]
  | @three b0 b1 b2 h0 h1 h2 hlow hhigh =>
    have hlt : ¬ b0.toNat < 0x80 := by omega
    have htwo : ¬ b0.toNat ≤ 0xDF := by omega
    have hle : 0x800 ≤ (b0.toNat - 0xE0) * 4096 + (b1.toNat - 0x80) * 64 + (b2.toNat - 0x80) := by
      rw [isContinuation_iff] at h1 h2
      omega
    rw [decodeUtf8.eq_def]
    simp [lt_iff_toNat_lt, le_iff_toNat_le, hlt, htwo, h0, h1, h2, hle, hs]
  | @four b0 b1 b2 b3 h0 h1 h2 h3 hlow hhigh =>
    have hlt : ¬ b0.toNat < 0x80 := by omega
    have htwo : ¬ b0.toNat ≤ 0xDF := by omega
    have hthree : ¬ b0.toNat ≤ 0xEF := by omega
    have hc : 0x10000 ≤ (b0.toNat - 0xF0) * 262144 + (b1.toNat - 0x80) * 4096 + (b2.toNat - 0x80) * 64 +
        (b3.toNat - 0x80) ∧ (b0.toNat - 0xF0) * 262144 + (b1.toNat - 0x80) * 4096 +
          (b2.toNat - 0x80) * 64 + (b3.toNat - 0x80) < 0x110000 := by
      rw [isContinuation_iff] at h1 h2 h3
      omega
    rw [decodeUtf8.eq_def]
    simp [lt_iff_toNat_lt, le_iff_toNat_le, hlt, htwo, hthree, h0, h1, h2, h3, hc]

theorem exists_sequence_of_decodeUtf8 {b0 : UInt8} {t0 : Bytes}
    (h : decodeUtf8 (b0 :: t0) = some s) :
    ∃ c octets rest s', Sequence c octets ∧
      b0 :: t0 = octets ++ rest ∧ s = c :: s' ∧ decodeUtf8 rest = some s' := by
  rw [decodeUtf8.eq_def] at h
  simp only [lt_iff_toNat_lt, le_iff_toNat_le, reduceToNat, Bool.not_eq_true',
    Bool.and_eq_true, decide_eq_true_eq] at h
  split at h
  · next h0 =>
    obtain ⟨s', hs', rfl⟩ := Option.map_eq_some_iff.mp h
    exact ⟨_, [b0], t0, s', .one h0, rfl, rfl, hs'⟩
  · rcases t0 with - | ⟨b1, t1⟩
    · cases h
    dsimp only at h
    split at h
    · cases h
    next h1 =>
    have h1 : isContinuation b1 = true := by simpa using h1
    split at h
    · next htwo =>
      obtain ⟨s', hs', rfl⟩ := Option.map_eq_some_iff.mp h
      exact ⟨_, [b0, b1], t1, s', .two htwo h1, rfl, rfl, hs'⟩
    rcases t1 with - | ⟨b2, t2⟩
    · cases h
    dsimp only at h
    split at h
    · cases h
    next h2 =>
    have h2 : isContinuation b2 = true := by simpa using h2
    have h1' := (isContinuation_iff b1).mp h1
    have h2' := (isContinuation_iff b2).mp h2
    split at h
    · next hthree =>
      split at h
      · next hc =>
        obtain ⟨s', hs', rfl⟩ := Option.map_eq_some_iff.mp h
        rw [isScalar_iff] at hc
        exact ⟨_, [b0, b1, b2], t2, s', .three hthree h1 h2 (by omega) (by omega), rfl, rfl, hs'⟩
      · cases h
    rcases t2 with - | ⟨b3, t3⟩
    · cases h
    dsimp only at h
    split at h
    · next hfour =>
      have h3' := (isContinuation_iff b3).mp hfour.1.1
      split at h
      · next hc =>
        obtain ⟨s', hs', rfl⟩ := Option.map_eq_some_iff.mp h
        exact ⟨_, [b0, b1, b2, b3], t3, s', .four ⟨hfour.1.2, hfour.2⟩ h1 h2 hfour.1.1 (by omega) (by omega),
          rfl, rfl, hs'⟩
      · cases h
    · cases h

theorem decodeUtf8_flatMap (h : s.all isScalar = true) :
    decodeUtf8 (s.flatMap encodeUtf8Char) = some s := by
  induction s with
  | nil => rfl
  | cons c s ih =>
    rw [List.all_cons, Bool.and_eq_true] at h
    rw [List.flatMap_cons, (sequence_encodeUtf8Char h.1).decode, ih h.2]
    rfl

theorem decodeUtf8_eq_some {raw : Bytes} :
    decodeUtf8 raw = some s ↔ s.all isScalar = true ∧ raw = s.flatMap encodeUtf8Char := by
  constructor
  · intro h
    induction s generalizing raw with
    | nil =>
      cases raw with
      | nil => exact ⟨rfl, rfl⟩
      | cons b t =>
        obtain ⟨c, octets, rest, s', -, -, heq, -⟩ := exists_sequence_of_decodeUtf8 h
        cases heq
    | cons c s ih =>
      cases raw with
      | nil => cases h
      | cons b t =>
        obtain ⟨c', octets, rest, s', hc, hraw, heq, hrest⟩ := exists_sequence_of_decodeUtf8 h
        obtain ⟨rfl, rfl⟩ := List.cons.inj heq
        obtain ⟨hs, rfl⟩ := ih hrest
        exact ⟨by simp [hc.isScalar, hs], by rw [hraw, hc.eq_encode]; rfl⟩
  · rintro ⟨hs, rfl⟩
    exact decodeUtf8_flatMap hs

theorem decodeUtf8_of_encodeUtf8 {raw : Bytes} (h : encodeUtf8 s = some raw) :
    decodeUtf8 raw = some s := by
  unfold encodeUtf8 at h
  split at h
  · next hs =>
    cases h
    exact decodeUtf8_flatMap hs
  · cases h

end Python
