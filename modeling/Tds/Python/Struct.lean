import Tds.Python.Proofs.Text

/-!
# Big-endian integers

The unsigned fields of `struct` with the byte order `>`.
-/

namespace Python

open List

/-- The last `width` octets of `n`, the most significant one first. -/
def beBytes : Nat → Nat → Bytes
  | 0, _ => []
  | width + 1, n => UInt8.ofNat (n >>> (8 * width)) :: beBytes width n

/-- The number that octets stand for, the most significant one first. -/
def beNat (octets : Bytes) : Nat := octets.foldl (fun n octet => 256 * n + octet.toNat) 0

@[simp] theorem length_beBytes (width n : Nat) : (beBytes width n).length = width := by
  induction width with
  | zero => rfl
  | succ width ih => rw [beBytes, length_cons, ih]

theorem foldl_beBytes (width n start : Nat) :
    (beBytes width n).foldl (fun n octet => 256 * n + octet.toNat) start =
      start * 256 ^ width + n % 256 ^ width := by
  induction width generalizing start with
  | zero => simp [beBytes, Nat.mod_one]
  | succ width ih =>
    have hoctet : (UInt8.ofNat (n >>> (8 * width))).toNat = n / 256 ^ width % 256 := by
      rw [UInt8.toNat_ofNat', Nat.shiftRight_eq_div_pow, Nat.pow_mul]
    rw [beBytes, foldl_cons, ih, hoctet, Nat.mod_pow_succ]
    ring

theorem beNat_beBytes {width n : Nat} (h : n < 256 ^ width) : beNat (beBytes width n) = n := by
  rw [beNat, foldl_beBytes, Nat.mod_eq_of_lt h, Nat.zero_mul, Nat.zero_add]

/-- An unsigned field of `struct.unpack`. -/
def unpackUInt (raw : Bytes) (offset width : Nat) : Nat := beNat ((raw.drop offset).take width)

theorem unpackUInt_append {before after : Bytes} {offset width n : Nat}
    (hoffset : before.length = offset) (hn : n < 256 ^ width) : unpackUInt (before ++ (beBytes width n ++ after)) offset width = n := by
  rw [unpackUInt, drop_left' hoffset, take_left' (length_beBytes width n), beNat_beBytes hn]

theorem beNat_append_singleton (octets : Bytes) (octet : UInt8) :
    beNat (octets ++ [octet]) = 256 * beNat octets + octet.toNat := by
  rw [beNat, foldl_append]
  rfl

theorem beBytes_succ (width n : Nat) :
    beBytes (width + 1) n = beBytes width (n / 256) ++ [UInt8.ofNat n] := by
  induction width generalizing n with
  | zero => rfl
  | succ width ih =>
    rw [beBytes, ih, beBytes, cons_append]
    congr 2
    rw [Nat.shiftRight_eq_div_pow, Nat.shiftRight_eq_div_pow, Nat.div_div_eq_div_mul,
      show 256 = 2 ^ 8 from rfl, ← Nat.pow_add]
    congr 2
    ring

theorem beBytes_beNat (octets : Bytes) : beBytes octets.length (beNat octets) = octets := by
  induction octets using reverseRecOn with
  | nil => rfl
  | append_singleton octets octet ih =>
    have hlt := octet.toNat_lt
    rw [length_append, length_singleton, beBytes_succ, beNat_append_singleton,
      show (256 * beNat octets + octet.toNat) / 256 = beNat octets by omega, ih]
    congr 2
    apply UInt8.toNat_inj.mp
    rw [UInt8.toNat_ofNat']
    omega

theorem beBytes_unpackUInt {raw : Bytes} {offset width : Nat} (h : offset + width ≤ raw.length) :
    beBytes width (unpackUInt raw offset width) = (raw.drop offset).take width := by
  have hlength : ((raw.drop offset).take width).length = width := by
    rw [length_take, length_drop]
    omega
  have hbytes := beBytes_beNat ((raw.drop offset).take width)
  rwa [hlength] at hbytes

theorem beNat_lt (octets : Bytes) : beNat octets < 256 ^ octets.length := by
  induction octets using reverseRecOn with
  | nil => exact Nat.one_pos
  | append_singleton octets octet ih =>
    have hlt := octet.toNat_lt
    rw [beNat_append_singleton, length_append, length_singleton, Nat.pow_succ]
    omega

theorem unpackUInt_lt (raw : Bytes) (offset width : Nat) : unpackUInt raw offset width < 256 ^ width :=
  lt_of_lt_of_le (beNat_lt _) (Nat.pow_le_pow_right (by decide) (length_take_le ..))

end Python
