import Tds.Python.Text

/-!
# The checksums of the native extension

`crc32_ieee_nogil` and `fnv1a32` of `_native_index.c` compute on 32-bit words, the first with a table
for half an octet; `_fnv1a32` of `native/checksums.py` masks unbounded integers.
-/

namespace Native

open Python

def crcTable : List UInt32 :=
  [0x00000000, 0x1DB71064, 0x3B6E20C8, 0x26D930AC, 0x76DC4190, 0x6B6B51F4, 0x4DB26158, 0x5005713C,
    0xEDB88320, 0xF00F9344, 0xD6D6A3E8, 0xCB61B38C, 0x9B64C2B0, 0x86D3D2D4, 0xA00AE278, 0xBDBDF21C]

/-- `table[(crc ^ byte) & 0x0F] ^ (crc >> 4)`. -/
def crcNibble (crc byte : UInt32) : UInt32 :=
  crcTable.getD ((crc ^^^ byte) &&& 0x0F).toNat 0 ^^^ (crc >>> 4)

/-- The checksum by half octets. -/
def crc32IeeeNogil (data : Bytes) : UInt32 :=
  data.foldl (fun crc octet =>
    let byte := octet.toUInt32
    crcNibble (crcNibble crc byte) (byte >>> 4)) 0xFFFFFFFF ^^^ 0xFFFFFFFF

/-- `fnv1a32` of the extension. -/
def fnv1a32 (data : Bytes) : UInt32 :=
  let h := data.foldl (fun h octet => (h ^^^ octet.toUInt32) * 16777619) 2166136261
  if h ≠ 0 then h else 1

/-- `_fnv1a32` of the Python module. -/
def pythonFnv1a32 (payload : Bytes) : Nat :=
  let value := payload.foldl (fun value octet => ((value ^^^ octet.toNat) * 16777619) &&& 0xFFFFFFFF)
    2166136261
  if value ≠ 0 then value else 1

/-! ## The table is four steps of the bits -/

theorem and_one_cases (c : UInt32) : c &&& 1 = 0 ∨ c &&& 1 = 1 := by
  have h : (c &&& 1).toNat = c.toNat % 2 := by simp
  rcases Nat.mod_two_eq_zero_or_one c.toNat with h0 | h1
  · exact .inl (UInt32.toNat_inj.mp (h.trans h0))
  · exact .inr (UInt32.toNat_inj.mp (h.trans h1))

theorem crcBit_xor (a b : UInt32) : crcBit (a ^^^ b) = crcBit a ^^^ crcBit b := by
  have hand : (a ^^^ b) &&& 1 = (a &&& 1) ^^^ (b &&& 1) := by
    refine UInt32.toBitVec_inj.mp (BitVec.eq_of_getElem_eq fun i hi => ?_)
    cases ha : a.toBitVec[i] <;> cases hb : b.toBitVec[i] <;> simp [ha, hb]
  have hcancel : ∀ x y p : UInt32, x ^^^ p ^^^ (y ^^^ p) = x ^^^ y := by
    intro x y p
    rw [UInt32.xor_comm y p, UInt32.xor_assoc, ← UInt32.xor_assoc p, UInt32.xor_self, UInt32.zero_xor]
  unfold crcBit
  rw [hand, UInt32.shiftRight_xor]
  rcases and_one_cases a with ha | ha <;> rcases and_one_cases b with hb | hb <;> simp [ha, hb]
  · exact UInt32.xor_assoc _ _ _
  · rw [UInt32.xor_assoc, UInt32.xor_comm (b >>> 1), UInt32.xor_assoc]
  · exact (hcancel _ _ _).symm

theorem iterate_crcBit_xor (n : Nat) (a b : UInt32) :
    crcBit^[n] (a ^^^ b) = crcBit^[n] a ^^^ crcBit^[n] b := by
  induction n generalizing a b with
  | zero => rfl
  | succ n ih => rw [Function.iterate_succ_apply, crcBit_xor, ih]; rfl

variable (x : UInt32)

theorem high_xor_low : ((x >>> 4) <<< 4) ^^^ (x &&& 15) = x := by
  have hbits : ∀ i (hi : i < 32), (15#32)[i] = decide (i < 4) := by decide
  refine UInt32.toBitVec_inj.mp (BitVec.eq_of_getLsbD_eq fun i hi => ?_)
  by_cases h : i < 4
  · simp [hi, h, hbits]
  · have hsum : 4 + (i - 4) = i := by omega
    simp [hi, h, hsum, hbits]

/-- A word whose low bits are clear only moves down. -/
theorem iterate_crcBit_of_clear {n k : Nat} {c : UInt32} (h : c.toNat = k * 2 ^ n) :
    (crcBit^[n] c).toNat = k := by
  induction n generalizing c with
  | zero => simpa using h
  | succ n ih =>
    have hhalf : c.toNat = 2 * (k * 2 ^ n) := by rw [h, Nat.pow_succ, ← Nat.mul_assoc, Nat.mul_comm]
    have hand : ¬ c &&& 1 = 1 := by
      intro hone
      have := congrArg UInt32.toNat hone
      simp [hhalf] at this
    refine ih ?_
    rw [crcBit, if_neg hand]
    simp [Nat.shiftRight_eq_div_pow, hhalf]

theorem crcBit_high : crcBit^[4] ((x >>> 4) <<< 4) = x >>> 4 := by
  apply UInt32.toNat_inj.mp
  refine iterate_crcBit_of_clear ?_
  have := x.toNat_lt
  simp [Nat.shiftRight_eq_div_pow, Nat.shiftLeft_eq]
  omega

theorem crcBit_low : crcBit^[4] (x &&& 15) = crcTable.getD (x &&& 15).toNat 0 := by
  have hentries : ∀ n < 16, crcBit^[4] (UInt32.ofNat n) = crcTable.getD n 0 := by decide
  have hlt : (x &&& 15).toNat < 16 := by
    have := Nat.and_le_right (n := x.toNat) (m := 15)
    simp
    omega
  rw [← hentries _ hlt, UInt32.ofNat_toNat]

theorem iterate_crcBit_four :
    crcBit^[4] x = crcTable.getD (x &&& 15).toNat 0 ^^^ (x >>> 4) := by
  nth_rewrite 1 [← high_xor_low x]
  rw [iterate_crcBit_xor, crcBit_high, crcBit_low, UInt32.xor_comm]

/-- Two entries of the table make the octet of `zlib`. -/
theorem crcNibble_twice (crc : UInt32) (octet : UInt8) :
    crcNibble (crcNibble crc octet.toUInt32) (octet.toUInt32 >>> 4) = crcStep crc octet := by
  have hgone : (octet.toUInt32 >>> 4) >>> 4 = 0 := by
    apply UInt32.toNat_inj.mp
    have := octet.toNat_lt
    simp [Nat.shiftRight_eq_div_pow]
    omega
  have hnibble : ∀ crc byte : UInt32, crcBit^[4] (crc ^^^ byte) = crcNibble crc byte ^^^ (byte >>> 4) := by
    intro crc byte
    rw [iterate_crcBit_four, UInt32.shiftRight_xor, ← UInt32.xor_assoc]
    rfl
  rw [crcStep, Function.iterate_add_apply crcBit 4 4, hnibble, hnibble, hgone, UInt32.xor_zero]

theorem fnv1a32_eq (data : Bytes) : (fnv1a32 data).toNat = pythonFnv1a32 data := by
  have hfold : ∀ h : UInt32,
      (data.foldl (fun h octet => (h ^^^ octet.toUInt32) * 16777619) h).toNat =
        data.foldl (fun value octet => ((value ^^^ octet.toNat) * 16777619) &&& 0xFFFFFFFF) h.toNat := by
    induction data with
    | nil => intro h; rfl
    | cons octet data ih =>
      intro h
      have hstep : ((h ^^^ octet.toUInt32) * 16777619).toNat =
          ((h.toNat ^^^ octet.toNat) * 16777619) &&& 0xFFFFFFFF := by
        rw [show (0xFFFFFFFF : Nat) = 2 ^ 32 - 1 from rfl, Nat.and_two_pow_sub_one_eq_mod]
        simp
      rw [List.foldl_cons, List.foldl_cons, ih, hstep]
  unfold fnv1a32 pythonFnv1a32
  rw [show (2166136261 : Nat) = (2166136261 : UInt32).toNat from rfl, ← hfold]
  generalize data.foldl _ _ = h
  have hzero : h = 0 ↔ h.toNat = 0 := UInt32.toNat_inj.symm
  by_cases h0 : h = 0
  · simp [h0]
  · simp [h0, hzero.not.mp h0]

/-- The native checksums are those of the Python modules. -/
theorem checksums_agree (data : Bytes) :
    crc32IeeeNogil data = crc32 data ∧ (fnv1a32 data).toNat = pythonFnv1a32 data := by
  refine ⟨?_, fnv1a32_eq data⟩
  simp only [crc32IeeeNogil, crc32, crcNibble_twice]

end Native
