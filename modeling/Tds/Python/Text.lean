import Mathlib

/-!
# Python text and bytes

`bytes` is a list of octets and `str` a list of code points. A Python string may hold lone
surrogates, so a code point is a plain number rather than a `Char`.
-/

namespace Python

/-- A Python `bytes` value. -/
abbrev Bytes := List UInt8

/-- A Python `str` value: its code points. -/
abbrev Str := List Nat

instance : LawfulBEq Str := inferInstance

def lit (s : String) : Str := s.toList.map Char.toNat

theorem lit_inj {s t : String} : lit s = lit t ↔ s = t := by
  constructor
  · intro h
    have hinj : Function.Injective Char.toNat := fun a b hab => Char.ext (UInt32.toNat_inj.mp hab)
    exact String.toList_inj.mp (List.map_injective_iff.mpr hinj h)
  · rintro rfl
    rfl

/-- A code point that is not a surrogate, i.e. one that has a UTF-8 encoding. -/
def isScalar (c : Nat) : Bool := c < 0xD800 || (0xE000 ≤ c && c < 0x110000)

/-- `s.encode("ascii")` for a string that is known to be ASCII. -/
def encodeAscii (s : Str) : Bytes := s.map UInt8.ofNat

/-- `data.decode("ascii")`. -/
def decodeAscii (data : Bytes) : Option Str :=
  if data.all (· < 0x80) then some (data.map UInt8.toNat) else none

def encodeUtf8Char (c : Nat) : Bytes :=
  if c < 0x80 then [UInt8.ofNat c]
  else if c < 0x800 then [UInt8.ofNat (0xC0 + c / 64), UInt8.ofNat (0x80 + c % 64)]
  else if c < 0x10000 then
    [UInt8.ofNat (0xE0 + c / 4096), UInt8.ofNat (0x80 + c / 64 % 64), UInt8.ofNat (0x80 + c % 64)]
  else
    [UInt8.ofNat (0xF0 + c / 262144), UInt8.ofNat (0x80 + c / 4096 % 64),
      UInt8.ofNat (0x80 + c / 64 % 64), UInt8.ofNat (0x80 + c % 64)]

/-- `s.encode("utf-8")`; `none` is the `UnicodeEncodeError` raised for a surrogate. -/
def encodeUtf8 (s : Str) : Option Bytes :=
  if s.all isScalar then some (s.flatMap encodeUtf8Char) else none

def isContinuation (b : UInt8) : Bool := 0x80 ≤ b && b ≤ 0xBF

/-- `b.decode("utf-8")`; `none` is the `UnicodeDecodeError`. The decoder is the strict one: overlong
forms, surrogates and values above `U+10FFFF` are rejected. -/
def decodeUtf8 : Bytes → Option Str
  | [] => some []
  | b0 :: t0 =>
    if b0 < 0x80 then (decodeUtf8 t0).map (b0.toNat :: ·)
    else match t0 with
      | [] => none
      | b1 :: t1 =>
        if !isContinuation b1 then none
        else if 0xC2 ≤ b0 && b0 ≤ 0xDF then
          (decodeUtf8 t1).map (((b0.toNat - 0xC0) * 64 + (b1.toNat - 0x80)) :: ·)
        else match t1 with
          | [] => none
          | b2 :: t2 =>
            if !isContinuation b2 then none
            else if 0xE0 ≤ b0 && b0 ≤ 0xEF then
              let c := (b0.toNat - 0xE0) * 4096 + (b1.toNat - 0x80) * 64 + (b2.toNat - 0x80)
              if 0x800 ≤ c && isScalar c then (decodeUtf8 t2).map (c :: ·) else none
            else match t2 with
              | [] => none
              | b3 :: t3 =>
                if isContinuation b3 && 0xF0 ≤ b0 && b0 ≤ 0xF4 then
                  let c := (b0.toNat - 0xF0) * 262144 + (b1.toNat - 0x80) * 4096
                    + (b2.toNat - 0x80) * 64 + (b3.toNat - 0x80)
                  if 0x10000 ≤ c && c < 0x110000 then (decodeUtf8 t3).map (c :: ·) else none
                else none

/-- `c.isspace()`: the characters `str.strip` removes. -/
def isSpace (c : Nat) : Bool :=
  (9 ≤ c && c ≤ 13) || (28 ≤ c && c ≤ 32) || c == 0x85 || c == 0xA0 || c == 0x1680
    || (0x2000 ≤ c && c ≤ 0x200A) || c == 0x2028 || c == 0x2029 || c == 0x202F || c == 0x205F
    || c == 0x3000

def strip (s : Str) : Str := ((s.dropWhile isSpace).reverse.dropWhile isSpace).reverse

def hexDigit (n : Nat) : Nat := if n < 10 then 48 + n else 87 + n

def hexVal (c : Nat) : Option Nat :=
  if 48 ≤ c && c ≤ 57 then some (c - 48)
  else if 97 ≤ c && c ≤ 102 then some (c - 87)
  else if 65 ≤ c && c ≤ 70 then some (c - 55)
  else none

def isDigit (c : Nat) : Bool := 48 ≤ c && c ≤ 57

/-- `b.hex()`. -/
def hexOfBytes (b : Bytes) : Str :=
  b.flatMap fun x => [hexDigit (x.toNat / 16), hexDigit (x.toNat % 16)]

/-- A lower-case hexadecimal digit, as the pattern `[0-9a-f]`. -/
def isLowerHex (c : Nat) : Bool := isDigit c || (97 ≤ c && c ≤ 102)

/-- The octets of lower-case hexadecimal digits. -/
def bytesOfHex : Str → Option Bytes
  | [] => some []
  | h :: l :: t =>
    if isLowerHex h && isLowerHex l then do
      let hi ← hexVal h
      let lo ← hexVal l
      let rest ← bytesOfHex t
      return UInt8.ofNat (16 * hi + lo) :: rest
    else none
  | [_] => none

structure Digest where
  /-- The octets of the digest. -/
  bytes : Bytes
  /-- There are 32 of them. -/
  length_eq : bytes.length = 32
deriving DecidableEq

def Digest.hex (d : Digest) : Str := hexOfBytes d.bytes

/-! ## Paths -/

/-- `s.split(sep)` for a separator of one character. -/
def splitOn (sep : Nat) : Str → List Str
  | [] => [[]]
  | c :: t =>
    if c = sep then [] :: splitOn sep t
    else match splitOn sep t with
      | word :: words => (c :: word) :: words
      | [] => [[c]]

/-- The components of `PurePosixPath(path).parts`, without the root. -/
def posixParts (path : Str) : List Str := (splitOn 47 path).filter fun part => part ≠ [] ∧ part ≠ [46]

example : posixParts (lit "a//./b") = [lit "a", lit "b"] := by decide

/-! ## The checksums of `zlib` -/

/-- One octet of `zlib.adler32`: the two sums modulo 65521. -/
def adlerStep (sums : Nat × Nat) (octet : UInt8) : Nat × Nat :=
  let a := (sums.1 + octet.toNat) % 65521
  (a, (sums.2 + a) % 65521)

/-- `zlib.adler32(data) & 0xFFFFFFFF`. -/
def adler32 (data : Bytes) : Nat :=
  let sums := data.foldl adlerStep (1, 0)
  sums.2 * 65536 + sums.1

/-- One bit of the reflected CRC-32 with the polynomial `0xEDB88320`. -/
def crcBit (crc : UInt32) : UInt32 :=
  if crc &&& 1 = 1 then (crc >>> 1) ^^^ 0xEDB88320 else crc >>> 1

/-- One octet of `zlib.crc32`. -/
def crcStep (crc : UInt32) (octet : UInt8) : UInt32 := crcBit^[8] (crc ^^^ octet.toUInt32)

/-- `zlib.crc32(data) & 0xFFFFFFFF`. -/
def crc32 (data : Bytes) : UInt32 := data.foldl crcStep 0xFFFFFFFF ^^^ 0xFFFFFFFF

-- the check values that are published with the two algorithms
example : adler32 (encodeAscii (lit "Wikipedia")) = 0x11E60398 := by decide
example : crc32 (encodeAscii (lit "123456789")) = 0xCBF43926 := by decide +kernel

end Python
