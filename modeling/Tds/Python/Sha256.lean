import Tds.Python.Text

/-!
# SHA-256

The hash of FIPS 180-4 on natural numbers below `2 ^ 32`. The word operations are written with the
`Nat` functions the kernel evaluates natively, so that a digest can be computed inside a proof.
-/

namespace Python.Sha256

def wordSize : Nat := 4294967296

/-- Addition modulo 2³². -/
def addWord (x y : Nat) : Nat := Nat.mod (Nat.add x y) wordSize

/-- Rotation of a word to the right by `n` bits. -/
def rotateRight (n x : Nat) : Nat :=
  Nat.lor (Nat.shiftRight x n) (Nat.mod (Nat.shiftLeft x (Nat.sub 32 n)) wordSize)

def xor3 (x y z : Nat) : Nat := Nat.xor (Nat.xor x y) z

def roundConstants : List Nat := [
  0x428a2f98, 0x71374491, 0xb5c0fbcf, 0xe9b5dba5, 0x3956c25b, 0x59f111f1, 0x923f82a4, 0xab1c5ed5,
  0xd807aa98, 0x12835b01, 0x243185be, 0x550c7dc3, 0x72be5d74, 0x80deb1fe, 0x9bdc06a7, 0xc19bf174,
  0xe49b69c1, 0xefbe4786, 0x0fc19dc6, 0x240ca1cc, 0x2de92c6f, 0x4a7484aa, 0x5cb0a9dc, 0x76f988da,
  0x983e5152, 0xa831c66d, 0xb00327c8, 0xbf597fc7, 0xc6e00bf3, 0xd5a79147, 0x06ca6351, 0x14292967,
  0x27b70a85, 0x2e1b2138, 0x4d2c6dfc, 0x53380d13, 0x650a7354, 0x766a0abb, 0x81c2c92e, 0x92722c85,
  0xa2bfe8a1, 0xa81a664b, 0xc24b8b70, 0xc76c51a3, 0xd192e819, 0xd6990624, 0xf40e3585, 0x106aa070,
  0x19a4c116, 0x1e376c08, 0x2748774c, 0x34b0bcb5, 0x391c0cb3, 0x4ed8aa4a, 0x5b9cca4f, 0x682e6ff3,
  0x748f82ee, 0x78a5636f, 0x84c87814, 0x8cc70208, 0x90befffa, 0xa4506ceb, 0xbef9a3f7, 0xc67178f2]

structure Working where
  /-- The variables `a` to `h` of the standard. -/
  a : Nat
  b : Nat
  c : Nat
  d : Nat
  e : Nat
  f : Nat
  g : Nat
  h : Nat

def initial : Working :=
  ⟨0x6a09e667, 0xbb67ae85, 0x3c6ef372, 0xa54ff53a, 0x510e527f, 0x9b05688c, 0x1f83d9ab, 0x5be0cd19⟩

/-- One round, for the sum `kw` of the round constant and the schedule word. -/
def round (kw : Nat) : Working → Working
  | ⟨a, b, c, d, e, f, g, h⟩ =>
    let choose := Nat.xor (Nat.land e f) (Nat.land (Nat.sub 4294967295 e) g)
    let majority := xor3 (Nat.land a b) (Nat.land a c) (Nat.land b c)
    let t1 := Nat.add (Nat.add h (xor3 (rotateRight 6 e) (rotateRight 11 e) (rotateRight 25 e)))
      (Nat.add choose kw)
    let t2 := Nat.add (xor3 (rotateRight 2 a) (rotateRight 13 a) (rotateRight 22 a)) majority
    ⟨addWord t1 t2, a, b, c, addWord d t1, e, f, g⟩

/-- The next word of the message schedule, from the last sixteen ones. -/
def nextWord (w : List Nat) : Nat :=
  let w1 := w.getD 1 0
  let w14 := w.getD 14 0
  let s0 := xor3 (rotateRight 7 w1) (rotateRight 18 w1) (Nat.shiftRight w1 3)
  let s1 := xor3 (rotateRight 17 w14) (rotateRight 19 w14) (Nat.shiftRight w14 10)
  addWord (Nat.add (w.getD 0 0) s0) (Nat.add (w.getD 9 0) s1)

/-- The rounds for the remaining round constants, with a sliding window on the schedule. -/
def rounds : List Nat → List Nat → Working → Working
  | [], _, s => s
  | k :: ks, w, s => rounds ks (w.tail ++ [nextWord w]) (round (Nat.add k (w.headD 0)) s)

def compress (s : Working) (block : List Nat) : Working :=
  match s, rounds roundConstants block s with
  | ⟨a, b, c, d, e, f, g, h⟩, ⟨a', b', c', d', e', f', g', h'⟩ =>
    ⟨addWord a a', addWord b b', addWord c c', addWord d d', addWord e e', addWord f f',
      addWord g g', addWord h h'⟩

/-- Words from octets, the high one first. -/
def wordsOfBytes : List Nat → List Nat
  | b0 :: b1 :: b2 :: b3 :: t => (((b0 * 256 + b1) * 256 + b2) * 256 + b3) :: wordsOfBytes t
  | _ => []

def bytesOfWord (w : Nat) : Bytes :=
  [UInt8.ofNat (w / 16777216), UInt8.ofNat (w / 65536), UInt8.ofNat (w / 256), UInt8.ofNat w]

def pad (message : List Nat) : List Nat :=
  let n := message.length
  message ++ 0x80 :: List.replicate ((119 - n % 64) % 64) 0
    ++ (List.range 8).map fun i => 8 * n / 256 ^ (7 - i) % 256

/-- Compression of the first `n` blocks of the schedule `ws`. -/
def blocks : Nat → List Nat → Working → Working
  | 0, _, s => s
  | n + 1, ws, s => blocks n (ws.drop 16) (compress s (ws.take 16))

def digestOf (s : Working) : Digest :=
  ⟨bytesOfWord s.a ++ bytesOfWord s.b ++ bytesOfWord s.c ++ bytesOfWord s.d ++ bytesOfWord s.e
    ++ bytesOfWord s.f ++ bytesOfWord s.g ++ bytesOfWord s.h, rfl⟩

/-- `hashlib.sha256(message).digest()`. -/
def sha256 (message : Bytes) : Digest :=
  let padded := pad (message.map UInt8.toNat)
  digestOf (blocks (padded.length / 64) (wordsOfBytes padded) initial)

set_option maxRecDepth 4000 in
/-- The one-block test vector of the standard, for the message `abc`. -/
example : (sha256 [97, 98, 99]).bytes.take 4 = [0xba, 0x78, 0x16, 0xbf] := by decide +kernel

end Python.Sha256
