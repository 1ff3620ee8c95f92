import Tds.Python.Sha256

/-!
# SHA-256 with words computed at once

The same hash, in a form that the kernel evaluates with little memory: every word is computed before it
is used, and the window on the schedule and the working variables are arguments.
-/

namespace Python.Sha256

/-- The continuation gets the number itself, not the term that it is computed by. -/
def force {α : Type} (n : Nat) (k : Nat → α) : α := Nat.rec (k 0) (fun m _ => k (m + 1)) n

theorem force_eq {α : Type} (n : Nat) (k : Nat → α) : force n k = k n := by cases n <;> rfl

def rotateTo (n m x : Nat) : Nat := Nat.lor (Nat.shiftRight x n) (Nat.mod (Nat.shiftLeft x m) 4294967296)

/-- The next word of the schedule. -/
def followingWord (w0 w1 w9 w14 : Nat) : Nat :=
  Nat.mod (Nat.add
    (Nat.add w0 (Nat.xor (Nat.xor (rotateTo 7 25 w1) (rotateTo 18 14 w1)) (Nat.shiftRight w1 3)))
    (Nat.add w9 (Nat.xor (Nat.xor (rotateTo 17 15 w14) (rotateTo 19 13 w14)) (Nat.shiftRight w14 10))))
    4294967296

def firstSum (k w e f g h : Nat) : Nat :=
  Nat.add (Nat.add h (Nat.xor (Nat.xor (rotateTo 6 26 e) (rotateTo 11 21 e)) (rotateTo 25 7 e)))
    (Nat.add (Nat.xor (Nat.land e f) (Nat.land (Nat.sub 4294967295 e) g)) (Nat.add k w))

def secondSum (t a b c : Nat) : Nat :=
  Nat.mod (Nat.add t (Nat.add
    (Nat.xor (Nat.xor (rotateTo 2 30 a) (rotateTo 13 19 a)) (rotateTo 22 10 a))
    (Nat.xor (Nat.xor (Nat.land a b) (Nat.land a c)) (Nat.land b c)))) 4294967296

def strictRounds : List Nat → (w0 w1 w2 w3 w4 w5 w6 w7 w8 w9 w10 w11 w12 w13 w14 w15 : Nat) →
    (a b c d e f g h : Nat) → Working
  | [], _, _, _, _, _, _, _, _, _, _, _, _, _, _, _, _, a, b, c, d, e, f, g, h => ⟨a, b, c, d, e, f, g, h⟩
  | k :: ks, w0, w1, w2, w3, w4, w5, w6, w7, w8, w9, w10, w11, w12, w13, w14, w15, a, b, c, d, e, f, g, h =>
    force (followingWord w0 w1 w9 w14) fun w16 =>
    force (firstSum k w0 e f g h) fun t =>
    force (secondSum t a b c) fun x =>
    force (Nat.mod (Nat.add d t) 4294967296) fun y =>
    strictRounds ks w1 w2 w3 w4 w5 w6 w7 w8 w9 w10 w11 w12 w13 w14 w15 w16 x a b c y e f g

theorem strictRounds_eq (ks : List Nat) (w0 w1 w2 w3 w4 w5 w6 w7 w8 w9 w10 w11 w12 w13 w14 w15 : Nat)
    (a b c d e f g h : Nat) :
    strictRounds ks w0 w1 w2 w3 w4 w5 w6 w7 w8 w9 w10 w11 w12 w13 w14 w15 a b c d e f g h =
      rounds ks [w0, w1, w2, w3, w4, w5, w6, w7, w8, w9, w10, w11, w12, w13, w14, w15]
        ⟨a, b, c, d, e, f, g, h⟩ := by
  induction ks generalizing w0 w1 w2 w3 w4 w5 w6 w7 w8 w9 w10 w11 w12 w13 w14 w15 a b c d e f g h with
  | nil => rfl
  | cons k ks ih =>
    rw [strictRounds, force_eq, force_eq, force_eq, force_eq, ih]
    rfl

def strictCompress (s : Working) : List Nat → Working
  | [w0, w1, w2, w3, w4, w5, w6, w7, w8, w9, w10, w11, w12, w13, w14, w15] =>
    match s with
    | ⟨a, b, c, d, e, f, g, h⟩ =>
      match strictRounds roundConstants w0 w1 w2 w3 w4 w5 w6 w7 w8 w9 w10 w11 w12 w13 w14 w15
        a b c d e f g h with
      | ⟨a', b', c', d', e', f', g', h'⟩ =>
        ⟨addWord a a', addWord b b', addWord c c', addWord d d', addWord e e', addWord f f',
          addWord g g', addWord h h'⟩
  | block => compress s block

theorem strictCompress_eq (s : Working) (block : List Nat) : strictCompress s block = compress s block := by
  obtain ⟨a, b, c, d, e, f, g, h⟩ := s
  unfold strictCompress
  split
  · rw [compress]
    simp only [strictRounds_eq]
  · rfl

def strictBlocks : Nat → List Nat → Working → Working
  | 0, _, s => s
  | n + 1, ws, s => strictBlocks n (ws.drop 16) (strictCompress s (ws.take 16))

theorem strictBlocks_eq (n : Nat) (ws : List Nat) (s : Working) : strictBlocks n ws s = blocks n ws s := by
  induction n generalizing ws s with
  | zero => rfl
  | succ n ih => rw [strictBlocks, blocks, strictCompress_eq, ih]

def strictSha256 (message : Bytes) : Digest :=
  let padded := pad (message.map UInt8.toNat)
  digestOf (strictBlocks (padded.length / 64) (wordsOfBytes padded) initial)

theorem strictSha256_eq : strictSha256 = sha256 := by
  funext message
  rw [strictSha256, strictBlocks_eq, sha256]

end Python.Sha256
