import Tds.Process.Program

/-!
# Programs whose operations may be refused

A machine that may refuse an operation ends the program that asks for it. `Plays` specifies a program on
a machine that refuses nothing it is asked for. A second machine that does the same, but takes no more
than a number of operations, then finishes the program or refuses the first operation beyond that number.
-/

namespace Process

variable {Op : Type} {Ans : Op → Type} {ε ε' α β σ τ : Type}

/-- How a program ends on a machine that may refuse. -/
inductive Ending (Op ε ε' α σ : Type) where
  /-- The program has come to its end. -/
  | finished (result : Except ε α) (s : σ)
  /-- The machine has refused this operation. -/
  | refused (op : Op) (e : ε') (s : σ)

/-- Runs a program up to its end or a refusal. -/
def Prog.play (exec : (o : Op) → σ → Except ε' (Ans o × σ)) : Prog Op Ans ε α → σ → Ending Op ε ε' α σ
  | done r, s => .finished r s
  | step o k, s =>
    match exec o s with
    | .ok (a, s') => (k a).play exec s'
    | .error e => .refused o e s

/-- The operations that are carried out. -/
def Prog.requests (exec : (o : Op) → σ → Except ε' (Ans o × σ)) : Prog Op Ans ε α → σ → List Op
  | done _, _ => []
  | step o k, s =>
    match exec o s with
    | .ok (a, s') => o :: (k a).requests exec s'
    | .error _ => []

/-- The machine carries out all operations of the program; each satisfies `P`, and the end satisfies
`Q`. -/
def Prog.Plays (exec : (o : Op) → σ → Except ε' (Ans o × σ)) (P : Op → σ → Prop)
    (Q : Except ε α → σ → Prop) : Prog Op Ans ε α → σ → Prop
  | done r, s => Q r s
  | step o k, s => P o s ∧ ∃ a s', exec o s = .ok (a, s') ∧ (k a).Plays exec P Q s'

variable {Q : Except ε α → σ → Prop} {x : Prog Op Ans ε α}

namespace Prog.Plays

variable {exec : (o : Op) → σ → Except ε' (Ans o × σ)} {P : Op → σ → Prop} {s : σ}

variable {R : Except ε β → σ → Prop}

theorem attempt {f : Except ε α → Prog Op Ans ε β} (hx : x.Plays exec P Q s)
    (hf : ∀ r s', Q r s' → (f r).Plays exec P R s') : (x.attempt f).Plays exec P R s := by
  induction x generalizing s with
  | done r => exact hf r s hx
  | step o k ih =>
    obtain ⟨hP, a, s', hexec, hk⟩ := hx
    exact ⟨hP, a, s', hexec, ih a hk⟩

theorem bind {f : α → Prog Op Ans ε β} {Q : α → σ → Prop}
    (hx : x.Plays exec P (fun r s' => ∃ a, r = .ok a ∧ Q a s') s)
    (hf : ∀ a s', Q a s' → (f a).Plays exec P R s') : (x >>= f).Plays exec P R s := by
  refine hx.attempt ?_
  rintro r s' ⟨a, rfl, ha⟩
  exact hf a s' ha

theorem call_bind {o : Op} {a : Ans o} {s' : σ} {f : Ans o → Prog Op Ans ε β} (hP : P o s)
    (hexec : exec o s = .ok (a, s')) (hf : (f a).Plays exec P R s') :
    (Prog.call o >>= f).Plays exec P R s :=
  ⟨hP, a, s', hexec, hf⟩

end Prog.Plays

/-- A machine that does what another one does, up to a number of operations. -/
structure Bounded (P : Op → σ → Prop) (exec : (o : Op) → σ → Except ε' (Ans o × σ))
    (bounded : (o : Op) → τ → Except ε' (Ans o × τ)) (limit : Nat) (refusal : ε') (R : Nat → σ → τ → Prop) :
    Prop where
  step : ∀ {o a count s s' t}, R count s t → count < limit → P o s → exec o s = .ok (a, s') →
    ∃ t', bounded o t = .ok (a, t') ∧ R (count + 1) s' t'
  refuse : ∀ {o s t}, R limit s t → bounded o t = .error refusal

/-- **A bounded machine** finishes a program that fits, and refuses the first operation that does
not. -/
theorem Prog.Plays.bounded {P : Op → σ → Prop} {exec : (o : Op) → σ → Except ε' (Ans o × σ)}
    {bounded : (o : Op) → τ → Except ε' (Ans o × τ)} {limit : Nat} {refusal : ε'}
    {R : Nat → σ → τ → Prop} (hR : Bounded P exec bounded limit refusal R) {count : Nat} {s : σ}
    {t : τ} (hx : x.Plays exec P Q s) (hst : R count s t) (hcount : count ≤ limit) :
    (∃ r n s' t', x.play bounded t = .finished r t' ∧ Q r s' ∧ R n s' t' ∧ n ≤ limit) ∨
    ∃ o s' t', x.play bounded t = .refused o refusal t' ∧ P o s' ∧ R limit s' t' ∧
      limit < count + (x.requests exec s).length := by
  induction x generalizing count s t with
  | done r => exact .inl ⟨r, count, s, t, rfl, hx, hst, hcount⟩
  | step o k ih =>
    obtain ⟨hP, a, s', hexec, hk⟩ := hx
    simp only [Prog.play, Prog.requests, hexec, List.length_cons]
    rcases Nat.lt_or_eq_of_le hcount with hlt | rfl
    · obtain ⟨t', hbounded, hst'⟩ := hR.step hst hlt hP hexec
      rw [hbounded, ← Nat.add_assoc, Nat.add_right_comm]
      exact ih a hk hst' hlt
    · rw [hR.refuse hst]
      exact .inr ⟨o, s, t, rfl, hP, hst, Nat.lt_add_of_pos_right (Nat.succ_pos _)⟩

end Process
