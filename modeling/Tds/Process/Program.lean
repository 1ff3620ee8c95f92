import Mathlib.Logic.Function.Basic

/-!
# Programs that share a state

A program is a tree of operations: each operation is one atomic step on the state that all processes
share, and the program goes on with the answer. Between two steps other processes may step, and a
process may stop for good after any step.

`Runs` is a program that runs alone. `Discipline` states what processes owe each other, in the
rely/guarantee manner, and `Safe` is the proof obligation of one program under it.
-/

namespace Process

/-- A program over the operations `Op`, whose answers have the types `Ans`. It ends with a value or
with an exception. -/
inductive Prog (Op : Type) (Ans : Op → Type) (ε α : Type) where
  /-- The end of the program. -/
  | done (result : Except ε α)
  /-- One operation, and how the program continues after each answer. -/
  | step (op : Op) (next : Ans op → Prog Op Ans ε α)

namespace Prog

variable {Op : Type} {Ans : Op → Type} {ε α β : Type}

/-- Runs a program to its end, and goes on from its result, be it a value or an exception. -/
def attempt : Prog Op Ans ε α → (Except ε α → Prog Op Ans ε β) → Prog Op Ans ε β
  | done r, f => f r
  | step o k, f => step o fun a => (k a).attempt f

def bind (x : Prog Op Ans ε α) (f : α → Prog Op Ans ε β) : Prog Op Ans ε β :=
  x.attempt fun
    | .ok a => f a
    | .error e => done (.error e)

instance : Monad (Prog Op Ans ε) where
  pure a := done (.ok a)
  bind := bind

instance : MonadExcept ε (Prog Op Ans ε) where
  throw e := done (.error e)
  tryCatch x handler := x.attempt fun
    | .ok a => done (.ok a)
    | .error e => handler e

instance : MonadLift (Except ε) (Prog Op Ans ε) where
  monadLift r := done r

def call (o : Op) : Prog Op Ans ε (Ans o) := step o fun a => done (.ok a)

/-- `try: ... finally: ...`. -/
def tryFinally (x : Prog Op Ans ε α) (cleanup : Prog Op Ans ε Unit) : Prog Op Ans ε α :=
  x.attempt fun r => cleanup.bind fun _ => done r

/-- `try: ... except BaseException: ...; raise`. -/
def onError (x : Prog Op Ans ε α) (cleanup : Prog Op Ans ε Unit) : Prog Op Ans ε α :=
  x.attempt fun
    | .ok a => done (.ok a)
    | .error e => cleanup.bind fun _ => done (.error e)

/-- All operations that the program may ask for satisfy `P`. -/
def Asks (P : Op → Prop) : Prog Op Ans ε α → Prop
  | done _ => True
  | step o k => P o ∧ ∀ a, (k a).Asks P

/-- The result of a program whose operations are all answered by `view`; `none` when it asks for
something else. -/
def eval (view : (o : Op) → Option (Ans o)) : Prog Op Ans ε α → Option (Except ε α)
  | done r => some r
  | step o k =>
    match view o with
    | some a => (k a).eval view
    | none => none

end Prog

section Execution

variable {Op : Type} {Ans : Op → Type} {ε α σ : Type}

/-- The program, running alone on a machine whose operations have one outcome each. -/
def Prog.run (exec : (o : Op) → σ → Ans o × σ) : Prog Op Ans ε α → σ → Except ε α × σ
  | done r, s => (r, s)
  | step o k, s => (k (exec o s).1).run exec (exec o s).2

/-- The state in which the program, running alone, has done this many operations, or has ended before. -/
def Prog.after (exec : (o : Op) → σ → Ans o × σ) : Nat → Prog Op Ans ε α → σ → σ
  | 0, _, s => s
  | _ + 1, done _, s => s
  | n + 1, step o k, s => after exec n (k (exec o s).1) (exec o s).2

/-- The program, running alone from the first state, ends with the result in the second state. -/
inductive Runs (exec : (o : Op) → σ → Ans o → σ → Prop) :
    Prog Op Ans ε α → σ → Except ε α → σ → Prop
  | done (r : Except ε α) (s : σ) : Runs exec (.done r) s r s
  | step {o : Op} {k : Ans o → Prog Op Ans ε α} {a : Ans o} {s s' s'' : σ} {r : Except ε α}
      (h : exec o s a s') (hk : Runs exec (k a) s' r s'') : Runs exec (.step o k) s r s''

structure Discipline (Pid Op : Type) (Ans : Op → Type) (σ : Type) where
  /-- One step of a process. -/
  exec : Pid → (o : Op) → σ → Ans o → σ → Prop
  /-- The steps that are considered. -/
  allowed : σ → σ → Prop
  /-- Holds between any two steps. -/
  inv : σ → Prop
  /-- What a process may rely on while the others step. -/
  rely : Pid → σ → σ → Prop
  /-- What every step promises to everyone. -/
  guar : σ → σ → Prop
  rely_refl : ∀ p s, rely p s s
  rely_trans : ∀ p s₁ s₂ s₃, rely p s₁ s₂ → rely p s₂ s₃ → rely p s₁ s₃
  guar_refl : ∀ s, guar s s
  guar_trans : ∀ s₁ s₂ s₃, guar s₁ s₂ → guar s₂ s₃ → guar s₁ s₃

variable {Pid : Type}

/-- One step keeps the invariant, what the other processes rely on, and the promise. -/
structure Discipline.Keeps (D : Discipline Pid Op Ans σ) (p : Pid) (s s' : σ) : Prop where
  inv : D.inv s'
  rely : ∀ q, q ≠ p → D.rely q s s'
  guar : D.guar s s'

/-- However the other processes step in between, every step of the program keeps the discipline, and
its end satisfies `Q`. -/
def Safe (D : Discipline Pid Op Ans σ) (p : Pid) :
    Prog Op Ans ε α → (Except ε α → σ → Prop) → σ → Prop
  | .done r, Q, s => ∀ s', D.rely p s s' → D.inv s' → Q r s'
  | .step o k, Q, s => ∀ s', D.rely p s s' → D.inv s' → ∀ a s'', D.exec p o s' a s'' →
      D.allowed s' s'' → D.Keeps p s' s'' ∧ Safe D p (k a) Q s''

end Execution

end Process
