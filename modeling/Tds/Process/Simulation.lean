import Tds.Process.Proofs.Program

/-!
# One program on two machines

A machine with an invariant and a map to the states of a more abstract machine. Single operations
need not correspond: the abstract machine may answer in another way as long as the program makes the
same of it. So the correspondence is a property of programs, and it is closed under composition.
-/

namespace Process

/-- Two machines for the same operations, where the states of the first that satisfy `inv` stand for
states of the second. -/
structure Abstraction (Op : Type) (Ans : Op → Type) (σ τ : Type) where
  exec : (o : Op) → σ → Ans o × σ
  inv : σ → Prop
  abs : σ → τ
  execAbs : (o : Op) → τ → Ans o × τ

variable {Op : Type} {Ans : Op → Type} {ε α β σ τ : Type}

/-- The program does the same on both machines. -/
structure Prog.Simulates (A : Abstraction Op Ans σ τ) (x : Prog Op Ans ε α) (s : σ) : Prop where
  run_abs : x.run A.execAbs (A.abs s) = ((x.run A.exec s).1, A.abs (x.run A.exec s).2)
  inv : A.inv (x.run A.exec s).2

namespace Prog.Simulates

variable {A : Abstraction Op Ans σ τ} {s : σ}

theorem done (r : Except ε α) (hs : A.inv s) : (Prog.done r : Prog Op Ans ε α).Simulates A s :=
  ⟨rfl, hs⟩

variable {x : Prog Op Ans ε α}

theorem attempt {f : Except ε α → Prog Op Ans ε β} (hx : x.Simulates A s)
    (hf : ∀ s', A.inv s' → (f (x.run A.exec s).1).Simulates A s') :
    (x.attempt f).Simulates A s := by
  have h := hf _ hx.inv
  constructor
  · rw [run_attempt, run_attempt, hx.run_abs]
    exact h.run_abs
  · rw [run_attempt]
    exact h.inv

theorem bind {f : α → Prog Op Ans ε β} (hx : x.Simulates A s)
    (hf : ∀ a s', A.inv s' → (f a).Simulates A s') : (x >>= f).Simulates A s := by
  refine hx.attempt fun s' hs' => ?_
  cases (x.run A.exec s).1 with
  | ok a => exact hf a s' hs'
  | error e => exact .done _ hs'

theorem call {o : Op} (hans : (A.execAbs o (A.abs s)).1 = (A.exec o s).1)
    (habs : (A.execAbs o (A.abs s)).2 = A.abs (A.exec o s).2) (hinv : A.inv (A.exec o s).2) :
    (Prog.call o : Prog Op Ans ε (Ans o)).Simulates A s :=
  ⟨by rw [run_call, run_call, hans, habs], hinv⟩

theorem exists_run (hx : x.Simulates A s) :
    ∃ s', x.run A.exec s = ((x.run A.execAbs (A.abs s)).1, s') ∧
      A.abs s' = (x.run A.execAbs (A.abs s)).2 ∧ A.inv s' := by
  refine ⟨(x.run A.exec s).2, ?_, ?_, hx.inv⟩
  · rw [hx.run_abs]
  · rw [hx.run_abs]

theorem of_run {r : Except ε α} {s' : σ} (hrun : x.run A.exec s = (r, s'))
    (habs : x.run A.execAbs (A.abs s) = (r, A.abs s')) (hinv : A.inv s') : x.Simulates A s := by
  constructor
  · rw [hrun, habs]
  · rwa [hrun]

end Prog.Simulates

end Process
