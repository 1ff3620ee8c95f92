import Tds.Process.Program

/-!
# Threads that share a state

Any number of threads run programs over one machine. An event starts a program on an idle thread,
lets a thread do its next operation, or takes the result of a program that has ended. A run is a list
of events, so every interleaving of the operations is one.
-/

namespace Process

open List Option

/-- The shared state, and what is left to do of the program of each thread; `none` for an idle one. -/
structure Pool (Tid Op : Type) (Ans : Op → Type) (ε α σ : Type) where
  shared : σ
  threads : Tid → Option (Prog Op Ans ε α)

inductive Event (Tid Op : Type) (Ans : Op → Type) (ε α : Type) where
  | start (t : Tid) (program : Prog Op Ans ε α)
  | step (t : Tid)
  | finish (t : Tid)

def Event.thread {Tid Op : Type} {Ans : Op → Type} {ε α : Type} : Event Tid Op Ans ε α → Tid
  | start t _ => t
  | step t => t
  | finish t => t

namespace Pool

variable {Tid Op : Type} {Ans : Op → Type} {ε α σ : Type} [DecidableEq Tid]
  (exec : (o : Op) → σ → Ans o × σ)

/-- The state after an event; `none` when it cannot happen. -/
def next (s : Pool Tid Op Ans ε α σ) : Event Tid Op Ans ε α → Option (Pool Tid Op Ans ε α σ)
  | .start t program =>
    match s.threads t with
    | none => some ⟨s.shared, Function.update s.threads t (some program)⟩
    | some _ => none
  | .step t =>
    match s.threads t with
    | some (.step o k) =>
      some ⟨(exec o s.shared).2, Function.update s.threads t (some (k (exec o s.shared).1))⟩
    | _ => none
  | .finish t =>
    match s.threads t with
    | some (.done _) => some ⟨s.shared, Function.update s.threads t none⟩
    | _ => none

/-- The state after a run; `none` when one of the events cannot happen. -/
def run (s : Pool Tid Op Ans ε α σ) :
    List (Event Tid Op Ans ε α) → Option (Pool Tid Op Ans ε α σ)
  | [] => some s
  | event :: events =>
    match s.next exec event with
    | some s' => s'.run events
    | none => none

/-- Every event of a run meets a condition on the state in which it happens. -/
def Along (P : Pool Tid Op Ans ε α σ → Event Tid Op Ans ε α → Prop) :
    Pool Tid Op Ans ε α σ → List (Event Tid Op Ans ε α) → Prop
  | _, [] => True
  | s, event :: events => P s event ∧ ∀ s', s.next exec event = some s' → Along P s' events

def Quiescent (s : Pool Tid Op Ans ε α σ) : Prop := ∀ t, s.threads t = none

variable {exec} {s s' : Pool Tid Op Ans ε α σ}

variable {events : List (Event Tid Op Ans ε α)} {event : Event Tid Op Ans ε α} {t : Tid}

theorem next_cases (h : s.next exec event = some s') :
    (∃ t program, event = .start t program ∧ s.threads t = none ∧
      s' = ⟨s.shared, Function.update s.threads t (some program)⟩) ∨
    (∃ t o k, event = .step t ∧ s.threads t = some (.step o k) ∧
      s' = ⟨(exec o s.shared).2, Function.update s.threads t (some (k (exec o s.shared).1))⟩) ∨
    ∃ t r, event = .finish t ∧ s.threads t = some (.done r) ∧
      s' = ⟨s.shared, Function.update s.threads t none⟩ := by
  cases event with
  | start t program =>
    rw [next] at h
    split at h
    · next ht => exact .inl ⟨t, program, rfl, ht, (some.inj h).symm⟩
    · cases h
  | step t =>
    rw [next] at h
    split at h
    · next o k ht => exact .inr (.inl ⟨t, o, k, rfl, ht, (some.inj h).symm⟩)
    · cases h
  | finish t =>
    rw [next] at h
    split at h
    · next r ht => exact .inr (.inr ⟨t, r, rfl, ht, (some.inj h).symm⟩)
    · cases h

variable {P : Pool Tid Op Ans ε α σ → Event Tid Op Ans ε α → Prop}

theorem along_cons
    (h : s.next exec event = some s') (hP : P s event) (halong : s'.Along exec P events) :
    s.Along exec P (event :: events) := by
  refine ⟨hP, fun s₁ h₁ => ?_⟩
  rwa [← some.inj (h.symm.trans h₁)]

theorem next_start (h : s.threads t = none) (program : Prog Op Ans ε α) :
    s.next exec (.start t program) =
      some ⟨s.shared, Function.update s.threads t (some program)⟩ := by
  rw [next, h]

theorem next_step {o : Op} {k : Ans o → Prog Op Ans ε α} (h : s.threads t = some (.step o k)) :
    s.next exec (.step t) =
      some ⟨(exec o s.shared).2, Function.update s.threads t (some (k (exec o s.shared).1))⟩ := by
  rw [next, h]

theorem next_finish {r : Except ε α} (h : s.threads t = some (.done r)) :
    s.next exec (.finish t) = some ⟨s.shared, Function.update s.threads t none⟩ := by
  rw [next, h]

theorem invariant_of_run {Inv : Pool Tid Op Ans ε α σ → Prop}
    (hstep : ∀ s, ∀ event ∈ events, ∀ s', Inv s → s.next exec event = some s' → Inv s') (hs : Inv s)
    (hrun : s.run exec events = some s') : Inv s' := by
  induction events generalizing s with
  | nil =>
    cases hrun
    exact hs
  | cons event events ih =>
    rw [run] at hrun
    split at hrun
    · next s₁ h₁ =>
      exact ih (fun s e he => hstep s e (mem_cons_of_mem _ he))
        (hstep s event mem_cons_self s₁ hs h₁) hrun
    · cases hrun

/-- A thread that no event of a run names is left as it was. -/
theorem threads_eq_of_run (h : ∀ event ∈ events, event.thread ≠ t)
    (hrun : s.run exec events = some s') : s'.threads t = s.threads t := by
  have hstep : ∀ s₁ : Pool Tid Op Ans ε α σ, ∀ event ∈ events, ∀ s₂ : Pool Tid Op Ans ε α σ,
      s₁.threads t = s.threads t → s₁.next exec event = some s₂ → s₂.threads t = s.threads t := by
    intro s₁ event hevent s₂ hs hnext
    have ht := h event hevent
    rcases next_cases hnext with ⟨_, _, rfl, -, rfl⟩ | ⟨_, _, _, rfl, -, rfl⟩ | ⟨_, _, rfl, -, rfl⟩ <;>
      exact (Function.update_of_ne ht.symm ..).trans hs
  exact invariant_of_run hstep rfl hrun

/-- Where the condition `P` on an event says exactly that the property `Q` survives it, `P` holds
along a run if and only if `Q` holds in all its states. -/
theorem along_iff_forall_take
    {Inv Q : Pool Tid Op Ans ε α σ → Prop}
    (hinv : ∀ s, ∀ event ∈ events, ∀ s', Inv s → s.next exec event = some s' → Inv s')
    (hstep : ∀ s event s', Inv s → Q s → s.next exec event = some s' → (Q s' ↔ P s event))
    (hs : Inv s) (hQ : Q s) (hrun : s.run exec events = some s') :
    (∀ n s₁, s.run exec (events.take n) = some s₁ → Q s₁) ↔ s.Along exec P events := by
  induction events generalizing s with
  | nil =>
    refine iff_of_true (fun n s₁ h => ?_) trivial
    rw [take_nil] at h
    cases h
    exact hQ
  | cons event events ih =>
    rw [run] at hrun
    split at hrun
    case h_2 => cases hrun
    next s₁ h₁ =>
    have hiff := hstep s event s₁ hs hQ h₁
    have hs₁ := hinv s event mem_cons_self s₁ hs h₁
    have ih' := fun hQ₁ => ih (fun s e he => hinv s e (mem_cons_of_mem _ he)) hs₁ hQ₁ hrun
    have hcons : ∀ n, s.run exec ((event :: events).take (n + 1)) = s₁.run exec (events.take n) := by
      intro n
      rw [take_succ_cons, run, h₁]
    constructor
    · intro h
      have hQ₁ := h 1 s₁ (hcons 0)
      refine ⟨hiff.mp hQ₁, fun s₂ h₂ => ?_⟩
      obtain rfl := some.inj (h₁.symm.trans h₂)
      exact (ih' hQ₁).mp fun n s₂ h₂ => h (n + 1) s₂ ((hcons n).trans h₂)
    · intro h n s₂ h₂
      have hQ₁ := hiff.mpr h.1
      cases n with
      | zero =>
        cases h₂
        exact hQ
      | succ n => exact (ih' hQ₁).mpr (h.2 s₁ h₁) n s₂ ((hcons n).symm.trans h₂)

/-- What an event preserves in states that satisfy a condition holds along every run through such
states. -/
theorem forall_take_of_step {P Q : Pool Tid Op Ans ε α σ → Prop}
    (hstep : ∀ s, ∀ event ∈ events, ∀ s', P s → Q s → s.next exec event = some s' → Q s') (hQ : Q s)
    (hP : ∀ n s₁, s.run exec (events.take n) = some s₁ → P s₁) {n : Nat}
    {s₁ : Pool Tid Op Ans ε α σ} (hrun : s.run exec (events.take n) = some s₁) : Q s₁ := by
  induction events generalizing s n with
  | nil =>
    rw [take_nil] at hrun
    cases hrun
    exact hQ
  | cons event events ih =>
    cases n with
    | zero =>
      cases hrun
      exact hQ
    | succ n =>
      rw [take_succ_cons, run] at hrun
      split at hrun
      · next s₂ h₂ =>
        refine ih (fun s e he => hstep s e (mem_cons_of_mem _ he))
          (hstep s event mem_cons_self s₂ (hP 0 s rfl) hQ h₂) (fun k s₃ h₃ => ?_) hrun
        refine hP (k + 1) s₃ ?_
        rw [take_succ_cons, run, h₂]
        exact h₃
      · cases hrun

theorem run_append (events rest : List (Event Tid Op Ans ε α)) :
    s.run exec (events ++ rest) = (s.run exec events).bind fun s' => s'.run exec rest := by
  induction events generalizing s with
  | nil => rfl
  | cons event events ih =>
    rw [cons_append, run, run]
    cases s.next exec event with
    | none => rfl
    | some s' => exact ih

end Pool

end Process
