import Tds.Process.Program
import Tds.Python.Raise

/-!
# Rules for programs

The rules of `Prog.eval`, `Runs` and `Safe` follow the constructors of a program. All of sequencing,
handlers and `finally` are instances of `attempt`, so each judgement has one composition rule.
-/

namespace Process

open Python

variable {Op : Type} {Ans : Op → Type} {ε α β σ Pid : Type}

/-! ## Composition -/

@[simp] theorem Prog.liftM_ok_bind (a : α) (f : α → Prog Op Ans ε β) :
    ((liftM (Except.ok a : Except ε α) : Prog Op Ans ε α) >>= f) = f a := rfl

@[simp] theorem Prog.liftM_error_bind (e : ε) (f : α → Prog Op Ans ε β) :
    ((liftM (Except.error e : Except ε α) : Prog Op Ans ε α) >>= f) = .done (.error e) := rfl

@[simp] theorem Prog.pure_bind (a : α) (f : α → Prog Op Ans ε β) :
    ((pure a : Prog Op Ans ε α) >>= f) = f a := rfl

/-! ## Programs that only ask some operations -/

variable {x : Prog Op Ans ε α} {f : α → Prog Op Ans ε β} {r : Except ε α} {s' : σ} {a : α} {o : Op}
  {e : ε}

section Asks

variable {P : Op → Prop}

theorem Prog.Asks.attempt {f : Except ε α → Prog Op Ans ε β} (hx : x.Asks P)
    (hf : ∀ r, (f r).Asks P) : (x.attempt f).Asks P := by
  induction x with
  | done r => exact hf r
  | step o k ih => exact ⟨hx.1, fun a => ih a (hx.2 a)⟩

theorem Prog.Asks.bind (hx : x.Asks P) (hf : ∀ a, (f a).Asks P) : (x >>= f).Asks P :=
  hx.attempt fun
    | .ok a => hf a
    | .error _ => trivial

theorem Prog.Asks.call (h : P o) : (Prog.call o : Prog Op Ans ε (Ans o)).Asks P :=
  ⟨h, fun _ => trivial⟩

end Asks

section Eval

variable (view : (o : Op) → Option (Ans o))

theorem Prog.eval_attempt (x : Prog Op Ans ε α) (f : Except ε α → Prog Op Ans ε β) :
    (x.attempt f).eval view = (x.eval view).bind fun r => (f r).eval view := by
  induction x with
  | done r => rfl
  | step o k ih =>
    simp only [attempt, eval]
    cases view o with
    | none => rfl
    | some a => exact ih a

theorem Prog.eval_bind (x : Prog Op Ans ε α) (f : α → Prog Op Ans ε β) :
    (x >>= f).eval view = (x.eval view).bind fun
      | .ok a => (f a).eval view
      | .error e => some (.error e) := by
  show (x.attempt _).eval view = _
  rw [eval_attempt]
  congr 1
  funext r
  cases r <;> rfl

theorem Prog.eval_bind_ok (h : x.eval view = some (.ok a)) (f : α → Prog Op Ans ε β) :
    (x >>= f).eval view = (f a).eval view := by
  rw [eval_bind, h]
  rfl

theorem Prog.eval_bind_error (h : x.eval view = some (.error e)) (f : α → Prog Op Ans ε β) :
    (x >>= f).eval view = some (.error e) := by
  rw [eval_bind, h]
  rfl

theorem Prog.eval_bind_eq_ok {b : β} :
    (x >>= f).eval view = some (.ok b) ↔
      ∃ a, x.eval view = some (.ok a) ∧ (f a).eval view = some (.ok b) := by
  rw [eval_bind]
  cases x.eval view with
  | none => simp
  | some r =>
    cases r with
    | ok a => simp
    | error e => simp

@[simp] theorem Prog.eval_liftM (r : Except ε α) :
    (liftM r : Prog Op Ans ε α).eval view = some r := rfl

@[simp] theorem Prog.eval_pure (a : α) : (pure a : Prog Op Ans ε α).eval view = some (.ok a) := rfl
@[simp] theorem Prog.eval_done (r : Except ε α) :
    (Prog.done r : Prog Op Ans ε α).eval view = some r := rfl

theorem Prog.eval_call {a : Ans o} (h : view o = some a) :
    (Prog.call o : Prog Op Ans ε (Ans o)).eval view = some (.ok a) := by
  simp only [call, eval, h]

end Eval

section Run

variable (exec : (o : Op) → σ → Ans o × σ)

@[simp] theorem Prog.run_pure (a : α) (s : σ) :
    (pure a : Prog Op Ans ε α).run exec s = (.ok a, s) := rfl
@[simp] theorem Prog.run_liftM (r : Except ε α) (s : σ) :
    (liftM r : Prog Op Ans ε α).run exec s = (r, s) := rfl

@[simp] theorem Prog.run_call (o : Op) (s : σ) :
    (Prog.call o : Prog Op Ans ε (Ans o)).run exec s = (.ok (exec o s).1, (exec o s).2) := rfl

theorem Prog.run_attempt (x : Prog Op Ans ε α) (f : Except ε α → Prog Op Ans ε β) (s : σ) :
    (x.attempt f).run exec s = (f (x.run exec s).1).run exec (x.run exec s).2 := by
  induction x generalizing s with
  | done r => rfl
  | step o k ih => exact ih _ _

theorem Prog.run_bind (x : Prog Op Ans ε α) (f : α → Prog Op Ans ε β) (s : σ) :
    (x >>= f).run exec s =
      match x.run exec s with
      | (.ok a, s') => (f a).run exec s'
      | (.error e, s') => (.error e, s') := by
  show (x.attempt _).run exec s = _
  rw [run_attempt]
  obtain ⟨r, s'⟩ := x.run exec s
  cases r <;> rfl

theorem Prog.run_bind_ok {s : σ} (h : x.run exec s = (.ok a, s')) (f : α → Prog Op Ans ε β) :
    (x >>= f).run exec s = (f a).run exec s' := by
  show (x.attempt _).run exec s = _
  rw [run_attempt, h]

theorem Prog.run_bind_error {s : σ} (h : x.run exec s = (.error e, s')) (f : α → Prog Op Ans ε β) :
    (x >>= f).run exec s = (.error e, s') := by
  show (x.attempt _).run exec s = _
  rw [run_attempt, h]
  rfl

theorem Prog.run_bind_eq_ok {b : β} {s : σ} :
    (x >>= f).run exec s = (.ok b, s') ↔
      ∃ a s₁, x.run exec s = (.ok a, s₁) ∧ (f a).run exec s₁ = (.ok b, s') := by
  rw [run_bind]
  obtain ⟨r, s₁⟩ := x.run exec s
  cases r with
  | ok a =>
    constructor
    · exact fun h => ⟨a, s₁, rfl, h⟩
    · rintro ⟨_, _, heq, h⟩
      cases heq
      exact h
  | error e => simp

theorem Prog.run_bind_pure (x : Prog Op Ans ε α) (f : α → β) (s : σ) :
    (x >>= fun a => pure (f a)).run exec s = ((x.run exec s).1.map f, (x.run exec s).2) := by
  show (x.attempt _).run exec s = _
  rw [run_attempt]
  cases (x.run exec s).1 <;> rfl

theorem Prog.run_of_asks {P : Op → Prop} {R : σ → σ → Prop} (hrefl : ∀ s, R s s)
    (htrans : ∀ s₁ s₂ s₃, R s₁ s₂ → R s₂ s₃ → R s₁ s₃) (hP : ∀ o, P o → ∀ s, R s (exec o s).2)
    (hx : x.Asks P) (s : σ) : R s (x.run exec s).2 := by
  induction x generalizing s with
  | done r => exact hrefl s
  | step o k ih => exact htrans _ _ _ (hP o hx.1 s) (ih _ (hx.2 _) _)

end Run

section Runs

variable {exec : (o : Op) → σ → Ans o → σ → Prop}

variable {s'' : σ}

theorem Runs.attempt {f : Except ε α → Prog Op Ans ε β} {s : σ} {r' : Except ε β}
    (hx : Runs exec x s r s') (hf : Runs exec (f r) s' r' s'') :
    Runs exec (x.attempt f) s r' s'' := by
  induction hx with
  | done r s => exact hf
  | step h _ ih => exact .step h (ih hf)

theorem Runs.attempt_inv {f : Except ε α → Prog Op Ans ε β} {s : σ} {r' : Except ε β}
    (h : Runs exec (x.attempt f) s r' s'') :
    ∃ r s', Runs exec x s r s' ∧ Runs exec (f r) s' r' s'' := by
  induction x generalizing s with
  | done r => exact ⟨r, s, .done r s, h⟩
  | step o k ih =>
    cases h with
    | step ho hk =>
      obtain ⟨r, s', hx, hf⟩ := ih _ hk
      exact ⟨r, s', .step ho hx, hf⟩

variable {s : σ}

theorem Runs.bind_ok {r : Except ε β} (hx : Runs exec x s (.ok a) s')
    (hf : Runs exec (f a) s' r s'') : Runs exec (x >>= f) s r s'' :=
  hx.attempt hf

theorem Runs.bind_inv {r : Except ε β} (h : Runs exec (x >>= f) s r s'') :
    (∃ a s', Runs exec x s (.ok a) s' ∧ Runs exec (f a) s' r s'') ∨
      ∃ e, Runs exec x s (.error e) s'' ∧ r = .error e := by
  obtain ⟨r', s', hx, hf⟩ := Runs.attempt_inv h
  cases r' with
  | ok a => exact .inl ⟨a, s', hx, hf⟩
  | error e =>
    cases hf
    exact .inr ⟨e, hx, rfl⟩

theorem Runs.bind_iff {s s₁ : σ} (h : ∀ r s', Runs exec x s r s' ↔ r = .ok a ∧ s' = s₁)
    (r : Except ε β) (s' : σ) : Runs exec (x >>= f) s r s' ↔ Runs exec (f a) s₁ r s' := by
  constructor
  · intro hruns
    rcases hruns.bind_inv with ⟨a', s₂, hx, hf⟩ | ⟨e, hx, -⟩
    · obtain ⟨ha, rfl⟩ := (h _ _).mp hx
      cases ha
      exact hf
    · cases ((h _ _).mp hx).1
  · intro hf
    exact ((h _ _).mpr ⟨rfl, rfl⟩).bind_ok hf

theorem Runs.bind_iff_error {s s₁ : σ} (h : ∀ r s', Runs exec x s r s' ↔ r = .error e ∧ s' = s₁)
    (r : Except ε β) (s' : σ) : Runs exec (x >>= f) s r s' ↔ r = .error e ∧ s' = s₁ := by
  constructor
  · intro hruns
    rcases hruns.bind_inv with ⟨a, s₂, hx, -⟩ | ⟨e', hx, rfl⟩
    · cases ((h _ _).mp hx).1
    · obtain ⟨he, rfl⟩ := (h _ _).mp hx
      cases he
      exact ⟨rfl, rfl⟩
  · rintro ⟨rfl, rfl⟩
    exact ((h _ _).mpr ⟨rfl, rfl⟩).attempt (.done _ _)

theorem Runs.call {a : Ans o} (h : exec o s a s') :
    Runs exec (Prog.call o : Prog Op Ans ε (Ans o)) s (.ok a) s' :=
  .step h (.done _ _)

theorem Runs.call_inv {r : Except ε (Ans o)}
    (h : Runs exec (Prog.call o : Prog Op Ans ε (Ans o)) s r s') :
    ∃ a, r = .ok a ∧ exec o s a s' := by
  cases h with
  | step ho hk =>
    cases hk
    exact ⟨_, rfl, ho⟩

theorem Runs.of_asks {P : Op → Prop} {R : σ → σ → Prop} (hrefl : ∀ s, R s s)
    (htrans : ∀ s₁ s₂ s₃, R s₁ s₂ → R s₂ s₃ → R s₁ s₃)
    (hP : ∀ o, P o → ∀ s a s', exec o s a s' → R s s') (hx : x.Asks P) {s : σ}
    (h : Runs exec x s r s') : R s s' := by
  induction h with
  | done r s => exact hrefl s
  | step ho _ ih => exact htrans _ _ _ (hP _ hx.1 _ _ _ ho) (ih (hx.2 _))

/-- A view that tells what the operations answer in `s`, none of which changes the state. -/
def Shows (exec : (o : Op) → σ → Ans o → σ → Prop) (view : (o : Op) → Option (Ans o)) (s : σ) :
    Prop :=
  ∀ o a, view o = some a → ∀ a' s', exec o s a' s' ↔ a' = a ∧ s' = s

theorem Runs.iff_of_eval {view : (o : Op) → Option (Ans o)} {s : σ} (hv : Shows exec view s)
    (hx : x.eval view = some r) (r' : Except ε α) (s' : σ) :
    Runs exec x s r' s' ↔ r' = r ∧ s' = s := by
  induction x with
  | done r₀ =>
    obtain rfl : r₀ = r := by simpa using hx
    constructor
    · intro h
      cases h
      exact ⟨rfl, rfl⟩
    · rintro ⟨rfl, rfl⟩
      exact .done _ _
  | step o k ih =>
    rw [Prog.eval] at hx
    split at hx
    · rename_i a ha
      constructor
      · intro h
        cases h with
        | step ho hk =>
          obtain ⟨rfl, rfl⟩ := (hv o a ha _ _).mp ho
          exact (ih _ hx).mp hk
      · intro h
        exact .step ((hv o a ha _ _).mpr ⟨rfl, rfl⟩) ((ih _ hx).mpr h)
    · cases hx

end Runs

section Safe

variable {D : Discipline Pid Op Ans σ} {p : Pid} {s : σ}

variable {Q R : Except ε α → σ → Prop}

theorem Safe.of_forall (h : ∀ s', D.rely p s s' → D.inv s' → Safe D p x Q s') : Safe D p x Q s := by
  cases x with
  | done r => exact fun s' hr hi => h s' hr hi s' (D.rely_refl p s') hi
  | step o k => exact fun s' hr hi => h s' hr hi s' (D.rely_refl p s') hi

theorem Safe.rely (h : Safe D p x Q s) (hr : D.rely p s s') : Safe D p x Q s' := by
  cases x with
  | done r => exact fun s'' hr' => h s'' (D.rely_trans p _ _ _ hr hr')
  | step o k => exact fun s'' hr' => h s'' (D.rely_trans p _ _ _ hr hr')

theorem Safe.mono {Q' : Except ε α → σ → Prop} (h : Safe D p x Q s)
    (hQ : ∀ r s', D.inv s' → Q r s' → Q' r s') : Safe D p x Q' s := by
  induction x generalizing s with
  | done r => exact fun s' hr hi => hQ r s' hi (h s' hr hi)
  | step o k ih =>
    intro s' hr hi a s'' he hal
    obtain ⟨hkeep, hk⟩ := h s' hr hi a s'' he hal
    exact ⟨hkeep, ih a hk⟩

theorem Safe.attempt {f : Except ε α → Prog Op Ans ε β} {Q : Except ε β → σ → Prop}
    (h : Safe D p x (fun r s' => Safe D p (f r) Q s') s) : Safe D p (x.attempt f) Q s := by
  induction x generalizing s with
  | done r => exact .of_forall h
  | step o k ih =>
    intro s' hr hi a s'' he hal
    obtain ⟨hkeep, hk⟩ := h s' hr hi a s'' he hal
    exact ⟨hkeep, ih a hk⟩

/-- Sequential composition, by a condition `R` that holds between the two parts. -/
theorem Safe.bind {Q : Except ε β → σ → Prop} (h : Safe D p x R s)
    (hok : ∀ a s', D.inv s' → R (.ok a) s' → Safe D p (f a) Q s')
    (herror : ∀ e s', D.inv s' → R (.error e) s' → Q (.error e) s') : Safe D p (x >>= f) Q s := by
  induction x generalizing s with
  | done r =>
    cases r with
    | ok a => exact .of_forall fun s' hr hi => hok a s' hi (h s' hr hi)
    | error e => exact fun s' hr hi => herror e s' hi (h s' hr hi)
  | step o k ih =>
    intro s' hr hi a s'' he hal
    obtain ⟨hkeep, hk⟩ := h s' hr hi a s'' he hal
    exact ⟨hkeep, ih a hk⟩

theorem Safe.liftM_bind {x : Except ε α} {Q : Except ε β → σ → Prop}
    (hok : ∀ a, x = .ok a → Safe D p (f a) Q s)
    (herror : ∀ e s', x = .error e → D.rely p s s' → D.inv s' → Q (.error e) s') :
    Safe D p ((liftM x : Prog Op Ans ε α) >>= f) Q s := by
  cases x with
  | ok a => exact hok a rfl
  | error e => exact fun s' hr hi => herror e s' rfl hr hi

theorem Safe.bind_done {f : α → Except ε β} {Q : Except ε β → σ → Prop}
    (h : Safe D p x (fun r s' => Q (r >>= f) s') s) :
    Safe D p (x >>= fun a => .done (f a)) Q s := by
  induction x generalizing s with
  | done r => cases r <;> exact h
  | step o k ih =>
    intro s' hr hi a s'' he hal
    obtain ⟨hkeep, hk⟩ := h s' hr hi a s'' he hal
    exact ⟨hkeep, ih a hk⟩

/-- `try: ... finally: ...`, by a condition `R` that holds before the cleanup. -/
theorem Safe.tryFinally {cleanup : Prog Op Ans ε Unit} (h : Safe D p x R s)
    (hc : ∀ r s', D.inv s' → R r s' → Safe D p cleanup (fun c s'' => Q (c >>= fun _ => r) s'') s') :
    Safe D p (x.tryFinally cleanup) Q s :=
  Safe.attempt (h.mono fun r s' hi hR => Safe.bind_done (hc r s' hi hR))

theorem Safe.onError {cleanup : Prog Op Ans ε Unit} (h : Safe D p x R s)
    (hok : ∀ a s', D.inv s' → R (.ok a) s' → Q (.ok a) s')
    (herror : ∀ e s', D.inv s' → R (.error e) s' →
      Safe D p cleanup (fun c s'' => Q (c >>= fun _ => .error e) s'') s') :
    Safe D p (x.onError cleanup) Q s := by
  induction x generalizing s with
  | done r =>
    cases r with
    | ok a => exact fun s' hr hi => hok a s' hi (h s' hr hi)
    | error e => exact .of_forall fun s' hr hi => Safe.bind_done (herror e s' hi (h s' hr hi))
  | step o k ih =>
    intro s' hr hi a s'' he hal
    obtain ⟨hkeep, hk⟩ := h s' hr hi a s'' he hal
    exact ⟨hkeep, ih a hk⟩

/-- A single operation: the rule says what it owes and what holds after it. -/
theorem Safe.call {Q : Except ε (Ans o) → σ → Prop}
    (h : ∀ s', D.rely p s s' → D.inv s' → ∀ a s'', D.exec p o s' a s'' → D.allowed s' s'' →
      D.Keeps p s' s'' ∧ ∀ s₃, D.rely p s'' s₃ → D.inv s₃ → Q (.ok a) s₃) :
    Safe D p (Prog.call o) Q s :=
  fun s' hr hi a s'' he hal => h s' hr hi a s'' he hal

theorem Discipline.Keeps.refl {s : σ} (hi : D.inv s) : D.Keeps p s s :=
  ⟨hi, fun q _ => D.rely_refl q s, D.guar_refl s⟩

/-- A program whose questions are settled: the other processes cannot change the answers. -/
theorem Safe.of_eval {view : (o : Op) → Option (Ans o)} (hx : x.eval view = some r)
    (hv : ∀ s', D.rely p s s' → D.inv s' → Shows (D.exec p) view s')
    (h : ∀ s', D.rely p s s' → D.inv s' → Q r s') : Safe D p x Q s := by
  induction x generalizing s with
  | done r₀ =>
    obtain rfl : r₀ = r := by simpa using hx
    exact h
  | step o k ih =>
    rw [Prog.eval] at hx
    split at hx
    · rename_i a ha
      intro s' hr hi a' s'' he _
      obtain ⟨rfl, rfl⟩ := (hv s' hr hi o a ha _ _).mp he
      refine ⟨.refl hi, ih _ hx ?_ ?_⟩
      · exact fun s₃ hr' hi' => hv s₃ (D.rely_trans p _ _ _ hr hr') hi'
      · exact fun s₃ hr' hi' => h s₃ (D.rely_trans p _ _ _ hr hr') hi'
    · cases hx

theorem Safe.of_asks {P : Op → Prop} (hx : x.Asks P)
    (hP : ∀ o, P o → ∀ s a s', D.exec p o s a s' → s' = s) :
    Safe D p x (fun _ s' => D.rely p s s') s := by
  induction x generalizing s with
  | done r => exact fun s' hr _ => hr
  | step o k ih =>
    intro s' hr hi a s'' he _
    obtain rfl := hP o hx.1 _ _ _ he
    refine ⟨.refl hi, (ih a (hx.2 a)).mono fun r s₃ _ hr' => ?_⟩
    exact D.rely_trans p _ _ _ hr hr'

/-- A program that is safe can run to its end, where every operation has some outcome. -/
theorem Safe.total (h : Safe D p x Q s) (hi : D.inv s) (hal : ∀ s s', D.allowed s s')
    (hstep : ∀ o s, D.inv s → ∃ a s', D.exec p o s a s') : ∃ r s', Runs (D.exec p) x s r s' := by
  induction x generalizing s with
  | done r => exact ⟨r, s, .done r s⟩
  | step o k ih =>
    obtain ⟨a, s', he⟩ := hstep o s hi
    obtain ⟨hkeep, hk⟩ := h s (D.rely_refl p s) hi a s' he (hal s s')
    obtain ⟨r, s'', hr⟩ := ih a hk hkeep.inv
    exact ⟨r, s'', .step he hr⟩

theorem Safe.runs (h : Safe D p x Q s) (hi : D.inv s) (hal : ∀ s s', D.allowed s s')
    (hr : Runs (D.exec p) x s r s') : Q r s' ∧ D.inv s' ∧ D.guar s s' := by
  induction hr with
  | done r s => exact ⟨h s (D.rely_refl p s) hi, hi, D.guar_refl s⟩
  | step he _ ih =>
    obtain ⟨hkeep, hk⟩ := h _ (D.rely_refl p _) hi _ _ he (hal _ _)
    obtain ⟨hQ, hi', hg⟩ := ih hk hkeep.inv
    exact ⟨hQ, hi', D.guar_trans _ _ _ hkeep.guar hg⟩

end Safe

end Process
