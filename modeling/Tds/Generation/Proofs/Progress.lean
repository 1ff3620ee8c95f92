import Tds.Generation.Proofs.Solo

/-!
# Stores at work alone

What a store does while nobody disturbs it is computed, so that samples can be read off: no failure is
injected, every write is whole, and a lock gets the next descriptor.
-/

namespace Generation

open Python Process Function

section Calls

variable [Runtime] {config : StoreId → StoreConfig} {c : StoreConfig} {p : StoreId} {w w' : World}
  {key : Digest}

variable {α : Type} {s : System} {r : Except Error α} {x : Proc α}

/-- An operation of the store `p`, and the next descriptor. -/
def perform (p : StoreId) : (o : Op) → World × Nat → o.Answer × World × Nat
  | .read path, (w, fd) => (w.disk path, w, fd)
  | .link root data, (w, fd) =>
    if w.disk (.object root) = none then (true, w.write (.object root) data, fd) else (false, w, fd)
  | .rename generation manifest receipts, (w, fd) =>
    if w.disk (.manifest generation) = none then (true, w.addGeneration generation manifest receipts, fd)
    else (false, w, fd)
  | .create key, (w, fd) => ((), if w.disk (.log key) = none then w.write (.log key) [] else w, fd)
  | .append key view, (w, fd) => (view.length, w.append p key view, fd)
  | .replace path data, (w, fd) => ((), w.write path data, fd)
  | .unlink path, (w, fd) => if w.disk path = none then (false, w, fd) else (true, w.remove path, fd)
  | .flock file shared, (w, fd) =>
    if w.CanLock file shared then (some fd, w.lock file ⟨p, fd, shared⟩, fd + 1) else (none, w, fd)
  | .unlock file fd', (w, fd) => ((), w.unlock file p fd', fd)
  | .memory, (w, fd) => (w.memory p, w, fd)
  | .setMemory memory, (w, fd) => ((), w.setMemory p memory, fd)
  | .hit _, (w, fd) => (none, w, fd)

/-- The descriptors that hold locks are older than the next one. -/
def Fresh (s : World × Nat) : Prop := ∀ file, ∀ h ∈ s.1.locks file, h.fd < s.2

theorem exec_perform (o : Op) {s : World × Nat} (h : Fresh s) :
    exec c p o s.1 (perform p o s).1 (perform p o s).2.1 ∧ Fresh (perform p o s).2 := by
  obtain ⟨w, fd⟩ := s
  cases o with
  | flock file shared =>
    by_cases hcan : w.CanLock file shared
    · simp only [perform, exec, if_pos hcan]
      refine ⟨⟨fd, ?_, rfl, rfl⟩, fun file' h' hh' => ?_⟩
      · rintro ⟨file', h', hh', -, rfl⟩
        exact absurd (h file' h' hh') (lt_irrefl _)
      · rcases World.mem_lock.mp hh' with hold | ⟨-, rfl⟩
        · exact Nat.lt_succ_of_lt (h file' h' hold)
        · exact Nat.lt_succ_self fd
    · simp only [perform, exec, if_neg hcan]
      exact ⟨⟨trivial, trivial⟩, h⟩
  | unlock file fd' => exact ⟨rfl, fun file' h' hh' => h file' h' (World.mem_unlock.mp hh').1⟩
  | append key view =>
    refine ⟨⟨?_, le_refl _, ?_⟩, h⟩
    · rcases view with _ | ⟨b, view⟩
      · exact .inr rfl
      · exact .inl (Nat.le_add_left 1 _)
    · simp only [perform, List.take_length]
  | hit boundary => exact ⟨⟨rfl, .inl rfl⟩, h⟩
  | link root data =>
    by_cases hnone : w.disk (.object root) = none <;> simp only [perform, exec, hnone] <;> exact ⟨by simp, h⟩
  | rename generation manifest receipts =>
    by_cases hnone : w.disk (.manifest generation) = none <;> simp only [perform, exec, hnone] <;>
      exact ⟨by simp, h⟩
  | create key =>
    by_cases hnone : w.disk (.log key) = none <;> simp only [perform, exec, hnone] <;> exact ⟨by simp, h⟩
  | unlink path =>
    by_cases hnone : w.disk path = none <;> simp only [perform, exec, hnone] <;> exact ⟨by simp, h⟩
  | _ => exact ⟨by simp [perform, exec], h⟩

theorem runs_perform (x : Proc α) {s : World × Nat} (h : Fresh s) :
    Runs (exec c p) x s.1 (x.run (perform p) s).1 (x.run (perform p) s).2.1 ∧
      Fresh (x.run (perform p) s).2 := by
  induction x generalizing s with
  | done r => exact ⟨.done r s.1, h⟩
  | step o k ih =>
    obtain ⟨hexec, hfresh⟩ := exec_perform (c := c) (p := p) o h
    obtain ⟨hruns, hfresh'⟩ := ih _ hfresh
    exact ⟨.step hexec hruns, hfresh'⟩

/-- The store `p` makes these calls, one after the other. -/
def serve (config : StoreId → StoreConfig) (p : StoreId) : List Call → System × Nat → System × Nat
  | [], s => s
  | call :: calls, (s, fd) =>
    let result := (call.program (config p)).run (perform p) (s.world.invoke p call, fd)
    serve config p calls (⟨result.2.1.finish p, fun _ => none,
      s.returned ++ [(s.world.history.length, result.1)]⟩, result.2.2)

theorem steps_of_runs {x : Proc Outcome} {r : Except Error Outcome}
    (h : Runs (exec (config p) p) x w r w') {programs : StoreId → Option (Proc Outcome)}
    (hp : programs p = some x) (returned : List (Nat × Except Error Outcome)) :
    Relation.ReflTransGen (Step config) ⟨w, programs, returned⟩
      ⟨w', Function.update programs p (some (.done r)), returned⟩ := by
  induction h generalizing programs with
  | done r w =>
    rw [← hp, update_eq_self]
  | @step o k a w w₁ w' r he _ ih =>
    refine .head (.run ⟨w, programs, returned⟩ p o k a w₁ hp he) ?_
    have hself : update programs p (some (k a)) p = some (k a) := update_self ..
    have hrest := ih hself
    rwa [update_idem] at hrest

theorem running_of_runs (h : Runs (exec c p) x w r w') : w'.running = w.running := by
  induction h with
  | done => rfl
  | step he _ ih => exact ih.trans (exec_history he).1

theorem history_of_runs {c : StoreConfig} {p : StoreId} {w w' : World}
    (h : Runs (exec c p) x w r w') : w'.history = w.history := by
  induction h with
  | done => rfl
  | step he _ ih => exact ih.trans (exec_history he).2

theorem steps_of_call {call : Call} (hp : s.programs p = none) {r : Except Error Outcome}
    (h : Runs (exec (config p) p) (call.program (config p)) (s.world.invoke p call) r w') :
    Relation.ReflTransGen (Step config) s
      ⟨w'.finish p, s.programs, s.returned ++ [(s.world.history.length, r)]⟩ := by
  have hrun : w'.running p = some s.world.history.length := by
    rw [running_of_runs h]
    exact update_self ..
  have hself : (s.invoke (config p) p call).programs p = some (call.program (config p)) :=
    update_self ..
  have hsteps := steps_of_runs h hself s.returned
  have hdone := Relation.ReflTransGen.head (.invoke s p call hp) hsteps
  have hfinish := hdone.tail (.finish _ p r s.world.history.length (update_self ..) hrun)
  have hprograms : update (update (s.invoke (config p) p call).programs p
      (some (.done r))) p none = s.programs := by
    rw [System.invoke, update_idem, update_idem, ← hp, update_eq_self]
  dsimp only at hfinish
  rwa [hprograms] at hfinish

theorem Reachable.steps {s' : System} (h : Reachable config s)
    (hs : Relation.ReflTransGen (Step config) s s') : Reachable config s' := by
  induction hs with
  | refl => exact h
  | tail _ hstep ih => exact .step ih hstep trivial

theorem reachable_serve (calls : List Call) {s : System × Nat} (h : Reachable config s.1)
    (hidle : s.1.programs = fun _ => none) (hfresh : Fresh (s.1.world, s.2)) :
    Reachable config (serve config p calls s).1 ∧
      (serve config p calls s).1.world.history = s.1.world.history ++ calls.map (p, ·) := by
  induction calls generalizing s with
  | nil => exact ⟨h, (List.append_nil _).symm⟩
  | cons call calls ih =>
    obtain ⟨hruns, hfresh'⟩ := runs_perform (c := config p) (p := p) (call.program (config p))
      (show Fresh (s.1.world.invoke p call, s.2) from hfresh)
    have hsteps := steps_of_call (show s.1.programs p = none by rw [hidle]) hruns
    rw [hidle] at hsteps
    obtain ⟨hreach, hhistory⟩ := ih (s := (_, _)) (h.steps hsteps) rfl hfresh'
    have heq := congrArg (· ++ calls.map (p, ·)) (history_of_runs hruns)
    exact ⟨hreach, (hhistory.trans heq).trans (List.append_assoc _ [(p, call)] _)⟩

theorem eval_recoverRecords_of_none {nameSpace : Str} (h : w.disk (.log key) = none) :
    (recoverRecords c nameSpace key).eval (readView w.known) = some (.ok ([], false)) := by
  have hread : (readPublicationRecords c nameSpace key true).eval (readView w.known) =
      some (.ok ([], false)) := by
    rw [readPublicationRecords, Prog.eval_bind_ok _ (eval_readFile rfl), h]
    rfl
  rw [recoverRecords, Prog.eval_bind_ok _ hread]
  rfl

end Calls

section Sample

def sampleConfig (_ : StoreId) : StoreConfig := ⟨lit "store", .default, 1, fun _ => ∅⟩

section Runs

variable [Runtime]

def sampleRun (calls : List Call) : System := (serve sampleConfig 0 calls (.initial, 0)).1

theorem reachable_sampleRun (calls : List Call) :
    Reachable sampleConfig (sampleRun calls) ∧ (sampleRun calls).world.history = calls.map (0, ·) :=
  reachable_serve calls .initial rfl fun _ _ h => absurd h List.not_mem_nil

variable (candidate : GenerationCandidate)

/-- The first generation of a namespace is published. -/
def published : System := sampleRun [.publish candidate none]

def leased : System := sampleRun [.publish candidate none, .pin (lit "csv") none]

/-- A publication is refused because of the head that it expects, but leaves its generation in place; the
generation is retired, and published afterwards. -/
def retiredHead : System := sampleRun
  [.publish candidate (some (rootText candidate.manifest.manifestRoot)),
    .retire (lit "csv") (rootText candidate.manifest.generationRoot), .publish candidate none]

/-- What the runs leave behind. -/
def RunsLeave : Prop :=
  (((published candidate).world.records (sha256 [99, 115, 118])).map (fun r =>
      (r.nameSpace.val, r.generationRoot)) = [(lit "csv", candidate.manifest.generationRoot)] ∧
    (published candidate).world.commits (sha256 [99, 115, 118]) = [0] ∧
    (published candidate).world.locks (.nameSpace (sha256 [99, 115, 118])) = [] ∧
    (published candidate).world.disk (.manifest candidate.manifest.generationRoot) =
      some candidate.manifest.encode ∧
    ((leased candidate).world.memory 0).leases.map (fun l => (l.closed, l.manifest.generationRoot)) =
      [(false, candidate.manifest.generationRoot)]) ∧
  (impliedHead ((retiredHead candidate).world.records (sha256 [99, 115, 118]))).any (fun head =>
    (retiredHead candidate).world.Retired head.generationRoot) = true

end Runs

attribute [local instance] sampleRuntime

def sampleCandidate : GenerationCandidate :=
  ⟨sampleManifest, [(lit "source", [97, 98, 99])], by decide +kernel⟩

theorem namespaceKey_sample : namespaceKey (lit "csv") = .ok (sha256 [99, 115, 118]) := by
  have hencode : encodeUtf8 (lit "csv") = some [99, 115, 118] := by decide
  rw [namespaceKey, if_neg (by decide), hencode]

/-- The candidate, for a hash that is equal but computes its words at once. -/
def strictCandidate : @GenerationCandidate strictRuntime :=
  @GenerationCandidate.mk strictRuntime (@GenerationManifest.mk strictRuntime sampleFields (by decide +kernel))
    [(lit "source", [97, 98, 99])] (by decide +kernel)

theorem strictRuns_leave : @RunsLeave strictRuntime strictCandidate := by
  unfold RunsLeave
  decide +kernel

theorem runsLeave_of_eq {runtime : Runtime} (h : runtime = strictRuntime)
    (hfields : @ManifestFields.postInit runtime sampleFields = .ok ())
    (hcandidate : @checkCandidate runtime (@GenerationManifest.mk runtime sampleFields hfields)
      [(lit "source", [97, 98, 99])] = .ok ()) :
    @RunsLeave runtime (@GenerationCandidate.mk runtime _ _ hcandidate) := by
  subst h
  exact strictRuns_leave

theorem sampleRuns_leave : RunsLeave sampleCandidate :=
  runsLeave_of_eq sampleRuntime_eq_strict sampleManifest.valid sampleCandidate.valid

structure Published (s : System) (r : GenerationPublicationRecord) : Prop where
  reachable : Reachable sampleConfig s
  idle : ∀ q, s.programs q = none
  history : s.world.history = [(0, .publish sampleCandidate none)]
  records : s.world.records (sha256 [99, 115, 118]) = [r]
  nameSpace : r.nameSpace.val = lit "csv"
  generation : r.generationRoot = sampleManifest.generationRoot
  commits : s.world.commits (sha256 [99, 115, 118]) = [0]
  unlocked : s.world.locks (.nameSpace (sha256 [99, 115, 118])) = []
  has : s.world.Has sampleManifest

theorem exists_published : ∃ s r, Published s r := by
  obtain ⟨hreachable, hhistory⟩ := reachable_sampleRun [.publish sampleCandidate none]
  obtain ⟨⟨hrecords, hcommits, hunlocked, hhas, -⟩, -⟩ := sampleRuns_leave
  rw [show sampleCandidate.manifest = sampleManifest from rfl] at hrecords hhas
  obtain ⟨r, hr, heq⟩ := List.map_eq_singleton_iff.mp hrecords
  obtain ⟨hname, hgeneration⟩ := Prod.mk.inj heq
  exact ⟨published sampleCandidate, r, hreachable, fun _ => rfl, hhistory, hr, hname, hgeneration,
    hcommits, hunlocked, hhas⟩

end Sample

end Generation
