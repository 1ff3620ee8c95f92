import Tds.Generation.Proofs.System

/-!
# Recovery without interference

What `recover` does while no other store runs: it repairs the log and `CURRENT` of one namespace and
touches nothing else, and a second recovery finds nothing to repair.
-/

namespace Generation

open Python Process Prog

variable {α : Type}

theorem exists_ite {β : Type} {c : Prop} [Decidable c] {P Q : α → β → Prop} (hP : c → ∃ a b, P a b)
    (hQ : ¬ c → ∃ a b, Q a b) : ∃ a b, if c then P a b else Q a b := by
  split
  · exact hP ‹_›
  · exact hQ ‹_›

section Solo

variable [Runtime] {config : StoreId → StoreConfig} {strict : Prop} {p q : StoreId} {w w' : World}
  {key : Digest} {nameSpace : Str}

/-! ## Taking a lock -/

variable {c : StoreConfig} {r : Except Error RecoveryResult}

theorem runs_acquireAdvisoryLock {file : LockFile} {shared : Bool} {attempts : Nat}
    {r : Except Error Nat}
    (h : Runs (exec c p) (acquireAdvisoryLock c file shared attempts) w r w') :
    (∃ fd, r = .ok fd ∧ 0 < attempts ∧ w.CanLock file shared ∧
      w' = w.lock file ⟨p, fd, shared⟩) ∨
      (∃ e, r = .error e) ∧ w' = w ∧ (attempts = 0 ∨ ¬ w.CanLock file shared) := by
  induction attempts with
  | zero =>
    cases h
    exact .inr ⟨⟨_, rfl⟩, rfl, .inl rfl⟩
  | succ attempts ih =>
    rcases h.bind_inv with ⟨a, w₁, hcall, hrest⟩ | ⟨e, hcall, rfl⟩
    · obtain ⟨a', ha, he⟩ := hcall.call_inv
      obtain rfl := Except.ok.inj ha
      simp only [exec] at he
      split at he
      · rename_i hcan
        obtain ⟨fd, -, rfl, rfl⟩ := he
        cases hrest
        exact .inl ⟨fd, rfl, Nat.succ_pos _, hcan, rfl⟩
      · rename_i hcan
        obtain ⟨rfl, rfl⟩ := he
        rcases ih hrest with ⟨fd, -, -, hcan', -⟩ | ⟨he, rfl, -⟩
        · exact absurd hcan' hcan
        · exact .inr ⟨he, rfl, .inr hcan⟩
    · obtain ⟨a', ha, -⟩ := hcall.call_inv
      cases ha

theorem runs_withNamespaceLock {body : Digest → Proc α} {r : Except Error α}
    (h : Runs (exec c p) (withNamespaceLock c nameSpace body) w r w') :
    (∃ key fd w₁, namespaceKey nameSpace = .ok key ∧ 0 < c.lockAttempts ∧
      w.CanLock (.nameSpace key) false ∧
      Runs (exec c p) (body key) (w.lock (.nameSpace key) ⟨p, fd, false⟩) r w₁ ∧
      w' = w₁.unlock (.nameSpace key) p fd) ∨
    (∃ e, r = .error e) ∧ w' = w ∧ ((∃ e, namespaceKey nameSpace = .error e) ∨
      c.lockAttempts = 0 ∨ ∃ key, namespaceKey nameSpace = .ok key ∧
        ¬ w.CanLock (.nameSpace key) false) := by
  unfold withNamespaceLock at h
  cases hkey : namespaceKey nameSpace with
  | error e =>
    rw [hkey] at h
    cases h
    exact .inr ⟨⟨e, rfl⟩, rfl, .inl ⟨e, rfl⟩⟩
  | ok key =>
    rw [hkey, liftM_ok_bind] at h
    rcases h.bind_inv with ⟨fd, w₁, hlock, hrest⟩ | ⟨e, hlock, rfl⟩
    · rcases runs_acquireAdvisoryLock hlock with ⟨fd', hfd, hpos, hcan, rfl⟩ | ⟨⟨e, he⟩, -⟩
      · obtain rfl := Except.ok.inj hfd
        obtain ⟨r', w₂, hbody, hfinally⟩ := Runs.attempt_inv hrest
        rcases Runs.bind_inv hfinally with ⟨u, w₃, hunlock, hdone⟩ | ⟨e, hunlock, rfl⟩
        · obtain ⟨a, -, rfl⟩ := hunlock.call_inv
          cases hdone
          exact .inl ⟨key, fd, w₂, rfl, hpos, hcan, hbody, rfl⟩
        · obtain ⟨a, ha, -⟩ := hunlock.call_inv
          cases ha
      · cases he
    · rcases runs_acquireAdvisoryLock hlock with ⟨fd, hfd, -⟩ | ⟨-, rfl, hwhy⟩
      · cases hfd
      · refine .inr ⟨⟨e, rfl⟩, rfl, .inr (hwhy.imp_right fun hcan => ⟨key, rfl, hcan⟩)⟩

theorem runs_hit {boundary : FailureBoundary} {r : Except Error Unit}
    (h : Runs (exec c p) (hit boundary) w r w') :
    w' = w ∧ (r = .ok () ∨ ∃ e ∈ c.failureInjector boundary, r = .error e) := by
  rcases h.bind_inv with ⟨a, w₁, hcall, hrest⟩ | ⟨e, hcall, rfl⟩
  · obtain ⟨a', ha, rfl, hinjected⟩ := hcall.call_inv
    obtain rfl := Except.ok.inj ha
    rcases hinjected with rfl | ⟨e, he, rfl⟩
    · cases hrest
      exact ⟨rfl, .inl rfl⟩
    · cases hrest
      exact ⟨rfl, .inr ⟨e, he, rfl⟩⟩
  · obtain ⟨a', ha, -⟩ := hcall.call_inv
    cases ha

theorem runs_hit_ok (c : StoreConfig) (boundary : FailureBoundary) (w : World) :
    Runs (exec c p) (hit boundary) w (.ok ()) w :=
  .bind_ok (.call (a := none) ⟨rfl, .inl rfl⟩) (.done _ _)

/-- Recovery runs under the lock, or raises because it did not get there. -/
theorem runs_recover_cases (hkey : namespaceKey nameSpace = .ok key)
    (h : Runs (exec c p) (recover c nameSpace) w r w') :
    (∃ fd w₁, w.CanLock (.nameSpace key) false ∧
      Runs (exec c p) (recoverLocked c nameSpace key) (w.lock (.nameSpace key) ⟨p, fd, false⟩) r w₁ ∧
      w' = w₁.unlock (.nameSpace key) p fd) ∨
    w' = w ∧ ∃ e, r = .error e ∧ (e ∈ c.failureInjector .duringRecovery ∨ c.lockAttempts = 0 ∨
      ¬ w.CanLock (.nameSpace key) false) := by
  rcases h.bind_inv with ⟨⟨⟩, w₀, hhit, hsection⟩ | ⟨e, hhit, rfl⟩
  · obtain ⟨rfl, -⟩ := runs_hit hhit
    rcases runs_withNamespaceLock hsection with ⟨key', fd, w₁, hkey', -, hcan, hbody, hunlock⟩ |
      ⟨⟨e, rfl⟩, rfl, hwhy⟩
    · obtain rfl := Except.ok.inj (hkey'.symm.trans hkey)
      exact .inl ⟨fd, w₁, hcan, hbody, hunlock⟩
    · refine .inr ⟨rfl, e, rfl, ?_⟩
      rcases hwhy with ⟨e', he'⟩ | hzero | ⟨key', hkey', hbusy⟩
      · rw [hkey] at he'
        cases he'
      · exact .inr (.inl hzero)
      · obtain rfl := Except.ok.inj (hkey.symm.trans hkey')
        exact .inr (.inr hbusy)
  · obtain ⟨rfl, hnone | ⟨e', he', heq⟩⟩ := runs_hit hhit
    · cases hnone
    · cases heq
      exact .inr ⟨rfl, e, rfl, .inl he'⟩

/-! ## What recovery touches -/

section Asks

variable {P : Op → Prop} (hread : ∀ path, P (.read path))

include hread

theorem asks_readFile (path : Path) : (readFile path).Asks P := .call (hread path)

variable (c : StoreConfig)

theorem asks_verifyPayloads (payloads : List GenerationPayload) :
    (verifyPayloads c payloads).Asks P := by
  induction payloads with
  | nil => trivial
  | cons payload payloads ih =>
    refine .bind (asks_readFile hread _) fun contents => ?_
    exact .bind trivial fun data => .bind trivial fun _ => ih

variable (directory : Directory)

theorem asks_readReceipts
    (states : List GenerationState) : (readReceipts c directory states).Asks P := by
  induction states with
  | nil => trivial
  | cons state states ih =>
    refine .bind ?_ fun contents => ?_
    · cases directory with
      | staged files => trivial
      | published g => exact asks_readFile hread _
    · exact .bind trivial fun receipt => .bind ih fun receipts => trivial

theorem asks_readManifest : directory.readManifest.Asks P := by
  cases directory with
  | staged files => trivial
  | published g => exact asks_readFile hread _

theorem asks_requireRealDirectory :
    (requireRealDirectory c directory).Asks P := by
  refine .bind (asks_readManifest hread directory) fun contents => ?_
  cases contents <;> trivial

theorem asks_verifyStagedGeneration
    (m : GenerationManifest) : (verifyStagedGeneration c directory m).Asks P := by
  refine .bind (asks_requireRealDirectory hread c directory) fun _ => ?_
  refine .bind (asks_readManifest hread directory) fun contents => .bind trivial fun m => ?_
  refine .bind trivial fun _ => .bind (asks_verifyPayloads hread c _) fun _ => ?_
  exact .bind (asks_readReceipts hread c directory _) fun _ => trivial

theorem asks_verifyGeneration (g : Root) : (verifyGeneration c g).Asks P := by
  refine .bind (asks_requireRealDirectory hread c _) fun _ => ?_
  refine .bind (asks_readFile hread _) fun contents => .bind trivial fun m => .bind trivial fun _ => ?_
  exact .bind (asks_verifyStagedGeneration hread c _ _) fun published => trivial

theorem asks_verifyRecords (published : List Root)
    (records : List GenerationPublicationRecord) :
    (verifyRecords c nameSpace published records).Asks P := by
  induction records generalizing published with
  | nil => trivial
  | cons record records ih =>
    refine .bind (asks_verifyGeneration hread c _) fun x => .bind trivial fun _ =>
      .bind trivial fun _ => ?_
    split
    · exact ih _
    · split
      · trivial
      · exact ih _

end Asks

/-- An operation of a recovery. -/
def Op.Repairs (key : Digest) : Op → Prop
  | read _ => True
  | replace path _ => path = .log key ∨ path = .current key
  | unlink path => path = .current key
  | _ => False

theorem asks_recoverLocked (c : StoreConfig) :
    (recoverLocked c nameSpace key).Asks (Op.Repairs key) := by
  have hread : ∀ path, Op.Repairs key (.read path) := fun _ => trivial
  have hrecords : (readPublicationRecords c nameSpace key true).Asks (Op.Repairs key) :=
    .bind (asks_readFile hread _) fun contents => by cases contents <;> trivial
  refine .bind (.bind hrecords fun x => .bind (asks_verifyRecords hread c _ _) fun _ => trivial)
    fun x => ?_
  refine .bind ?_ fun _ => .bind trivial fun expected => .bind (.attempt ?_ fun r => ?_) fun y => ?_
  · unfold repairLog
    split
    · exact .call (.inl rfl)
    · trivial
  · exact .bind (asks_readFile hread _) fun _ => trivial
  · cases r with
    | ok head => trivial
    | error e =>
      dsimp only
      split <;> trivial
  · refine .bind ?_ fun _ => trivial
    unfold repairHead
    split
    · split
      · exact .bind (.call rfl) fun _ => trivial
      · exact .call (.inr rfl)
    · trivial

theorem disk_of_runs_recoverLocked (h : Runs (exec c p) (recoverLocked c nameSpace key) w r w')
    {path : Path} (hlog : path ≠ .log key) (hcurrent : path ≠ .current key) :
    w'.disk path = w.disk path := by
  have htrans : ∀ w₁ w₂ w₃ : World, w₂.disk path = w₁.disk path → w₃.disk path = w₂.disk path →
      w₃.disk path = w₁.disk path := fun _ _ _ h h' => h'.trans h
  refine Runs.of_asks (R := fun w w' => w'.disk path = w.disk path) (fun _ => rfl) htrans
    (fun o ho w a w' he => ?_) (asks_recoverLocked c) h
  cases o with
  | read _ =>
    obtain ⟨-, rfl⟩ := he
    rfl
  | replace path' data =>
    obtain rfl := he
    refine World.write_of_ne ?_ _
    rintro rfl
    exact ho.elim hlog hcurrent
  | unlink path' =>
    obtain rfl := ho
    simp only [exec] at he
    split at he <;> obtain ⟨-, rfl⟩ := he
    · rfl
    · exact Function.update_of_ne hcurrent _ _
  | _ => cases ho

/-- What `recover` does when it comes back with a result. -/
structure Recovers (c : StoreConfig) (nameSpace : Str) (key : Digest) (x : RecoveryResult)
    (w w' : World) : Prop where
  readable : Readable c nameSpace key w
  reports : Reports nameSpace key w x
  recovered : Recovered nameSpace key w'
  records : w'.records key = w.records key
  files : ∀ path, path ≠ .log key → path ≠ .current key → w'.disk path = w.disk path

theorem Recovers.readable_after {x : RecoveryResult} (h : Recovers c nameSpace key x w w') :
    Readable c nameSpace key w' := by
  constructor <;> rw [h.records]
  · exact h.readable.nameSpace
  · exact h.readable.limit
  · intro r hr m hb hm
    exact h.readable.accepts r hr m hb ((h.files _ (by simp) (by simp)).symm.trans hm)

theorem recovers_of_runs (hi : Inv config False w) {x : RecoveryResult}
    (h : Runs (exec (config p) p) (recover (config p) nameSpace) w (.ok x) w') :
    ∃ key, namespaceKey nameSpace = .ok key ∧ Recovers (config p) nameSpace key x w w' ∧
      0 < (config p).lockAttempts ∧ w'.CanLock (.nameSpace key) false := by
  rcases h.bind_inv with ⟨⟨⟩, w₀, hhit, hlocked⟩ | ⟨e, -, he⟩
  · obtain ⟨rfl, -⟩ := runs_hit hhit
    rcases runs_withNamespaceLock hlocked with ⟨key, fd, w₂, hkey, hpos, hcan, hbody, rfl⟩ |
      ⟨⟨e, he⟩, -⟩
    · have hi₁ : Inv config False (w₀.lock (.nameSpace key) ⟨p, fd, false⟩) :=
        (hi.keeps_lock (p := p) hcan fun _ _ => rfl).inv
      have hmem : ⟨p, fd, false⟩ ∈ (w₀.lock (.nameSpace key) ⟨p, fd, false⟩).locks
          (.nameSpace key) := World.mem_lock.mpr (.inr ⟨rfl, rfl⟩)
      obtain ⟨⟨hq, hrecords, hok, hread⟩, hi₂, -⟩ := (safe_recoverLocked nameSpace hi₁ ⟨_, hmem, rfl⟩).runs
        hi₁ (fun _ _ h => h.elim) hbody
      obtain ⟨hrecovered, hreports⟩ := hok x rfl
      have hread := hread.mp ⟨x, rfl⟩
      refine ⟨key, hkey, ⟨⟨hread.nameSpace, hread.limit, hread.accepts⟩,
        ⟨hreports.nameSpace, hreports.head, hreports.validRecords⟩, hrecovered.congr rfl rfl, hrecords,
        fun path hl hc => ?_⟩, hpos, ?_⟩
      · exact disk_of_runs_recoverLocked hbody hl hc
      · -- the store was the only one to hold the lock
        have hmem₂ := (hq.locks _ _ rfl).mpr hmem
        refine List.eq_nil_iff_forall_not_mem.mpr fun h hh => ?_
        obtain ⟨hh, hnot⟩ := World.mem_unlock.mp hh
        obtain rfl := hi₂.exclusive _ _ hmem₂ rfl h hh
        exact hnot ⟨rfl, rfl, rfl⟩
    · cases he
  · cases he

/-! ## Recovery after recovery -/

def World.known (w : World) (path : Path) : Option (Option Bytes) := some (w.disk path)

theorem shows_known (c : StoreConfig) (p : StoreId) (w : World) :
    Shows (exec c p) (readView w.known) w := by
  intro o a ha a' w'
  cases o with
  | read path =>
    obtain rfl := Option.some.inj ha
    exact Iff.rfl
  | _ => cases ha

theorem Inv.stored (hi : Inv config strict w) {m : GenerationManifest} (hm : w.Has m) :
    Stored w.known m := by
  obtain ⟨m', hg, he, hc⟩ := hi.generations _ _ hm
  obtain rfl := GenerationManifest.encode_injective he
  refine ⟨congrArg some hm, fun state hst => congrArg some (hc.receipt state hst), fun payload hp => ?_⟩
  obtain ⟨data, hd, hlen⟩ := hc.object payload hp
  exact ⟨data, congrArg some hd, hlen, (hi.objects _ _ hd).1⟩

/-- Where a recovery has left things in order, `_recover_locked` only reads. -/
theorem eval_recoverLocked (c : StoreConfig) (hi : Inv config strict w)
    (h : Recovered nameSpace key w) :
    ∃ result, (recoverLocked c nameSpace key).eval (readView w.known) = some result ∧
      (∀ x, result = .ok x → Reports nameSpace key w x ∧ x.repaired = false ∧
        x.ignoredTornTail = false) ∧ (Readable c nameSpace key w → ∃ x, result = .ok x) := by
  have hok := hi.logs key
  obtain ⟨tail, htail⟩ := hok.holds
  obtain rfl : tail = [] := by
    have := htail.eq.symm.trans h.log
    rwa [List.append_right_eq_self] at this
  obtain ⟨result, heval, hresult⟩ := eval_recoverRecords c nameSpace rfl htail
    hok.chain (fun r hr => by
      obtain ⟨-, m, hb, hm⟩ := hok.binds r hr
      exact ⟨m, hb, hi.stored hm⟩) hok.lineage
  cases result with
  | error e =>
    refine ⟨.error e, eval_bind_error _ heval _, by simp, fun hread => ?_⟩
    cases (hresult _).mpr ⟨rfl, hread.nameSpace, hread.limit, fun r hr m hb hm =>
      hread.accepts r hr m hb (Option.some.inj hm.manifest)⟩
  | ok x =>
    obtain ⟨rfl, hns, -⟩ := (hresult x).mp rfl
    have hexisting : (existingHead c nameSpace key).eval (readView w.known) =
        some (.ok (impliedHead (w.records key), false)) := by
      refine eval_existingHead c (congrArg some h.current) fun x hx => ?_
      obtain ⟨r, hr, rfl⟩ := Option.map_eq_some_iff.mp hx
      exact hns r (List.mem_of_getLast? hr)
    refine ⟨.ok ⟨nameSpace, impliedHead (w.records key), false, (w.records key).length, false⟩, ?_, ?_,
      fun _ => ⟨_, rfl⟩⟩
    · rw [recoverLocked, eval_bind_ok _ heval]
      dsimp only
      rw [repairLog, if_neg (by simp), pure_bind, expectedHead_eq hns, liftM_ok_bind,
        eval_bind_ok _ hexisting]
      simp [repairHead]
    · intro x hx
      obtain rfl := Except.ok.inj hx
      exact ⟨⟨rfl, rfl, rfl⟩, rfl, rfl⟩

theorem runs_recover_again (hi : Inv config strict w) (h : Recovered nameSpace key w)
    (hkey : namespaceKey nameSpace = .ok key)
    (hruns : Runs (exec (config q) q) (recover (config q) nameSpace) w r w') :
    w'.disk = w.disk ∧
      (∀ x, r = .ok x → Reports nameSpace key w x ∧ x.repaired = false ∧
        x.ignoredTornTail = false) ∧
      (0 < (config q).lockAttempts → w.CanLock (.nameSpace key) false →
        Readable (config q) nameSpace key w → ∀ e, r = .error e →
          e ∈ (config q).failureInjector .duringRecovery) := by
  rcases runs_recover_cases hkey hruns with ⟨fd, w₂, hcan, hbody, rfl⟩ | ⟨rfl, e, rfl, hwhy⟩
  · have hi₁ : Inv config strict (w.lock (.nameSpace key) ⟨q, fd, false⟩) :=
      (hi.keeps_lock (p := q) hcan fun _ _ => rfl).inv
    have hlocked : Recovered nameSpace key (w.lock (.nameSpace key) ⟨q, fd, false⟩) :=
      h.congr rfl rfl
    obtain ⟨result, heval, hresult, hread⟩ := eval_recoverLocked (config q) hi₁ hlocked
    obtain ⟨rfl, rfl⟩ := (Runs.iff_of_eval (shows_known _ _ _) heval _ _).mp hbody
    refine ⟨rfl, fun x hx => ?_, fun _ _ hreadable e he => ?_⟩
    · obtain ⟨hreports, hrest⟩ := hresult x hx
      exact ⟨⟨hreports.nameSpace, hreports.head, hreports.validRecords⟩, hrest⟩
    · obtain ⟨x, hx⟩ := hread ⟨hreadable.nameSpace, hreadable.limit, hreadable.accepts⟩
      rw [hx] at he
      cases he
  · refine ⟨rfl, by simp, fun hpos hcan _ e' he' => ?_⟩
    cases he'
    rcases hwhy with hinjected | hzero | hbusy
    · exact hinjected
    · omega
    · exact absurd hcan hbusy

/-! ## Recovery comes back -/

theorem Inv.exists_fd (hi : Inv config strict w) (p : StoreId) : ∃ fd, ¬ w.FdInUse p fd := by
  obtain ⟨bound, hbound⟩ := hi.descriptors
  refine ⟨bound, ?_⟩
  rintro ⟨file, h, hh, -, hfd⟩
  have hlt := hbound file h hh
  omega

theorem Inv.exec_total (hi : Inv config strict w) (c : StoreConfig) (o : Op) :
    ∃ a w', exec c p o w a w' := by
  cases o with
  | read path => exact ⟨_, _, rfl, rfl⟩
  | memory => exact ⟨_, _, rfl, rfl⟩
  | hit boundary => exact ⟨none, w, rfl, .inl rfl⟩
  | link root data => exact exists_ite (fun _ => ⟨true, _, rfl, rfl⟩) fun _ => ⟨false, _, rfl, rfl⟩
  | rename generation manifest receipts =>
    exact exists_ite (fun _ => ⟨true, _, rfl, rfl⟩) fun _ => ⟨false, _, rfl, rfl⟩
  | unlink path => exact exists_ite (fun _ => ⟨false, _, rfl, rfl⟩) fun _ => ⟨true, _, rfl, rfl⟩
  | create key => exact exists_ite (fun _ => ⟨(), _, rfl⟩) fun _ => ⟨(), _, rfl⟩
  | append key view =>
    refine ⟨view.length, _, ?_, le_rfl, rfl⟩
    cases view with
    | nil => exact .inr rfl
    | cons b view => exact .inl (Nat.succ_pos _)
  | replace path data => exact ⟨(), _, rfl⟩
  | unlock file fd => exact ⟨(), _, rfl⟩
  | setMemory memory => exact ⟨(), _, rfl⟩
  | flock file shared =>
    refine exists_ite (fun _ => ?_) fun _ => ⟨none, w, rfl, rfl⟩
    obtain ⟨fd, hfd⟩ := hi.exists_fd p
    exact ⟨some fd, _, fd, hfd, rfl, rfl⟩

/-- The body of a critical section runs when nobody holds the lock and a descriptor is free. -/
theorem runs_withNamespaceLock_of_fd {body : Digest → Proc α} {fd : Nat} {r : Except Error α}
    {w₁ : World} (hkey : namespaceKey nameSpace = .ok key) (hpos : 0 < c.lockAttempts)
    (hcan : w.CanLock (.nameSpace key) false) (hfd : ¬ w.FdInUse p fd)
    (hbody : Runs (exec c p) (body key) (w.lock (.nameSpace key) ⟨p, fd, false⟩) r w₁) :
    Runs (exec c p) (withNamespaceLock c nameSpace body) w r (w₁.unlock (.nameSpace key) p fd) := by
  have hflock : exec c p (.flock (.nameSpace key) false) w (some fd)
      (w.lock (.nameSpace key) ⟨p, fd, false⟩) := by
    simp only [exec, hcan, if_true]
    exact ⟨fd, hfd, rfl, rfl⟩
  unfold withNamespaceLock
  rw [hkey, liftM_ok_bind]
  obtain ⟨n, hn⟩ := Nat.exists_eq_add_of_lt hpos
  rw [hn, Nat.zero_add]
  refine Runs.bind_ok (a := fd) (.bind_ok (.call hflock) (.done _ _)) (hbody.attempt ?_)
  exact Runs.bind_ok (.call (a := ()) rfl) (.done _ _)

theorem exists_runs_withNamespaceLock (body : Digest → Proc α) (hi : Inv config strict w)
    (hkey : namespaceKey nameSpace = .ok key) (hpos : 0 < c.lockAttempts)
    (hcan : w.CanLock (.nameSpace key) false) :
    ∃ fd, ¬ w.FdInUse p fd ∧ ∀ r w₁,
      Runs (exec c p) (body key) (w.lock (.nameSpace key) ⟨p, fd, false⟩) r w₁ →
      Runs (exec c p) (withNamespaceLock c nameSpace body) w r
        (w₁.unlock (.nameSpace key) p fd) := by
  obtain ⟨fd, hfd⟩ := hi.exists_fd p
  exact ⟨fd, hfd, fun r w₁ hbody => runs_withNamespaceLock_of_fd hkey hpos hcan hfd hbody⟩

theorem exists_runs_recover (hi : Inv config False w) (hkey : namespaceKey nameSpace = .ok key)
    (hpos : 0 < (config p).lockAttempts) (hcan : w.CanLock (.nameSpace key) false)
    (hread : Readable (config p) nameSpace key w) :
    ∃ x w', Runs (exec (config p) p) (recover (config p) nameSpace) w (.ok x) w' := by
  obtain ⟨fd, -, hlocked⟩ := exists_runs_withNamespaceLock (p := p)
    (recoverLocked (config p) nameSpace) hi hkey hpos hcan
  have hi₁ : Inv config False (w.lock (.nameSpace key) ⟨p, fd, false⟩) :=
    (hi.keeps_lock (p := p) hcan fun _ _ => rfl).inv
  have hsafe := safe_recoverLocked (p := p) nameSpace hi₁
    ⟨_, World.mem_lock.mpr (.inr ⟨rfl, rfl⟩), rfl⟩
  obtain ⟨r, w₁, hbody⟩ := hsafe.total hi₁ (fun _ _ h => h.elim)
    fun o w hw => Inv.exec_total hw (config p) o
  obtain ⟨⟨-, -, -, hok⟩, -, -⟩ := hsafe.runs hi₁ (fun _ _ h => h.elim) hbody
  obtain ⟨x, rfl⟩ := hok.mpr ⟨hread.nameSpace, hread.limit, hread.accepts⟩
  exact ⟨x, _, (runs_hit_ok _ _ w).bind_ok (hlocked _ w₁ hbody)⟩

end Solo

end Generation
