import Tds.Generation.Proofs.Progress

/-!
# The history of a namespace

What holds of publication logs, heads and leases in every run of any number of stores, with crashes
anywhere.
-/

namespace Generation

open Python Process List Function

variable {key : Digest} {id : Nat} {nameSpace : Str}

section History

variable [Runtime] {config : StoreId → StoreConfig} {s s' : System}

/-! ## Logs and recovery -/

/-- **Logs.** In every reachable state the complete records of every log form one chain, and they are
still there, in their places, in every later state. Every recovery that came back reported the head
of the last complete record that it found. A recovery that nobody disturbs keeps the records, drops
the torn tail, makes `CURRENT` the head of the last complete record and touches no other file;
whatever store recovers again changes no file and finds the same head. Such a recovery comes back
when nobody holds the lock and the store's limits admit what is there. -/
theorem publicationLog_recovery (h : Reachable config s) :
    (∀ key, ValidChain (s.world.records key)) ∧
    (∀ s', Relation.ReflTransGen (Step config) s s' →
      ∀ key, s.world.records key <+: s'.world.records key) ∧
    (∀ id x, (id, .ok (.recovered x)) ∈ s.returned → ∃ key, namespaceKey x.nameSpace = .ok key ∧
      x.validRecords ≤ (s.world.records key).length ∧
      x.head = impliedHead ((s.world.records key).take x.validRecords)) ∧
    (∀ p nameSpace x w,
      Runs (exec (config p) p) (recover (config p) nameSpace) s.world (.ok x) w →
      ∃ key, namespaceKey nameSpace = .ok key ∧
        w.records key = s.world.records key ∧ w.log key = encodeLog (s.world.records key) ∧
        x.head = impliedHead (s.world.records key) ∧
        w.disk (.current key) = x.head.map headEnvelope ∧
        (∀ path, path ≠ .log key → path ≠ .current key → w.disk path = s.world.disk path) ∧
        ∀ q r w', Runs (exec (config q) q) (recover (config q) nameSpace) w r w' →
          w'.disk = w.disk ∧ (∀ x', r = .ok x' → x'.head = x.head ∧ x'.repaired = false) ∧
          (q = p → ∀ e, r = .error e → e ∈ (config p).failureInjector .duringRecovery)) ∧
    (∀ p nameSpace key, namespaceKey nameSpace = .ok key → 0 < (config p).lockAttempts →
      s.world.locks (.nameSpace key) = [] → Readable (config p) nameSpace key s.world →
      ∃ x w, Runs (exec (config p) p) (recover (config p) nameSpace) s.world (.ok x) w) := by
  have hinv := h.systemInv
  refine ⟨fun key => (hinv.inv.logs key).chain, fun s' hs key => (hinv.steps hs).2.records key,
    fun id x hx => hinv.returned id _ hx, ?_, ?_⟩
  · intro p nameSpace x w hruns
    obtain ⟨key, hkey, hrecovers, hpos, hcan⟩ := recovers_of_runs hinv.inv hruns
    have hi := ((safe_recover nameSpace).runs hinv.inv (fun _ _ h => h.elim) hruns).2.1
    have hhead := hrecovers.reports.head
    have hlog := hrecovers.recovered.log
    have hcurrent := hrecovers.recovered.current
    rw [hrecovers.records] at hlog hcurrent
    refine ⟨key, hkey, hrecovers.records, hlog, hhead, by rw [hcurrent, hhead], hrecovers.files,
      fun q r w' hagain => ?_⟩
    obtain ⟨hdisk, hok, herror⟩ := runs_recover_again hi hrecovers.recovered hkey hagain
    refine ⟨hdisk, fun x' hx' => ?_, ?_⟩
    · obtain ⟨hreports, hrepaired, -⟩ := hok x' hx'
      exact ⟨by rw [hreports.head, hrecovers.records, hhead], hrepaired⟩
    · rintro rfl
      exact herror hpos hcan hrecovers.readable_after
  · intro p nameSpace key hkey hpos hcan hread
    exact exists_runs_recover hinv.inv hkey hpos hcan hread

theorem readable_of_limits (h : Reachable config s)
    (hlimits : ∀ p q, (config p).limits = (config q).limits) (p : StoreId)
    (hns : ∀ r ∈ s.world.records key, r.nameSpace.val = nameSpace) :
    Readable (config p) nameSpace key s.world := by
  have hinv := h.systemInv.inv
  refine ⟨hns, fun hne => ?_, fun r hr m hb hm => ?_⟩
  · obtain ⟨q, hq⟩ := (hinv.logs key).limit hne
    rwa [hlimits q p] at hq
  · obtain ⟨m', -, hencode, hcomplete⟩ := hinv.generations _ _ hm
    obtain rfl := GenerationManifest.encode_injective hencode
    obtain ⟨q, hq⟩ := hcomplete.accepted
    exact hq.congr (hlimits q p)

end History

section Sample

attribute [local instance] sampleRuntime

theorem publicationLog_recovery_sample : ∃ s, Reachable sampleConfig s ∧
    (s.world.records (sha256 [99, 115, 118])).length = 1 ∧
    ValidChain (s.world.records (sha256 [99, 115, 118])) ∧
    ∃ x w, Runs (exec (sampleConfig 0) 0) (recover (sampleConfig 0) (lit "csv")) s.world (.ok x) w ∧
      x.head = impliedHead (s.world.records (sha256 [99, 115, 118])) := by
  obtain ⟨s, r, h⟩ := exists_published
  obtain ⟨hchain, -, -, hrecover, hexists⟩ := publicationLog_recovery h.reachable
  obtain ⟨y, w, hruns⟩ := hexists 0 _ _ namespaceKey_sample Nat.one_pos h.unlocked
    (readable_of_limits h.reachable (fun _ _ => rfl) 0 (by simp [h.records, h.nameSpace]))
  obtain ⟨key, hkey, -, -, hhead, -⟩ := hrecover 0 _ y w hruns
  obtain rfl := Except.ok.inj (namespaceKey_sample.symm.trans hkey)
  exact ⟨s, h.reachable, by rw [h.records]; rfl, hchain _, y, w, hruns, hhead⟩

end Sample

section Limits

variable [Runtime] {config : StoreId → StoreConfig} {s : System}

variable {p : StoreId} {w : World}

/-- Recovery of a log that the store can read, when nobody holds the lock, only fails if the caller's
failure injector raises. -/
theorem error_of_runs_recover {w' : World} (hi : Inv config False w)
    (hkey : namespaceKey nameSpace = .ok key) (hpos : 0 < (config p).lockAttempts)
    (hcan : w.CanLock (.nameSpace key) false) (hread : Readable (config p) nameSpace key w)
    {e : Error} (hruns : Runs (exec (config p) p) (recover (config p) nameSpace) w (.error e) w') :
    e ∈ (config p).failureInjector .duringRecovery := by
  rcases runs_recover_cases hkey hruns with ⟨fd, w₁, -, hbody, -⟩ | ⟨-, e', he', hwhy⟩
  · have hi₁ : Inv config False (w.lock (.nameSpace key) ⟨p, fd, false⟩) :=
      (hi.keeps_lock (p := p) hcan fun _ _ => rfl).inv
    have hsafe := safe_recoverLocked (p := p) nameSpace hi₁
      ⟨_, World.mem_lock.mpr (.inr ⟨rfl, rfl⟩), rfl⟩
    obtain ⟨⟨-, -, -, hok⟩, -, -⟩ := hsafe.runs hi₁ (fun _ _ h => h.elim) hbody
    obtain ⟨x, hx⟩ := hok.mpr ⟨hread.nameSpace, hread.limit, hread.accepts⟩
    cases hx
  · cases he'
    rcases hwhy with hinjected | hzero | hbusy
    · exact hinjected
    · omega
    · exact absurd hcan hbusy

/-- **Limits.** Stores with the same limits never write a log that one of them rejects: in every
reachable state the reader accepts all complete records of a namespace's log, and a recovery of the
namespace that finds the lock free comes back, and fails in no other way than by the failure
injector. -/
theorem log_admits_recovery (h : Reachable config s)
    (hlimits : ∀ p q, (config p).limits = (config q).limits) (p : StoreId) {nameSpace : Str}
    {key : Digest} (hkey : namespaceKey nameSpace = .ok key)
    (hlog : s.world.records key = [] ∨ ∃ r ∈ s.world.records key, r.nameSpace.val = nameSpace) :
    (∃ torn, (readPublicationRecords (config p) nameSpace key true).eval (readView s.world.known) =
      some (.ok (s.world.records key, torn))) ∧
    (0 < (config p).lockAttempts → s.world.locks (.nameSpace key) = [] →
      (∃ x w, Runs (exec (config p) p) (recover (config p) nameSpace) s.world (.ok x) w) ∧
      ∀ e w, Runs (exec (config p) p) (recover (config p) nameSpace) s.world (.error e) w →
        e ∈ (config p).failureInjector .duringRecovery) := by
  have hinv := h.systemInv.inv
  have hok := hinv.logs key
  have hns : ∀ r ∈ s.world.records key, r.nameSpace.val = nameSpace := by
    rcases hlog with hnil | ⟨r, hr, rfl⟩
    · rw [hnil]
      exact fun r hr => absurd hr not_mem_nil
    · exact fun r' hr' => congrArg Subtype.val (hok.chain.nameSpace_eq hr' hr)
  have hread := readable_of_limits h hlimits p hns
  refine ⟨?_, fun hpos hcan => ⟨exists_runs_recover hinv hkey hpos hcan hread, fun e w hruns =>
    error_of_runs_recover hinv hkey hpos hcan hread hruns⟩⟩
  obtain ⟨tail, htail⟩ := hok.holds
  obtain ⟨result, heval, hresult⟩ := eval_readPublicationRecords (config p) nameSpace true
    (show s.world.known (.log key) = _ from rfl) htail hok.chain
  have hsuccess := (hresult (s.world.records key, decide (tail ≠ []))).mpr
    ⟨rfl, fun _ => rfl, hns, hread.limit⟩
  exact ⟨decide (tail ≠ []), by rw [heval, hsuccess]⟩

end Limits

section Sample

attribute [local instance] sampleRuntime

/-- The reader accepts the record of a first publication. -/
theorem log_admits_recovery_sample : ∃ s, Reachable sampleConfig s ∧
    (s.world.records (sha256 [99, 115, 118])).length = 1 ∧
    ∃ torn, (readPublicationRecords (sampleConfig 0) (lit "csv") (sha256 [99, 115, 118]) true).eval
      (readView s.world.known) = some (.ok (s.world.records (sha256 [99, 115, 118]), torn)) := by
  obtain ⟨s, r, h⟩ := exists_published
  obtain ⟨hread, -⟩ := log_admits_recovery h.reachable (fun _ _ => rfl) 0 namespaceKey_sample
    (.inr ⟨r, by simp [h.records], h.nameSpace⟩)
  exact ⟨s, h.reachable, by rw [h.records]; rfl, hread⟩

end Sample

variable {r : GenerationPublicationRecord} {i : Nat}

section Heads

variable [Runtime] {config : StoreId → StoreConfig} {s s' : System}

/-! ## Heads -/

theorem Call.Expects.of_namesHead {call : Call} {root root' : Option Root}
    (h : call.NamesHead nameSpace root) (he : call.Expects key root') :
    namespaceKey nameSpace = .ok key ∧ root' = root := by
  cases call with
  | publish candidate expected =>
    obtain ⟨rfl, hroot⟩ := h
    obtain ⟨hkey, hroot'⟩ := he
    exact ⟨hkey, Except.ok.inj (hroot'.symm.trans hroot)⟩
  | rollback name target expected =>
    obtain ⟨rfl, hroot⟩ := h
    obtain ⟨hkey, r, hr, rfl⟩ := he
    refine ⟨hkey, Except.ok.inj (Eq.trans ?_ hroot)⟩
    rw [requireOptionalRoot, hr]
    · rfl
    · simp
  | _ => exact h.elim

theorem Inv.headRoot_injective (hi : Inv config False w) (hsha : Set.InjOn sha256 w.headPreimages)
    {j : Nat} {r' : GenerationPublicationRecord} (hr : (w.records key)[i]? = some r)
    (hr' : (w.records key)[j]? = some r') (heq : (headOf r).headRoot = (headOf r').headRoot) :
    i = j := by
  have hpreimage := hsha ⟨key, r, mem_of_getElem? hr, rfl⟩
    ⟨key, r', mem_of_getElem? hr', rfl⟩ heq
  have hhead := GenerationHead.encode_injective (append_cancel_left hpreimage)
  have hsequence := congrArg (fun head => head.publicationSequence.val) hhead
  -- the head carries the sequence number, which is the place in the log
  have hi₁ := (hi.logs key).chain.sequence i r hr
  have hi₂ := (hi.logs key).chain.sequence j r' hr'
  have : r.publicationSequence.val = r'.publicationSequence.val := hsequence
  omega

theorem impliedHead_take_succ {records : List GenerationPublicationRecord}
    (h : records[i]? = some r) : impliedHead (records.take (i + 1)) = some (headOf r) := by
  rw [impliedHead, take_add_one, h, Option.toList_some, getLast?_concat]
  rfl

theorem Inv.impliedHead_injective (hi : Inv config False w)
    (hsha : Set.InjOn sha256 w.headPreimages) {j : Nat} (hlt : i < (w.records key).length)
    (hlt' : j < (w.records key).length)
    (heq : (impliedHead ((w.records key).take i)).map (·.headRoot) =
      (impliedHead ((w.records key).take j)).map (·.headRoot)) : i = j := by
  cases i with
  | zero =>
    cases j with
    | zero => rfl
    | succ j =>
      rw [impliedHead_take_succ (getElem?_eq_getElem (Nat.lt_of_succ_lt hlt'))] at heq
      cases heq
  | succ i =>
    have hr := getElem?_eq_getElem (Nat.lt_of_succ_lt hlt)
    rw [impliedHead_take_succ hr] at heq
    cases j with
    | zero => cases heq
    | succ j =>
      have hr' := getElem?_eq_getElem (Nat.lt_of_succ_lt hlt')
      rw [impliedHead_take_succ hr'] at heq
      rw [hi.headRoot_injective hsha hr hr' (Option.some.inj heq)]

/-- The call that succeeded has its place in a log, after the head that it expected. -/
theorem SystemInv.commit_of_succeeded (h : SystemInv config False s) (hs : s.Succeeded id) :
    ∃ key, ∃ i : Nat, (s.world.commits key)[i]? = some id := by
  rcases hs with ⟨x, hx⟩ | ⟨key, hid⟩
  · obtain ⟨-, key, i, -, hid, -⟩ := h.returned id _ hx
    exact ⟨key, i, hid⟩
  · obtain ⟨i, hi⟩ := mem_iff_getElem?.mp hid
    exact ⟨key, i, hi⟩

/-- **Heads.** A call succeeds only against the head that is current when its record is completed. Of
all calls that name the same head of a namespace at most one succeeds, and no head root occurs twice
in the history of a namespace. -/
theorem expectedHead_wins_once (h : Reachable config s)
    (hsha : Set.InjOn sha256 s.world.headPreimages) :
    (∀ nameSpace root id p call, s.world.history[id]? = some (p, call) →
      call.NamesHead nameSpace root → s.Succeeded id → ∃ key, ∃ i : Nat,
        namespaceKey nameSpace = .ok key ∧ (s.world.commits key)[i]? = some id ∧
        (impliedHead ((s.world.records key).take i)).map (·.headRoot) = root) ∧
    (∀ nameSpace root id id' p p' call call', s.world.history[id]? = some (p, call) →
      s.world.history[id']? = some (p', call') → call.NamesHead nameSpace root →
      call'.NamesHead nameSpace root → s.Succeeded id → s.Succeeded id' → id = id') ∧
    ∀ key (i j : Nat) r r', (s.world.records key)[i]? = some r → (s.world.records key)[j]? = some r' →
      (headOf r).headRoot = (headOf r').headRoot → i = j := by
  have hinv := h.systemInv
  have hplace : ∀ nameSpace root id p call, s.world.history[id]? = some (p, call) →
      call.NamesHead nameSpace root → s.Succeeded id → ∃ key, ∃ i : Nat,
        namespaceKey nameSpace = .ok key ∧ (s.world.commits key)[i]? = some id ∧
        (impliedHead ((s.world.records key).take i)).map (·.headRoot) = root := by
    intro nameSpace root id p call hcall hnames hs
    obtain ⟨key, i, hid⟩ := hinv.commit_of_succeeded hs
    obtain ⟨p', call', hcall', hexpects⟩ := (hinv.inv.logs key).expects i id hid
    obtain ⟨-, rfl⟩ := Prod.mk.inj (Option.some.inj (hcall.symm.trans hcall'))
    obtain ⟨hkey, hroot⟩ := hexpects.of_namesHead hnames
    exact ⟨key, i, hkey, hid, hroot⟩
  refine ⟨hplace, ?_, fun key i j r r' => hinv.inv.headRoot_injective hsha⟩
  intro nameSpace root id id' p p' call call' hcall hcall' hnames hnames' hs hs'
  obtain ⟨key, i, hkey, hid, hroot⟩ := hplace nameSpace root id p call hcall hnames hs
  obtain ⟨key', j, hkey', hid', hroot'⟩ := hplace nameSpace root id' p' call' hcall' hnames' hs'
  obtain rfl := Except.ok.inj (hkey.symm.trans hkey')
  have hlt : ∀ {k : Nat} {n : Nat}, (s.world.commits key)[k]? = some n →
      k < (s.world.records key).length := fun hk =>
    (hinv.inv.logs key).commits ▸ (List.getElem?_eq_some_iff.mp hk).1
  obtain rfl := hinv.inv.impliedHead_injective hsha (hlt hid) (hlt hid') (hroot.trans hroot'.symm)
  exact Option.some.inj (hid.symm.trans hid')

end Heads

section Sample

attribute [local instance] sampleRuntime

/-- The call that published the first generation won against the empty namespace. -/
theorem expectedHead_wins_once_sample : ∃ s, Reachable sampleConfig s ∧ s.Succeeded 0 ∧
    ∃ key, ∃ i : Nat, namespaceKey (lit "csv") = .ok key ∧ (s.world.commits key)[i]? = some 0 ∧
      (impliedHead ((s.world.records key).take i)).map (·.headRoot) = none := by
  obtain ⟨s, r, h⟩ := exists_published
  have hsha : Set.InjOn sha256 s.world.headPreimages := by
    refine Set.Subsingleton.injOn ?_ _
    have hmem : ∀ bytes ∈ s.world.headPreimages,
        bytes = rootPreimage "current-head" (headOf r).encode := by
      rintro bytes ⟨key, r', hr', rfl⟩
      -- there is only one call that can have written the record
      have hlog := h.reachable.systemInv.inv.logs key
      obtain ⟨i, hi, -⟩ := mem_iff_getElem.mp hr'
      obtain ⟨q, call, hcall, hexpects⟩ := hlog.expects i _ (getElem?_eq_getElem (by rwa [hlog.commits]))
      rw [h.history] at hcall
      obtain ⟨-, rfl⟩ := Prod.mk.inj (mem_singleton.mp (mem_of_getElem? hcall))
      obtain rfl := Except.ok.inj (hexpects.1.symm.trans namespaceKey_sample)
      rw [h.records] at hr'
      rw [mem_singleton.mp hr']
    exact fun a ha b hb => (hmem a ha).trans (hmem b hb).symm
  have hs : s.Succeeded 0 := .inr ⟨_, by rw [h.commits]; exact mem_singleton_self _⟩
  refine ⟨s, h.reachable, hs, (expectedHead_wins_once h.reachable hsha).1 (lit "csv") none 0 0
    (.publish sampleCandidate none) ?_ ⟨rfl, rfl⟩ hs⟩
  rw [h.history]
  rfl

end Sample

section Leases

variable [Runtime] {config : StoreId → StoreConfig} {s s' : System}

/-! ## Leases -/

theorem Pinned.pos_iff {memory : StoreMemory} {holders : Root → Set Holder}
    (h : Pinned p memory holders) (g : Root) :
    (∃ fd, ⟨p, fd, true⟩ ∈ holders g) ↔ 0 < memory.pinCount g := by
  rw [h.count g, StoreMemory.pinReferences]
  constructor
  · rintro ⟨fd, hfd⟩
    obtain ⟨-, references, hlookup⟩ := h.recorded g _ hfd rfl
    rw [hlookup]
    exact (h.locked g fd references hlookup).1
  · intro hpos
    cases hlookup : memory.pinLocks.lookup g with
    | none =>
      rw [hlookup] at hpos
      exact absurd hpos (lt_irrefl _)
    | some entry => exact ⟨entry.1, (h.locked g entry.1 entry.2 hlookup).2⟩

/-- **Leases.** A generation on which some store has an open lease is not retired; the lease that a
store is closing no longer counts. Between the calls of a store its pin count, the references to its
pin lock and its open leases agree for every generation, and it holds the shared pin lock exactly
when there are any. -/
theorem leases_protect_generations (h : Reachable config s) :
    (∀ p i l, (s.world.memory p).leases[i]? = some l → l.closed = false → ¬ s.world.Closing p i →
      ¬ s.world.Retired l.manifest.generationRoot) ∧
    ∀ p, s.programs p = none → ∀ g,
      (s.world.memory p).pinCount g = (s.world.memory p).pinReferences g ∧
      (s.world.memory p).pinCount g = (s.world.memory p).leases.countP (·.IsOpen g) ∧
      ((∃ fd, ⟨p, fd, true⟩ ∈ s.world.locks (.pin g)) ↔ 0 < (s.world.memory p).pinCount g) := by
  have hinv := h.systemInv
  refine ⟨fun p i l hl hopen hclosing => (hinv.inv.leases p i l hl hopen hclosing).2,
    fun p hp g => ?_⟩
  have hpinned := (hinv.idle p hp).2.inOrder.pinned
  exact ⟨hpinned.count g, (hpinned.count g).trans (hpinned.leases g), hpinned.pos_iff g⟩

end Leases

section Sample

attribute [local instance] sampleRuntime

/-- A store with an open lease. -/
theorem leases_protect_generations_sample : ∃ s, Reachable sampleConfig s ∧
    ¬ s.world.Retired sampleManifest.generationRoot ∧
    0 < (s.world.memory 0).pinCount sampleManifest.generationRoot := by
  obtain ⟨h, -⟩ := reachable_sampleRun [.publish sampleCandidate none, .pin (lit "csv") none]
  obtain ⟨l, hl, heq⟩ := map_eq_singleton_iff.mp sampleRuns_leave.1.2.2.2.2
  obtain ⟨hopen, hm⟩ := Prod.mk.inj heq
  rw [show sampleCandidate.manifest = sampleManifest from rfl] at hm
  obtain ⟨hlive, hagree⟩ := leases_protect_generations h
  have hclosing : ¬ (leased sampleCandidate).world.Closing 0 0 := by
    rintro ⟨id, hid, -⟩
    cases (h.systemInv.idle 0 rfl).1.symm.trans hid
  refine ⟨leased sampleCandidate, h, hm ▸ hlive 0 0 l (by rw [← leased, hl]; rfl) hopen hclosing, ?_⟩
  rw [← leased] at hagree
  rw [(hagree 0 rfl _).2.1, hl, countP_pos_iff]
  refine ⟨l, mem_singleton_self l, ?_⟩
  simp [GenerationLease.IsOpen, hopen, hm]

end Sample

section Retirement

variable [Runtime] {config : StoreId → StoreConfig} {s s' : System}

/-! ## Retired generations -/

theorem SystemInv.kept (h : SystemInv config False s) (hs : Step config s s') {path : Path}
    (hp : path.Permanent) {data : Bytes} (hd : s.world.disk path = some data) :
    s'.world.disk path = some data := by
  cases hs with
  | run p o k a w hprogram he =>
    obtain ⟨id, call, -, -, hsafe⟩ := h.busy p _ hprogram
    obtain ⟨hk, -⟩ := hsafe s.world (.refl _ _) h.inv a w he fun h => h.elim
    have hrely : Rely (p + 1) s.world w := hk.rely (p + 1) (Nat.succ_ne_self p)
    exact hrely.kept path hp data hd
  | _ => exact hd

theorem Reachable.kept (h : Reachable config s) (hrun : Relation.ReflTransGen (Step config) s s')
    (path : Path) (hp : path.Permanent) {data : Bytes} (hd : s.world.disk path = some data) :
    s'.world.disk path = some data := by
  induction hrun with
  | refl => exact hd
  | tail hrun hstep ih => exact (h.systemInv.steps hrun).1.kept hstep hp ih

/-- **Durability.** A stored generation stays as it is through all later calls and crashes, and with it
its payloads, which have the lengths and the hashes of its manifest. -/
theorem stored_generation_lasts (h : Reachable config s)
    (hrun : Relation.ReflTransGen (Step config) s s') {m : GenerationManifest} (hm : s.world.Has m) :
    s'.world.Has m ∧ ∀ payload ∈ m.payloads, ∃ data,
      s.world.disk (.object payload.contentRoot) = some data ∧
      s'.world.disk (.object payload.contentRoot) = some data ∧
      bytesRoot data = payload.contentRoot ∧ data.length = payload.size.val := by
  refine ⟨h.kept hrun (.manifest _) trivial hm, fun payload hpayload => ?_⟩
  obtain ⟨m', -, hencode, hcomplete⟩ := h.systemInv.inv.generations _ _ hm
  obtain rfl := GenerationManifest.encode_injective hencode
  obtain ⟨data, hdata, hlength⟩ := hcomplete.object payload hpayload
  exact ⟨data, hdata, h.kept hrun (.object _) trivial hdata, (h.systemInv.inv.objects _ _ hdata).1,
    hlength⟩

theorem Inv.headLive (hi : Inv config True w) : HeadLive w := by
  rintro key head hhead hretired
  have hdispensable := hi.alive trivial key head.generationRoot hretired
  rcases hhead with hcurrent | himplied
  · obtain ⟨r, hr, henvelope⟩ := (hi.logs key).current _ hcurrent
    obtain rfl := headEnvelope_injective henvelope
    exact hdispensable.current r hr hcurrent rfl
  · obtain ⟨r, hr, rfl⟩ := Option.map_eq_some_iff.mp himplied
    exact hdispensable.last r hr rfl

/-- **Retired heads.** As long as `publish` completes no record for a retired generation, no head is
retired; and the first step that does complete such a record makes a retired generation the head. -/
theorem headLive_iff_livePublication (config : StoreId → StoreConfig) :
    (∀ s, ReachableBy config (fun s s' => LivePublication s.world s'.world) s → HeadLive s.world) ∧
    ∀ s s', ReachableBy config (fun s s' => LivePublication s.world s'.world) s →
      Step config s s' → (HeadLive s'.world ↔ LivePublication s.world s'.world) := by
  have hinv : ∀ s, ReachableBy config (fun s s' => LivePublication s.world s'.world) s →
      SystemInv config True s := fun s h => SystemInv.of_reachable (fun _ _ h _ => h) h
  refine ⟨fun s h => (hinv s h).inv.headLive, fun s s' h hs => ⟨fun hlive => ?_, fun hstep => ?_⟩⟩
  · intro key r hrecords _ hretired
    have hreach : Reachable config s := h.mono fun _ _ _ => trivial
    obtain ⟨data, hdata⟩ := Option.ne_none_iff_exists'.mp hretired
    refine hlive key (headOf r) (.inr ?_) ?_
    · rw [impliedHead, hrecords, getLast?_concat]
      rfl
    · have hpermanent : (Path.receipt r.generationRoot .retired).Permanent := trivial
      have hkept := hreach.systemInv.kept hs hpermanent hdata
      show s'.world.disk (.receipt r.generationRoot .retired) ≠ none
      rw [hkept]
      simp
  · exact ((hinv s h).step hs fun _ => hstep).1.inv.headLive

end Retirement

section Sample

attribute [local instance] sampleRuntime

theorem stored_generation_lasts_sample : ∃ s : System, s.world.Has sampleManifest ∧
    ∀ payload ∈ sampleManifest.payloads, ∃ data,
      s.world.disk (.object payload.contentRoot) = some data := by
  obtain ⟨s, r, h⟩ := exists_published
  have hlasts := stored_generation_lasts h.reachable .refl h.has
  exact ⟨s, hlasts.1, fun payload hpayload => (hlasts.2 payload hpayload).imp fun _ hdata => hdata.1⟩

/-- A retired generation is the current head: `publish` is refused because of the head that it
expects but leaves the generation in place, `retire` retires it, and a second `publish` succeeds. -/
theorem retired_head_sample : ∃ s, Reachable sampleConfig s ∧ ¬ HeadLive s.world := by
  obtain ⟨hhead, hretired⟩ := (Option.any_eq_true_iff_get _ _).mp sampleRuns_leave.2
  exact ⟨retiredHead sampleCandidate, (reachable_sampleRun _).1, fun hlive =>
    hlive _ _ (.inr (Option.some_get hhead).symm) (of_decide_eq_true hretired)⟩

end Sample

end Generation
