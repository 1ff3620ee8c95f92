import Tds.FileSystem.Proofs.Calls
import Tds.FileSystem.JsonCodec

/-!
# The cache under concurrent calls

`settled_iff_orderly` says exactly which steps upset the cache: those that cache an entry which is no
longer indexed while nobody else is going to correct it.
-/

namespace FileSystem

open Python Process Option Function Pool Directory

/-! ## What is left of a call -/

/-- In a call the index is changed right before the cache, and nothing comes after that. -/
def Tidy {α : Type} : Method α → Prop
  | .done _ => True
  | .step op next => (∀ a, Tidy (next a)) ∧
    match op with
    | .indexPut key entry => ∀ a, ∃ k, next a = .step (.cachePut key entry) k
    | .indexPop key => ∀ a, ∃ k, next a = .step (.cacheRemove key) k
    | .cachePut _ _ => ∀ a, ∃ r, next a = .done r
    | _ => True

/-- The section stores nothing, and removes nothing from the index. -/
def Harmless : Op → Prop
  | .indexPut _ _ => False
  | .indexPop _ => False
  | .cachePut _ _ => False
  | _ => True

section Tidy

variable {α β : Type}

theorem Tidy.next {op : Op} {k : op.Answer → Method α} (h : Tidy (.step op k)) (a : op.Answer) :
    Tidy (k a) := by
  cases op <;> exact h.1 a

theorem Tidy.bind_of_asks {x : Method α} {f : α → Method β} (hx : x.Asks Harmless)
    (hf : ∀ a, Tidy (f a)) : Tidy (x >>= f) := by
  induction x with
  | done r =>
    cases r with
    | ok a => exact hf a
    | error e => trivial
  | step op k ih =>
    have hnext := fun a => ih a (hx.2 a)
    cases op with
    | indexPut key entry => exact hx.1.elim
    | indexPop key => exact hx.1.elim
    | cachePut key entry => exact hx.1.elim
    | _ => exact ⟨hnext, trivial⟩

theorem Tidy.map {x : Method α} (hx : Tidy x) (f : α → β) : Tidy (x >>= fun a => pure (f a)) := by
  induction x with
  | done r => cases r <;> trivial
  | step op k ih =>
    have hnext := fun a => ih a (hx.next a)
    cases op with
    | indexPut key entry =>
      refine ⟨hnext, fun a => ?_⟩
      obtain ⟨k', hk'⟩ := hx.2 a
      exact ⟨_, congrArg (Prog.attempt · _) hk'⟩
    | indexPop key =>
      refine ⟨hnext, fun a => ?_⟩
      obtain ⟨k', hk'⟩ := hx.2 a
      exact ⟨_, congrArg (Prog.attempt · _) hk'⟩
    | cachePut key entry =>
      refine ⟨hnext, fun a => ?_⟩
      obtain ⟨r, hr⟩ := hx.2 a
      refine ⟨r.map f, (congrArg (Prog.attempt · _) hr).trans ?_⟩
      cases r <;> rfl
    | _ => exact ⟨hnext, trivial⟩

theorem tidy_deleteEntry (name : Str) : Tidy (deleteEntry name) := by
  refine .bind_of_asks trivial fun key => ?_
  exact ⟨fun _ => ⟨fun _ => trivial, trivial⟩, fun _ => ⟨_, rfl⟩⟩

variable [Objects]

theorem tidy_readValue (self : Self) (name : Str) : Tidy (readValue self name) := by
  refine .bind_of_asks trivial fun key => .bind_of_asks (.call trivial) fun passes => ?_
  split
  · refine .bind_of_asks (.call trivial) fun cached => ?_
    split
    · trivial
    · refine .bind_of_asks (.call trivial) fun entry => ?_
      split
      · trivial
      · exact ⟨fun _ => trivial, fun _ => ⟨_, rfl⟩⟩
  · trivial

theorem asks_validate (name : Str) (value : Value) : (validate name value).Asks Harmless := by
  refine .bind (.call trivial) fun schema => ?_
  cases schema <;> trivial

variable [Runtime]

theorem tidy_writeEntry (config : RuntimeConfig) (args : WriteArgs) :
    Tidy (writeEntry config args) := by
  refine .bind_of_asks (asks_validate _ _) fun _ => .bind_of_asks (.call trivial) fun policy => ?_
  refine .bind_of_asks trivial fun entry => .bind_of_asks trivial fun key => ?_
  exact ⟨fun _ => ⟨fun _ => trivial, fun _ => ⟨_, rfl⟩⟩, fun _ => ⟨_, rfl⟩⟩

theorem tidy_method (self : Self) (call : Call) : Tidy (call.method self) := by
  cases call with
  | write config args => exact (tidy_writeEntry config args).map Reply.wrote
  | read name => exact (tidy_readValue self name).map Reply.value
  | delete name => exact (tidy_deleteEntry name).map fun _ => Reply.deleted

end Tidy

/-! ## One event -/

variable {key : Key} {d : Directory}

theorem Repairs.congr {d' : Directory} {program : Method Reply}
    (hget : d'.entries.get key = d.entries.get key) (h : Repairs d key program) :
    Repairs d' key program := by
  cases program with
  | done r => exact h
  | step op k =>
    cases op with
    | cachePut key' entry => exact ⟨h.1, hget.trans h.2⟩
    | cacheRemove key' => exact h
    | _ => exact h

namespace Threads

structure Sound (s : Threads) : Prop where
  wellFormed : s.shared.WellFormed
  tidy : ∀ t program, s.threads t = some program → Tidy program

variable {s : Threads}

theorem RepairedBeside.settledAt {t : Nat} (h : s.RepairedBeside t key)
    (hget : d.entries.get key = s.shared.entries.get key) (program : Option (Method Reply)) :
    SettledAt ⟨d, update s.threads t program⟩ key := by
  obtain ⟨t', hne, program', ht', hrepairs⟩ := h
  exact .inr ⟨t', program', (update_of_ne hne _ _).trans ht', hrepairs.congr hget⟩

theorem SettledAt.update {t : Nat} (h : s.SettledAt key)
    (ht : ∀ program, s.threads t = some program → ¬ Repairs s.shared key program)
    (hget : d.entries.get key = s.shared.entries.get key)
    (hagree : s.shared.AgreesAt key → d.AgreesAt key) (program : Option (Method Reply)) :
    SettledAt ⟨d, update s.threads t program⟩ key := by
  rcases h with hcache | ⟨t', program', ht', hrepairs⟩
  · exact .inl (hagree hcache)
  · have hne : t' ≠ t := by
      rintro rfl
      exact ht program' ht' hrepairs
    exact RepairedBeside.settledAt ⟨t', hne, program', ht', hrepairs⟩ hget program

/-- When no call is in progress, settled names are those whose cached entry is the indexed one. -/
theorem Settled.agrees (h : s.Settled) (hq : s.Quiescent) (key : Key) :
    s.shared.AgreesAt key := by
  rcases h key with hagree | ⟨t, program, ht, -⟩
  · exact hagree
  · cases (hq t).symm.trans ht

variable [Scores]

theorem Sound.next [Runtime] [Objects] {s s' : Threads} {self : Self} {event : ThreadEvent}
    (h : s.Sound) (hcall : IsCall self event) (hnext : s.next Directory.exec event = some s') :
    s'.Sound := by
  have hupdate : ∀ (d : Directory) (t : Nat) (program : Option (Method Reply)), d.WellFormed →
      (∀ p, program = some p → Tidy p) →
      Sound ⟨d, update s.threads t program⟩ := by
    intro d t program hd hprogram
    refine ⟨hd, fun t' p hp => ?_⟩
    by_cases ht : t' = t
    · subst ht
      exact hprogram p ((update_self t' program s.threads).symm.trans hp)
    · exact h.tidy t' p ((update_of_ne ht _ _).symm.trans hp)
  rcases next_cases hnext with ⟨t, program, rfl, -, rfl⟩ | ⟨t, op, k, rfl, ht, rfl⟩ |
    ⟨t, r, rfl, -, rfl⟩
  · refine hupdate _ _ _ h.wellFormed fun p hp => ?_
    obtain ⟨call, hcall⟩ := hcall
    exact some.inj hp ▸ hcall ▸ tidy_method self call
  · refine hupdate _ _ _ (h.wellFormed.exec op) fun p hp => ?_
    exact some.inj hp ▸ (h.tidy t _ ht).next _
  · exact hupdate _ _ _ h.wellFormed (by simp)

theorem Settled.step (h : s.Settled) (hs : s.Sound) {t : Nat} {op : Op}
    {k : op.Answer → Method Reply} (ht : s.threads t = some (.step op k))
    (hop : ∀ key entry, op ≠ .cachePut key entry) :
    Settled ⟨(s.shared.exec op).2,
      update s.threads t (some (k (s.shared.exec op).1))⟩ := by
  intro key
  have hd := hs.wellFormed
  have htidy := hs.tidy t _ ht
  -- the name is not the one that the step is about
  have hother : (s.shared.contents.exec op).2.entries key = s.shared.entries.get key →
      ¬ Repairs s.shared key (.step op k) →
      SettledAt ⟨(s.shared.exec op).2,
        update s.threads t (some (k (s.shared.exec op).1))⟩ key := by
    intro hindex hrepairs
    refine (h key).update (fun program hp => ?_) ((hd.get_exec op key).trans hindex)
      (fun hagree => hd.agreesAt_exec hagree hindex fun entry he => (hop key entry he).elim) _
    rwa [← some.inj (ht.symm.trans hp)]
  cases op with
  | indexPut key' entry =>
    by_cases hkey : key = key'
    · subst hkey
      obtain ⟨k', hk'⟩ := htidy.2 ()
      exact .inr ⟨t, _, (update_self ..).trans (congrArg some hk'), rfl,
        hd.get_indexPut key entry⟩
    · exact hother (update_of_ne hkey _ _) id
  | indexPop key' =>
    by_cases hkey : key = key'
    · subst hkey
      obtain ⟨k', hk'⟩ := htidy.2 ()
      exact .inr ⟨t, _, (update_self ..).trans (congrArg some hk'), rfl⟩
    · exact hother (update_of_ne hkey _ _) id
  | cacheRemove key' =>
    by_cases hkey : key = key'
    · subst hkey
      exact .inl (hd.agreesAt_cacheRemove key)
    · exact hother rfl fun hrepairs => hkey hrepairs.symm
  | cachePut key' entry => exact (hop key' entry rfl).elim
  | policy config => exact hother (congrFun (Contents.entries_renew _ config) key) id
  | _ => exact hother rfl id

/-- A step that caches an entry leaves all names settled if and only if it is orderly. -/
theorem Settled.step_cachePut_iff (h : s.Settled) (hs : s.Sound) {t : Nat}
    {entry : Entry} {k : Unit → Method Reply}
    (ht : s.threads t = some (.step (.cachePut key entry) k)) :
    Settled ⟨(s.shared.exec (.cachePut key entry)).2, update s.threads t (some (k ()))⟩ ↔
      s.shared.entries.get key = some entry ∨ s.RepairedBeside t key := by
  have hd := hs.wellFormed
  obtain ⟨r, hr⟩ := (hs.tidy t _ ht).2 ()
  constructor
  · intro hsettled
    rcases hsettled key with hagree | ⟨t', program, ht', hrepairs⟩
    · exact .inl ((hd.agreesAt_cachePut key entry).mp hagree)
    · by_cases hne : t' = t
      · subst hne
        have heq : program = .done r :=
          (some.inj (ht'.symm.trans (update_self ..))).trans hr
        rw [heq] at hrepairs
        exact hrepairs.elim
      · exact .inr ⟨t', hne, program, (update_of_ne hne _ _).symm.trans ht', hrepairs.congr rfl⟩
  · intro horderly key'
    have hget : (s.shared.exec (.cachePut key entry)).2.entries.get key' =
        s.shared.entries.get key' := rfl
    by_cases hkey : key' = key
    · subst hkey
      rcases horderly with hentry | hbeside
      · exact .inl ((hd.agreesAt_cachePut key' entry).mpr hentry)
      · exact hbeside.settledAt hget _
    · refine (h key').update (fun program hp hrepairs => hkey ?_) hget (fun hagree => ?_) _
      · rw [← some.inj (ht.symm.trans hp)] at hrepairs
        exact hrepairs.1.symm
      · refine hd.agreesAt_exec hagree rfl fun e he => ?_
        exact absurd (Op.cachePut.inj he).1.symm hkey

theorem settled_next_iff {s s' : Threads} (h : s.Settled) (hs : s.Sound) {event : ThreadEvent}
    (hnext : s.next Directory.exec event = some s') : s'.Settled ↔ s.Orderly event := by
  rcases next_cases hnext with ⟨t, program, rfl, ht, rfl⟩ | ⟨t, op, k, rfl, ht, rfl⟩ |
    ⟨t, r, rfl, ht, rfl⟩
  · refine iff_of_true (fun key => (h key).update ?_ rfl id _) trivial
    intro p hp
    cases ht.symm.trans hp
  · unfold Orderly
    dsimp only
    rw [ht]
    cases op with
    | cachePut key entry => exact h.step_cachePut_iff hs ht
    | _ => exact iff_of_true (h.step hs ht (by simp)) trivial
  · refine iff_of_true (fun key => (h key).update (fun p hp => ?_) rfl id _) trivial
    rw [← some.inj (ht.symm.trans hp)]
    exact id

end Threads

section Runs

variable [Runtime] [Objects] [Scores]

/-- However the sections of concurrent calls are interleaved: all names are settled throughout the
run if and only if every entry is put into the cache while it is the indexed one or while another
call is about to set the cache right. After such a run, once all calls have finished, the cache agrees
with the index and a read returns what the index holds. -/
theorem cache_settled_iff_orderly (self : Self) (config : RuntimeConfig) (clock : Nat → Nat)
    (schemas : PyDict Str EntrySchema) (events : List ThreadEvent) (s : Threads)
    (hcalls : ∀ event ∈ events, IsCall self event)
    (hrun : (Threads.start self config clock schemas).run Directory.exec events = some s) :
    ((∀ (n : Nat) (s' : Threads),
        (Threads.start self config clock schemas).run Directory.exec (events.take n) = some s' →
        s'.Settled) ↔
      (Threads.start self config clock schemas).Along Directory.exec Threads.Orderly events) ∧
    ((Threads.start self config clock schemas).Along Directory.exec Threads.Orderly events →
      s.Quiescent → (∀ key, s.shared.AgreesAt key) ∧
        ∀ name, ((readValue self name).run Directory.exec s.shared).1 =
          s.shared.contents.read self name) := by
  have hinit := coherent_init self.name self.path config clock schemas
  have hsound : (Threads.start self config clock schemas).Sound := ⟨hinit.toWellFormed, by
    intro t program ht
    cases ht⟩
  have hsettled : (Threads.start self config clock schemas).Settled := fun key =>
    .inl (hinit.cache key)
  have hnext : ∀ s : Threads, ∀ event ∈ events, ∀ s' : Threads, s.Sound →
      s.next exec event = some s' → s'.Sound :=
    fun s event he s' hs hn => hs.next (hcalls event he) hn
  have hiff := along_iff_forall_take (P := Threads.Orderly) (Q := Threads.Settled) hnext
    (fun s event s' hs hq hn => Threads.settled_next_iff hq hs hn) hsound hsettled hrun
  refine ⟨hiff, fun halong hq => ?_⟩
  have hs : s.Settled := by
    refine hiff.mpr halong events.length s ?_
    rwa [List.take_length]
  have hcoherent : s.shared.Coherent := ⟨(invariant_of_run hnext hsound hrun).wellFormed,
    hs.agrees hq⟩
  refine ⟨hs.agrees hq, fun name => ?_⟩
  obtain ⟨d', hread, -⟩ := (simulates_readValue hcoherent self name).exists_run
  refine (congrArg Prod.fst hread).trans ?_
  show ((readValue self name).run Contents.exec s.shared.contents).1 = _
  rw [run_readValue]

end Runs

/-! ## Two writes at once -/

section Sample

attribute [local instance] sampleRuntime sampleObjects sampleScores

/-- The name `k`. -/
def sampleKey : Key := ⟨lit "k", by decide⟩

/-- A text is written under the name `k`. -/
def sampleWrite (text : String) : Method Reply :=
  (Call.write sampleConfig ⟨lit "k", .str (lit text), textUtf8, some false, []⟩).method sampleSelf

def sampleStore (entry : Entry) : Method Reply :=
  .step (.indexPut sampleKey entry) fun _ => .step (.cachePut sampleKey entry) fun _ =>
    .done (.ok (.wrote entry))

theorem sampleWrite_eq {text : String} {entry : Entry} (h : makeEntry sampleConfig sampleConfig.policy
      ⟨lit "k", .str (lit text), textUtf8, some false, []⟩ = .ok entry) :
    ∃ k k', sampleWrite text = .step (.schema (lit "k")) k ∧
      k none = .step (.policy sampleConfig) k' ∧ k' sampleConfig.policy = sampleStore entry := by
  refine ⟨_, _, rfl, rfl, ?_⟩
  simp only [Prog.attempt, h]
  rfl

section Checks

variable {text : String} {entry : Entry} (h : makeEntry sampleConfig sampleConfig.policy
    ⟨lit "k", .str (lit text), textUtf8, some false, []⟩ = .ok entry) {s : Threads} {t : Nat}
  (ht : s.threads t = some (sampleWrite text))
  (hschema : s.shared.exec (.schema (lit "k")) = (none, s.shared))
  (hpolicy : s.shared.exec (.policy sampleConfig) = (sampleConfig.policy, s.shared))

include h ht hschema hpolicy

theorem next_sampleWrite : ∃ s₁ : Threads, s.next Directory.exec (.step t) = some s₁ ∧
    s₁.next Directory.exec (.step t) =
      some ⟨s.shared, update s.threads t (some (sampleStore entry))⟩ ∧
    s.Orderly (.step t) ∧ s₁.Orderly (.step t) := by
  obtain ⟨k, k', hk, hk', hstore⟩ := sampleWrite_eq h
  have hfirst : s.threads t = some (.step (.schema (lit "k")) k) := ht.trans (congrArg some hk)
  have hself : update s.threads t (some (k none)) t = some (.step (.policy sampleConfig) k') :=
    (update_self ..).trans (congrArg some hk')
  refine ⟨⟨s.shared, update s.threads t (some (k none))⟩, ?_, ?_, ?_, ?_⟩
  · rw [next_step hfirst, hschema]
  · rw [next_step hself, hpolicy]
    dsimp only
    rw [hstore, update_idem]
  · unfold Threads.Orderly
    dsimp only
    rw [hfirst]
    trivial
  · unfold Threads.Orderly
    dsimp only
    rw [hself]
    trivial

end Checks

/-- Both writes are indexed before the first is cached, and the second is cached last. -/
def orderlyEvents : List ThreadEvent :=
  [.start 0 (sampleWrite "old"), .start 1 (sampleWrite "new"), .step 0, .step 0, .step 1, .step 1,
    .step 0, .step 1, .step 0, .step 1, .finish 0, .finish 1]

/-- After two interleaved writes the cache agrees with the index. -/
theorem cache_settled_iff_orderly_sample : ∃ s : Threads,
    (Threads.start sampleSelf sampleConfig id []).run Directory.exec orderlyEvents = some s ∧
    s.Quiescent ∧
    (Threads.start sampleSelf sampleConfig id []).Along Directory.exec Threads.Orderly orderlyEvents ∧
    ∀ key, s.shared.AgreesAt key := by
  have hboth : ((Threads.start sampleSelf sampleConfig id []).run exec orderlyEvents).any
      (fun s => (s.threads 0).isNone && (s.threads 1).isNone) = true := by decide +kernel
  obtain ⟨s, hrun, hnone⟩ := (any_eq_true _ _).mp hboth
  simp only [Bool.and_eq_true, isNone_iff_eq_none] at hnone
  have hquiescent : s.Quiescent := by
    rintro (_ | _ | t)
    · exact hnone.1
    · exact hnone.2
    · refine (threads_eq_of_run ?_ hrun).trans rfl
      simp [orderlyEvents, Event.thread]
  obtain ⟨old, hold, -⟩ := exists_makeEntry_text sampleConfig sampleConfig.policy (lit "k")
    (lit "old") [] (by decide)
  obtain ⟨new, hnew, -⟩ := exists_makeEntry_text sampleConfig sampleConfig.policy (lit "k")
    (lit "new") [] (by decide)
  let d₀ : Directory := { init (lit "root") (lit "/root") sampleConfig id with schemas := [] }
  have h₀ : d₀.WellFormed := (coherent_init _ _ _ _ _).toWellFormed
  have hindexed := (h₀.exec (.indexPut sampleKey old)).get_indexPut sampleKey new
  have halong : (Threads.start sampleSelf sampleConfig id []).Along exec Threads.Orderly
      orderlyEvents := by
    rw [orderlyEvents]
    refine along_cons (next_start rfl _) trivial (along_cons (next_start rfl _) trivial ?_)
    obtain ⟨s₁, h₁, h₂, ho₁, ho₂⟩ := next_sampleWrite (t := 0)
      (s := ⟨d₀, update (update (fun _ => none) 0 (some (sampleWrite "old"))) 1
        (some (sampleWrite "new"))⟩) hold rfl rfl rfl
    refine along_cons h₁ ho₁ (along_cons h₂ ho₂ ?_)
    obtain ⟨s₂, h₃, h₄, ho₃, ho₄⟩ := next_sampleWrite (t := 1)
      (s := ⟨d₀, update (update (update (fun _ => none) 0 (some (sampleWrite "old"))) 1
        (some (sampleWrite "new"))) 0 (some (sampleStore old))⟩) hnew rfl rfl rfl
    refine along_cons h₃ ho₃ (along_cons h₄ ho₄ ?_)
    refine along_cons (next_step rfl) trivial (along_cons (next_step rfl) trivial ?_)
    -- the old entry is no longer indexed, but the other thread is about to cache the new one
    refine along_cons (next_step rfl) (.inr ⟨1, by decide, _, rfl, rfl, hindexed⟩) ?_
    refine along_cons (next_step rfl) (.inl hindexed) ?_
    exact along_cons (next_finish rfl) trivial (along_cons (next_finish rfl) trivial trivial)
  refine ⟨s, hrun, hquiescent, halong, ?_⟩
  refine ((cache_settled_iff_orderly sampleSelf sampleConfig id [] orderlyEvents s ?_ hrun).2 halong
    hquiescent).1
  simp [orderlyEvents, IsCall, sampleWrite]

/-- The second write overtakes the first between the two sections of the first. -/
def staleEvents : List ThreadEvent :=
  [.start 0 (sampleWrite "old"), .start 1 (sampleWrite "new"),
    .step 0, .step 0, .step 0, .step 1, .step 1, .step 1, .step 1, .finish 1, .step 0, .finish 0]

def isStr (text : String) : Value → Bool
  | .str s => s = lit text
  | _ => false

theorem eq_of_isStr {text : String} {value : Value} (h : isStr text value = true) :
    value = .str (lit text) := by
  cases value <;> simp_all [isStr]

/-- When both writes have finished, the index holds the new text, but the cache holds the old one, and
this is what a read returns. -/
theorem stale_cache_sample : ∃ s : Threads,
    (∀ event ∈ staleEvents, IsCall sampleSelf event) ∧
    (Threads.start sampleSelf sampleConfig id []).run Directory.exec staleEvents = some s ∧
    s.Quiescent ∧
    (s.shared.entries.get sampleKey).map Entry.data = some (.str (lit "new")) ∧
    (s.shared.registry.lookup sampleKey).map Entry.data = some (.str (lit "old")) ∧
    ((readValue sampleSelf (lit "k")).run Directory.exec s.shared).1 = .ok (.str (lit "old")) := by
  have hstale : ((Threads.start sampleSelf sampleConfig id []).run exec staleEvents).any
      (fun s => (s.threads 0).isNone && (s.threads 1).isNone &&
        (s.shared.entries.get sampleKey).any (isStr "new" ·.data) &&
        (s.shared.registry.lookup sampleKey).any (isStr "old" ·.data) &&
        okAnd ((readValue sampleSelf (lit "k")).run exec s.shared).1 (isStr "old")) = true := by
    decide +kernel
  obtain ⟨s, hrun, htest⟩ := (any_eq_true _ _).mp hstale
  simp only [Bool.and_eq_true, isNone_iff_eq_none] at htest
  obtain ⟨⟨⟨⟨hzero, hone⟩, hindex⟩, hcache⟩, hread⟩ := htest
  obtain ⟨new, hnew, hnew'⟩ := (any_eq_true _ _).mp hindex
  obtain ⟨old, hold, hold'⟩ := (any_eq_true _ _).mp hcache
  obtain ⟨value, hvalue, hvalue'⟩ := exists_of_okAnd hread
  refine ⟨s, by simp [staleEvents, IsCall, sampleWrite], hrun, ?_, ?_, ?_, ?_⟩
  · rintro (_ | _ | t)
    · exact hzero
    · exact hone
    · refine (threads_eq_of_run ?_ hrun).trans rfl
      simp [staleEvents, Event.thread]
  · rw [hnew, map_some, eq_of_isStr hnew']
  · rw [hold, map_some, eq_of_isStr hold']
  · rw [hvalue, eq_of_isStr hvalue']

end Sample

end FileSystem
