import Tds.FileSystem.Contents

/-!
# A directory refines its contents
-/

namespace FileSystem

open Python Process Function Contents EntryIndex Directory

/-! ## Names -/

variable {key : Key} {op : Op} {α : Type}

theorem keyOf_eq_ok_iff {name : Str} : keyOf name = .ok key ↔ key.val = name := by
  unfold keyOf
  constructor
  · intro h
    split at h
    · cases h
      rfl
    · cases h
  · rintro rfl
    rw [dif_pos key.property]

@[simp] theorem keyOf_val (key : Key) : keyOf key.val = .ok key := keyOf_eq_ok_iff.mpr rfl

theorem run_ask_bind {σ : Type} {exec : (op : Op) → σ → op.Answer × σ} {a : op.Answer} {s s' : σ}
    (h : exec op s = (a, s')) (f : op.Answer → Method α) :
    (ask op >>= f).run exec s = (f a).run exec s' := by
  refine Prog.run_bind_ok exec ?_ f
  rw [ask, Prog.run_call, h]

/-! ## Methods on the contents -/

section Contents

variable (c : Contents)

@[simp] theorem Contents.entries_renew (config : RuntimeConfig) :
    (c.renew config).entries = c.entries := by
  unfold renew
  split <;> rfl

theorem run_deleteEntry (name : Str) :
    (deleteEntry name).run Contents.exec c =
      match keyOf name with
      | .error e => (.error e, c)
      | .ok key => (.ok (), c.delete key) := by
  unfold deleteEntry
  cases keyOf name <;> rfl

theorem run_exists? (name : Str) :
    (exists? name).run Contents.exec c =
      ((keyOf name).map fun key => (c.entries key).isSome, c) := by
  unfold exists?
  cases keyOf name <;> rfl

variable [Objects]

theorem run_validate (name : Str) (value : Value) :
    (validate name value).run Contents.exec c = (c.validate name value, c) := by
  have hschema : c.exec (.schema name) = (c.schemas.get name, c) := rfl
  unfold validate Contents.validate
  rw [run_ask_bind hschema]
  cases c.schemas.get name <;> rfl

theorem run_readValue (self : Self) (name : Str) :
    (readValue self name).run Contents.exec c = (c.read self name, c) := by
  unfold readValue Contents.read
  cases keyOf name with
  | error e => rfl
  | ok key =>
    have hbloom : c.exec (.bloomContains key) = (true, c) := rfl
    have hcache : c.exec (.cacheGet key) = (none, c) := rfl
    have hindex : c.exec (.indexGet key) = (c.entries key, c) := rfl
    rw [Prog.liftM_ok_bind, run_ask_bind hbloom, if_pos rfl, run_ask_bind hcache]
    dsimp only
    rw [run_ask_bind hindex]
    rw [ok_bind]
    cases c.entries key <;> rfl

variable [Runtime]

theorem run_writeEntry (config : RuntimeConfig) (args : WriteArgs) :
    (writeEntry config args).run Contents.exec c =
      match c.validate args.name args.value with
      | .error e => (.error e, c)
      | .ok () =>
        match c.prepare config args with
        | .error e => (.error e, c.renew config)
        | .ok (key, entry) => (.ok entry, (c.renew config).put key entry) := by
  have hvalidate := run_validate c args.name args.value
  unfold writeEntry
  cases hv : c.validate args.name args.value with
  | error e => exact Prog.run_bind_error _ (hv ▸ hvalidate) _
  | ok _ =>
    rw [Prog.run_bind_ok _ (hv ▸ hvalidate)]
    unfold prepare
    have hpolicy : c.exec (.policy config) = ((c.renew config).compressionPolicy, c.renew config) := rfl
    rw [run_ask_bind hpolicy]
    cases makeEntry config (c.renew config).compressionPolicy args with
    | error e => rfl
    | ok entry => cases keyOf args.name <;> rfl

end Contents

/-! ## Sections -/

namespace Directory

theorem coherent_init (name path : Str) (config : RuntimeConfig) (clock : Nat → Nat)
    (schemas : PyDict Str EntrySchema) :
    ({ init name path config clock with schemas := schemas } : Directory).Coherent where
  index := wellFormed_init
  registry := HybridRegistry.wellFormed_init 2048
  capacity := List.cons_ne_nil _ (List.replicate 2047 _)
  bloom key entry h := by
    have hnone : (init name path config clock).entries.get key = none := get_init key
    exact absurd (hnone.symm.trans h) (by simp)
  cache key entry h := by
    have hnone : (init name path config clock).registry.lookup key = none := rfl
    exact absurd (hnone.symm.trans h) (by simp)

theorem contents_init (name path : Str) (config : RuntimeConfig) (clock : Nat → Nat)
    (schemas : PyDict Str EntrySchema) :
    ({ init name path config clock with schemas := schemas } : Directory).contents =
      ⟨fun _ => none, schemas, config.policy, config.generation, [], []⟩ := by
  have hentries : (init name path config clock).entries.get = fun _ => none :=
    funext get_init
  exact congrArg (fun entries => (⟨entries, schemas, config.policy, config.generation, [], []⟩ : Contents))
    hentries

variable [Scores] {d : Directory}

theorem WellFormed.exec (h : d.WellFormed) (op : Op) : (d.exec op).2.WellFormed := by
  cases op with
  | policy config =>
    unfold Directory.exec
    dsimp only
    split
    · exact h
    · exact ⟨h.index, h.registry, h.capacity, h.bloom⟩
  | cacheGet key =>
    obtain ⟨-, hreg, hcap, -⟩ := h.registry.get key (d.clock 0)
    exact ⟨h.index, hreg, mt hcap.mp h.capacity, h.bloom⟩
  | cachePut key entry =>
    obtain ⟨hreg, hcap, -⟩ := h.registry.put h.capacity key entry (d.clock 0) (d.clock 1)
    exact ⟨h.index, hreg, hcap, h.bloom⟩
  | cacheRemove key =>
    obtain ⟨hreg, hcap, -⟩ := h.registry.remove key
    exact ⟨h.index, hreg, mt hcap.mp h.capacity, h.bloom⟩
  | indexPut key entry =>
    obtain ⟨hindex, hget⟩ := h.index.put key entry
    refine ⟨hindex, h.registry, h.capacity, fun key' entry' hentry => ?_⟩
    have hentry' : (if key' = key then some entry else d.entries.get key') = some entry' :=
      (hget key').symm.trans hentry
    by_cases hkey : key' = key
    · subst hkey
      exact d.bloom.contains_add_self key'
    · rw [if_neg hkey] at hentry'
      exact BloomFilter.contains_add (h.bloom key' entry' hentry') key
  | indexPop key =>
    obtain ⟨hindex, hget⟩ := h.index.pop key
    refine ⟨hindex, h.registry, h.capacity, fun key' entry' hentry => ?_⟩
    have hentry' : (if key' = key then none else d.entries.get key') = some entry' :=
      (hget key').symm.trans hentry
    by_cases hkey : key' = key
    · rw [if_pos hkey] at hentry'
      cases hentry'
    · rw [if_neg hkey] at hentry'
      exact h.bloom key' entry' hentry'
  | _ => exact ⟨h.index, h.registry, h.capacity, h.bloom⟩

theorem WellFormed.contents_exec (h : d.WellFormed) (op : Op) :
    (d.exec op).2.contents = (d.contents.exec op).2 := by
  cases op with
  | policy config =>
    by_cases hgen : config.generation = d.policyGeneration
    · have hgen' : config.generation = d.contents.policyGeneration := hgen
      simp only [Directory.exec, Contents.exec, Contents.renew, if_pos hgen, if_pos hgen']
    · have hgen' : ¬config.generation = d.contents.policyGeneration := hgen
      simp only [Directory.exec, Contents.exec, Contents.renew, if_neg hgen, if_neg hgen']
      rfl
  | indexPut key entry =>
    have hget : (d.entries.put key entry).get = update d.entries.get key (some entry) := by
      funext key'
      rw [(h.index.put key entry).2, update_apply]
    unfold Directory.exec Contents.exec Contents.put contents
    rw [hget]
  | indexPop key =>
    have hget : (d.entries.pop key).get = update d.entries.get key none := by
      funext key'
      rw [(h.index.pop key).2, update_apply]
    unfold Directory.exec Contents.exec Contents.delete contents
    rw [hget]
  | _ => rfl

/-- What stands in the cache after a section was put there by it, or stood there before. -/
theorem WellFormed.lookup_exec (h : d.WellFormed) {entry : Entry}
    (hlookup : (d.exec op).2.registry.lookup key = some entry) :
    op = .cachePut key entry ∨
      d.registry.lookup key = some entry ∧ op ≠ .cacheRemove key ∧ ∀ e, op ≠ .cachePut key e := by
  cases op with
  | policy config =>
    unfold Directory.exec at hlookup
    dsimp only at hlookup
    split at hlookup <;> exact .inr ⟨hlookup, by simp, by simp⟩
  | cacheGet key' =>
    obtain ⟨-, -, -, hget⟩ := h.registry.get key' (d.clock 0)
    exact .inr ⟨(hget key).symm.trans hlookup, by simp, by simp⟩
  | cachePut key' entry' =>
    obtain ⟨-, -, hself, hother⟩ := h.registry.put h.capacity key' entry' (d.clock 0) (d.clock 1)
    by_cases hkey : key = key'
    · subst hkey
      obtain rfl := Option.some.inj (hself.symm.trans hlookup)
      exact .inl rfl
    · refine .inr ⟨?_, by simp, fun e he => hkey ?_⟩
      · rcases hother key hkey with hsame | hnone
        · exact hsame.symm.trans hlookup
        · exact absurd (hnone.symm.trans hlookup) (by simp)
      · injection he with hk _
        exact hk.symm
  | cacheRemove key' =>
    obtain ⟨-, -, hremove⟩ := h.registry.remove key'
    have hlookup' : (if key = key' then none else d.registry.lookup key) = some entry :=
      (hremove key).symm.trans hlookup
    by_cases hkey : key = key'
    · rw [if_pos hkey] at hlookup'
      cases hlookup'
    · rw [if_neg hkey] at hlookup'
      refine .inr ⟨hlookup', fun he => hkey ?_, by simp⟩
      injection he with hk
      exact hk.symm
  | _ => exact .inr ⟨hlookup, by simp, by simp⟩

theorem WellFormed.get_exec (h : d.WellFormed) (op : Op) (key : Key) :
    (d.exec op).2.entries.get key = (d.contents.exec op).2.entries key :=
  congrFun (congrArg Contents.entries (h.contents_exec op)) key

theorem WellFormed.get_indexPut (h : d.WellFormed) (key : Key) (entry : Entry) :
    (d.exec (.indexPut key entry)).2.entries.get key = some entry := by
  rw [h.get_exec]
  exact update_self ..

theorem WellFormed.lookup_cachePut (h : d.WellFormed) (key : Key) (entry : Entry) :
    (d.exec (.cachePut key entry)).2.registry.lookup key = some entry :=
  (h.registry.put h.capacity key entry (d.clock 0) (d.clock 1)).2.2.1

/-- A section that leaves the indexed entry alone and caches no other one. -/
theorem WellFormed.agreesAt_exec (h : d.WellFormed) (hagree : d.AgreesAt key)
    (hindex : (d.contents.exec op).2.entries key = d.entries.get key)
    (hcache : ∀ entry, op = .cachePut key entry → d.entries.get key = some entry) :
    (d.exec op).2.AgreesAt key := by
  intro entry hlookup
  rw [h.get_exec, hindex]
  rcases h.lookup_exec hlookup with hput | ⟨hold, -, -⟩
  · exact hcache entry hput
  · exact hagree entry hold

/-- Putting an entry into the cache is right if and only if it is the indexed one. -/
theorem WellFormed.agreesAt_cachePut (h : d.WellFormed) (key : Key) (entry : Entry) :
    (d.exec (.cachePut key entry)).2.AgreesAt key ↔ d.entries.get key = some entry := by
  constructor
  · intro hagree
    exact hagree entry (h.lookup_cachePut key entry)
  · intro hget entry' hlookup
    rcases h.lookup_exec hlookup with hput | ⟨-, -, hne⟩
    · injection hput with _ heq
      exact heq ▸ hget
    · exact absurd rfl (hne entry)

theorem WellFormed.agreesAt_cacheRemove (h : d.WellFormed) (key : Key) :
    (d.exec (.cacheRemove key)).2.AgreesAt key := by
  intro entry hlookup
  rcases h.lookup_exec hlookup with hput | ⟨-, hne, -⟩
  · cases hput
  · exact absurd rfl hne

/-! ## Methods -/

theorem Coherent.exec (h : d.Coherent) (op : Op)
    (hindex : (d.contents.exec op).2.entries = d.contents.entries)
    (hcache : ∀ key entry, op = .cachePut key entry → d.entries.get key = some entry) :
    (d.exec op).2.Coherent :=
  ⟨h.toWellFormed.exec op, fun key =>
    h.agreesAt_exec (h.cache key) (congrFun hindex key) (hcache key)⟩

theorem Coherent.put (h : d.Coherent) (key : Key) (entry : Entry) :
    ((d.exec (.indexPut key entry)).2.exec (.cachePut key entry)).2.Coherent := by
  have hw := h.toWellFormed.exec (.indexPut key entry)
  refine ⟨hw.exec _, fun key' => ?_⟩
  by_cases hkey : key' = key
  · subst hkey
    exact (hw.agreesAt_cachePut key' entry).mpr (h.get_indexPut key' entry)
  · have hagree : (d.exec (.indexPut key entry)).2.AgreesAt key' :=
      h.agreesAt_exec (h.cache key') (update_of_ne hkey _ _) (by simp)
    refine hw.agreesAt_exec hagree rfl fun e he => ?_
    injection he with hk
    exact absurd hk.symm hkey

theorem Coherent.delete (h : d.Coherent) (key : Key) :
    ((d.exec (.indexPop key)).2.exec (.cacheRemove key)).2.Coherent := by
  have hw := h.toWellFormed.exec (.indexPop key)
  refine ⟨hw.exec _, fun key' => ?_⟩
  by_cases hkey : key' = key
  · subst hkey
    exact hw.agreesAt_cacheRemove key'
  · have hagree : (d.exec (.indexPop key)).2.AgreesAt key' :=
      h.agreesAt_exec (h.cache key') (update_of_ne hkey _ _) (by simp)
    exact hw.agreesAt_exec hagree rfl (by simp)

end Directory

section Simulates

variable [Scores] {d : Directory}

/-- A section that both machines answer alike, and that concerns neither the cache nor the index. -/
theorem simulates_ask (h : d.Coherent) (hans : (d.contents.exec op).1 = (d.exec op).1)
    (hindex : (d.contents.exec op).2.entries = d.contents.entries)
    (hcache : ∀ key entry, op = .cachePut key entry → d.entries.get key = some entry) :
    (ask op).Simulates abstraction d :=
  .call hans (h.contents_exec op).symm (h.exec op hindex hcache)

theorem simulates_liftM (h : d.Coherent) (r : Check α) :
    (liftM r : Method α).Simulates abstraction d :=
  .done r h

theorem simulates_tryExcept {x : Method α} (hx : x.Simulates abstraction d) :
    (x.attempt fun r => .done (.ok r) : Method (Check α)).Simulates abstraction d :=
  hx.attempt fun _ h => .done _ h

theorem simulates_exists? (h : d.Coherent) (name : Str) :
    (exists? name).Simulates abstraction d :=
  (simulates_liftM h (keyOf name)).bind fun key _ h' =>
    simulates_ask h' (contains_eq h'.index).symm rfl (by simp)

theorem simulates_deleteEntry (h : d.Coherent) (name : Str) :
    (deleteEntry name).Simulates abstraction d := by
  refine (simulates_liftM h (keyOf name)).bind fun key d' h' => ⟨?_, h'.delete key⟩
  have habs := ((h'.toWellFormed.exec (.indexPop key)).contents_exec (.cacheRemove key)).trans
    (h'.contents_exec (.indexPop key))
  exact congrArg _ habs.symm

variable [Objects]

theorem simulates_validate (h : d.Coherent) (name : Str) (value : Value) :
    (validate name value).Simulates abstraction d := by
  refine (simulates_ask h rfl rfl (by simp)).bind fun schema d' h' => ?_
  cases schema with
  | none => exact .done _ h'
  | some schema => exact simulates_liftM h' _

theorem simulates_readValue (h : d.Coherent) (self : Self) (name : Str) :
    (readValue self name).Simulates abstraction d := by
  suffices hrun : ∃ d', (readValue self name).run Directory.exec d = (d.contents.read self name, d') ∧
      d'.contents = d.contents ∧ d'.Coherent by
    obtain ⟨d', hrun, hcontents, h'⟩ := hrun
    refine .of_run hrun ?_ h'
    rw [show Directory.abstraction.abs d' = d.contents from hcontents]
    exact run_readValue d.contents self name
  unfold readValue Contents.read
  cases keyOf name with
  | error e => exact ⟨d, rfl, rfl, h⟩
  | ok key =>
    have hbloom : d.exec (.bloomContains key) = (d.bloom.contains key, d) := rfl
    rw [Prog.liftM_ok_bind, run_ask_bind hbloom]
    have hentries : d.contents.entries key = d.entries.get key := rfl
    rw [ok_bind, hentries]
    split
    · -- the filter lets the name pass
      obtain ⟨hget, -⟩ := h.registry.get key (d.clock 0)
      have hcache : d.exec (.cacheGet key) =
          (d.registry.lookup key, (d.exec (.cacheGet key)).2) := Prod.ext hget rfl
      have h₁ := h.exec (.cacheGet key) rfl (by simp)
      rw [run_ask_bind hcache]
      cases hlookup : d.registry.lookup key with
      | some cached =>
        rw [h.cache key cached hlookup]
        exact ⟨_, rfl, rfl, h₁⟩
      | none =>
        have hindex : (d.exec (.cacheGet key)).2.exec (.indexGet key) =
            (d.entries.get key, (d.exec (.cacheGet key)).2) := rfl
        dsimp only
        rw [run_ask_bind hindex]
        cases hentry : d.entries.get key with
        | none => exact ⟨_, rfl, rfl, h₁⟩
        | some entry =>
          refine ⟨_, rfl, h₁.contents_exec (.cachePut key entry), ?_⟩
          refine h₁.exec (.cachePut key entry) rfl fun key' entry' heq => ?_
          obtain ⟨rfl, rfl⟩ := Op.cachePut.inj heq
          exact hentry
    · next hfilter =>
      cases hentry : d.entries.get key with
      | none => exact ⟨d, rfl, rfl, h⟩
      | some entry => exact absurd (h.bloom key entry hentry) hfilter

theorem simulates_writeEntry [Runtime] (h : d.Coherent) (config : RuntimeConfig) (args : WriteArgs) :
    (writeEntry config args).Simulates abstraction d := by
  refine (simulates_validate h args.name args.value).bind fun _ d₁ h₁ => ?_
  have hpolicy : (ask (.policy config)).Simulates Directory.abstraction d₁ := by
    refine simulates_ask h₁ ?_ (Contents.entries_renew _ config) (by simp)
    show (d₁.contents.renew config).compressionPolicy = _
    by_cases hgen : config.generation = d₁.policyGeneration
    · have hgen' : config.generation = d₁.contents.policyGeneration := hgen
      simp only [Directory.exec, Contents.renew, if_pos hgen, if_pos hgen']
      rfl
    · have hgen' : ¬config.generation = d₁.contents.policyGeneration := hgen
      simp only [Directory.exec, Contents.renew, if_neg hgen, if_neg hgen']
  refine hpolicy.bind fun policy d₂ h₂ => ?_
  refine (simulates_liftM h₂ _).bind fun entry d₃ h₃ => ?_
  refine (simulates_liftM h₃ _).bind fun key d₄ h₄ => ⟨?_, h₄.put key entry⟩
  have habs := ((h₄.toWellFormed.exec (.indexPut key entry)).contents_exec
    (.cachePut key entry)).trans (h₄.contents_exec (.indexPut key entry))
  exact congrArg _ habs.symm

end Simulates

end FileSystem
