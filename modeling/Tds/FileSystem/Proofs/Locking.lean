import Tds.FileSystem.Locking
import Tds.FileSystem.Proofs.Footprint

/-!
# Locked variables keep their value

`locked_value_kept`: along a run of operations that respect the lock of a variable, the variable stays
locked and keeps its value. The methods that store text and documents, the raw methods, and the chains of
other variables do not look at the lock.
-/

namespace FileSystem

open Python Process Prog Prog.Asks Contents

section Operations

variable [Runtime] [Objects] {N : Str → Prop} {name : Str}

theorem uses_deleteNames {names : List Str} (h : ∀ name ∈ names, N name) :
    Uses N (deleteNames names) := by
  induction names with
  | nil => exact .done _
  | cons name names ih =>
    rw [List.forall_mem_cons] at h
    refine .bind (.exists? name) fun found => ?_
    split
    · exact .bind (.deleteEntry h.1) fun _ => .bind (ih h.2) fun _ => .done _
    · exact ih h.2

variable (self : Self)

theorem uses_lockvar (locked : Bool) (h : N name) :
    Uses N (lockvar self name locked) := by
  refine .bind (.exists? name) fun found => ?_
  split
  · exact .bind (.ask h) fun _ => .done _
  · exact .done _

theorem uses_findvar (name : Str) : Uses N (findvar self name) := by
  refine .bind (.exists? name) fun found => ?_
  split
  · exact .bind (.readValue self name) fun _ => .done _
  · exact .done _

theorem uses_readResult (name : Str) : Uses N (readResult self name) := by
  refine .bind (.tryExcept (.readValue self name)) fun value => ?_
  split <;> exact .done _

theorem uses_readTextResult (name : Str) : Uses N (readTextResult self name) := by
  refine .bind (.tryExcept (uses_readText self name)) fun text => ?_
  split <;> exact .done _

theorem uses_deleteResult (h : N name) : Uses N (deleteResult self name) := by
  refine .bind (.ask trivial) fun locked => ?_
  split
  · exact .done _
  · refine .bind (.tryExcept (.bind (.exists? name) fun existed => .bind (.deleteEntry h) fun _ => ?_))
      fun deleted => ?_
    · exact .bind (.ask h) fun _ => .done _
    · split <;> exact .done _

variable (self : Self) (config : RuntimeConfig)

theorem uses_writeResult {args : WriteArgs} (h : N args.name) :
    Uses N (writeResult self config args) := by
  refine .bind (.ask trivial) fun locked => ?_
  split
  · exact .done _
  · refine .bind (.tryExcept (.writeEntry config h)) fun written => ?_
    split <;> exact .done _

theorem uses_stored {args : WriteArgs} (h : N args.name) (result : Result) :
    Uses N (writeEntry config args >>= fun _ => (pure result : Method Result)) :=
  .bind (.writeEntry config h) fun _ => .done _

theorem uses_writeJson (value : Value) (overwrite : Bool) (compress : Option Bool) (codec : Str)
    (h : N name) : Uses N (writeJson self config name value overwrite compress codec) := by
  refine .bind (.exists? name) fun found => ?_
  split
  · exact .done _
  · exact uses_stored config h _

theorem uses_writeText (text : Value) (overwrite : Bool) (compress : Option Bool) (codec : Str)
    (h : N name) : Uses N (writeText self config name text overwrite compress codec) := by
  unfold writeText
  split
  · refine .bind (.exists? name) fun found => ?_
    split
    · exact .done _
    · exact uses_stored config h _
  · exact .done _

variable (data : Value)

theorem uses_addvar (h : N name) : Uses N (addvar self config name data) := by
  refine .bind (.exists? name) fun found => ?_
  split
  · exact .done _
  · exact uses_stored config h _

theorem uses_editvar (overwrite : Bool) (h : N name) :
    Uses N (editvar self config name data overwrite) := by
  refine .bind (.ask trivial) fun locked => ?_
  split
  · exact .done _
  · refine .bind (.exists? name) fun found => ?_
    split
    · split
      · exact uses_stored config h _
      · exact .done _
    · exact uses_stored config h _

theorem uses_replaceBase (hadChain : Bool) (h : N name) :
    Uses N (replaceBase self config name data hadChain) := by
  refine .bind (.exists? name) fun found => ?_
  split
  · exact uses_stored config h _
  · exact uses_stored config h _

theorem uses_clearChain (base : Str) : Uses (fun _ => True) (clearChain base) := by
  refine .bind (.ask trivial) fun state => ?_
  cases state with
  | none => exact .done _
  | some state =>
    refine .bind (uses_deleteNames fun _ _ => trivial) fun _ => ?_
    exact .bind (.ask trivial) fun _ => .done _

theorem uses_extendChain (base : Str) (data : Value) :
    Uses (fun _ => True) (extendChain self config base data) := by
  refine .bind (.bind (.ask trivial) fun state => ?_) fun state => ?_
  · cases state with
    | none => exact .bind (.ask trivial) fun _ => .done _
    | some state => exact .done _
  · refine .bind (.readValue self _) fun previous => .bind (.done _) fun combined => ?_
    refine .bind (.exists? _) fun found => ?_
    split
    · exact .done _
    · exact .bind (.writeEntry config trivial) fun _ => .bind (.ask trivial) fun _ => .done _

theorem uses_stalkvar (name : Str) (data : Value) :
    Uses (fun _ => True) (stalkvar self config name data) := by
  unfold stalkvar
  split
  · split
    · exact .done _
    · refine .bind (.ask trivial) fun locked => ?_
      split
      · exact .done _
      · refine .bind (.exists? _) fun found => ?_
        split
        · exact uses_extendChain self config _ data
        · exact .done _
  · refine .bind (.ask trivial) fun locked => ?_
    split
    · exact .done _
    · refine .bind (.ask trivial) fun state => .bind (uses_clearChain _) fun _ => ?_
      split
      · split <;> exact .done _
      · exact uses_replaceBase self config _ _ trivial

theorem uses_operation (operation : Operation) :
    Uses (fun _ => True) (operation.method self) := by
  cases operation with
  | writeEntry | writeVariable => exact .bind (.writeEntry _ trivial) fun _ => .done _
  | write => exact .bind (uses_writeResult self _ trivial) fun _ => .done _
  | writeJson => exact .bind (uses_writeJson self _ _ _ _ _ trivial) fun _ => .done _
  | writeText => exact .bind (uses_writeText self _ _ _ _ _ trivial) fun _ => .done _
  | writeTextChunked => exact .bind (uses_writeTextChunked self _ _) fun _ => .done _
  | readValue | loadvar => exact .bind (.readValue self _) fun _ => .done _
  | read => exact .bind (uses_readResult self _) fun _ => .done _
  | readText => exact .bind (uses_readText self _) fun _ => .done _
  | readTextResult => exact .bind (uses_readTextResult self _) fun _ => .done _
  | deleteEntry => exact .bind (.deleteEntry trivial) fun _ => .done _
  | delete => exact .bind (uses_deleteResult self trivial) fun _ => .done _
  | addvar => exact .bind (uses_addvar self _ _ trivial) fun _ => .done _
  | editvar => exact .bind (uses_editvar self _ _ _ trivial) fun _ => .done _
  | lockvar | unlockvar => exact .bind (uses_lockvar self _ trivial) fun _ => .done _
  | stalkvar => exact .bind (uses_stalkvar self _ _ _) fun _ => .done _
  | findvar => exact .bind (uses_findvar self _) fun _ => .done _

end Operations

/-! ## What a method leaves alone -/

/-- The section neither stores nor deletes under the name, nor changes its lock. -/
def Avoids (n : Key) : Op → Prop
  | .indexPut key _ => key ≠ n
  | .indexPop key => key ≠ n
  | .lockSet name _ => name ≠ n.val
  | .lockPop name => name ≠ n.val
  | _ => True

namespace Contents

structure Keeps (n : Key) (c c' : Contents) : Prop where
  lock : c'.lockvars.get n.val = c.lockvars.get n.val
  entry : c'.entries n = c.entries n

variable {n : Key} {c c' c'' : Contents}

theorem Keeps.refl (c : Contents) : c.Keeps n c := ⟨rfl, rfl⟩

theorem Keeps.trans (h : c.Keeps n c') (h' : c'.Keeps n c'') : c.Keeps n c'' :=
  ⟨h'.lock.trans h.lock, h'.entry.trans h.entry⟩

theorem Upto.keeps {P : Key → Prop} (h : c.Upto P c') (hn : ¬ P n) : c.Keeps n c' :=
  ⟨by rw [h.lockvars], h.entries n hn⟩

theorem Keeps.holds (h : c.Keeps n c') {v : Value} (hold : c.Holds n v) : c'.Holds n v :=
  ⟨h.lock.trans hold.1, by rw [value, h.entry]; exact hold.2⟩

theorem keeps_exec {op : Op} (h : Avoids n op) (c : Contents) : c.Keeps n (c.exec op).2 := by
  cases op with
  | policy config => exact (c.upto_renew (P := fun _ => False) config).keeps id
  | indexPut key entry => exact ⟨rfl, Function.update_of_ne (Ne.symm h) _ _⟩
  | indexPop key => exact ⟨rfl, Function.update_of_ne (Ne.symm h) _ _⟩
  | lockSet name locked => exact ⟨PyDict.get_set_of_ne _ _ (Ne.symm h), rfl⟩
  | lockPop name => exact ⟨PyDict.get_pop_of_ne _ (Ne.symm h), rfl⟩
  | _ => exact ⟨rfl, rfl⟩

end Contents

section Avoids

variable {name : Str} {n : Key} {α : Type}

theorem asks_liftM (r : Check α) : (liftM r : Method α).Asks (Avoids n) := trivial

theorem ne_of_keyOf {key : Key} (hkey : keyOf name = .ok key) (h : name ≠ n.val) : key ≠ n := by
  rintro rfl
  exact h (keyOf_eq_ok_iff.mp hkey).symm

theorem asks_deleteEntry (h : name ≠ n.val) : (deleteEntry name).Asks (Avoids n) := by
  unfold deleteEntry
  cases hkey : keyOf name with
  | error e => trivial
  | ok key =>
    rw [liftM_ok_bind]
    exact bind (.call (ne_of_keyOf hkey h)) fun _ => .call trivial

variable [Objects]

theorem asks_readValue (self : Self) (name : Str) : (readValue self name).Asks (Avoids n) := by
  refine (asks_liftM _).bind fun key => ?_
  refine bind (.call trivial) fun passed => ?_
  split
  · refine bind (.call trivial) fun cached => ?_
    cases cached with
    | some entry => trivial
    | none =>
      refine bind (.call trivial) fun entry => ?_
      cases entry with
      | none => trivial
      | some entry => exact bind (.call trivial) fun _ => trivial
  · trivial

variable [Runtime]

theorem asks_writeEntry (config : RuntimeConfig) {args : WriteArgs} (h : args.name ≠ n.val) :
    (writeEntry config args).Asks (Avoids n) := by
  refine bind ?_ fun _ => ?_
  · refine bind (.call trivial) fun schema => ?_
    cases schema with
    | none => trivial
    | some schema => exact asks_liftM _
  · refine bind (.call trivial) fun policy => ?_
    refine (asks_liftM _).bind fun entry => ?_
    cases hkey : keyOf args.name with
    | error e => trivial
    | ok key =>
      rw [liftM_ok_bind]
      refine bind (.call (ne_of_keyOf hkey h)) fun _ => ?_
      exact .bind (.call trivial) fun _ => trivial

theorem Uses.asks {x : Method α} (hx : Uses (· ≠ n.val) x) : x.Asks (Avoids n) := by
  induction hx with
  | done r => trivial
  | bind _ _ ihx ihf => exact ihx.bind ihf
  | tryExcept _ ih => exact ih.attempt fun _ => trivial
  | @ask op hop =>
    cases op with
    | lockGet | stalkGet | stalkSet | stalkPop => exact .call trivial
    | lockSet | lockPop => exact .call hop
    | _ => exact hop.elim
  | exists? name => exact (asks_liftM _).bind fun _ => .call trivial
  | readValue self name => exact asks_readValue self name
  | writeEntry config h => exact asks_writeEntry config h
  | deleteEntry h => exact asks_deleteEntry h

theorem Uses.keeps {x : Method α} (hx : Uses (· ≠ n.val) x) (c : Contents) :
    c.Keeps n (x.run Contents.exec c).2 :=
  run_of_asks exec (fun c => .refl c) (fun _ _ _ => .trans)
    (fun _ hop c => c.keeps_exec hop) hx.asks c

end Avoids

/-! ## One operation -/

section Keep

variable {name : Str} {n : Key} {c : Contents} {α β : Type}

theorem keeps_bind_pure {x : Method α} (h : c.Keeps n (x.run Contents.exec c).2) (f : α → β) :
    c.Keeps n ((x >>= fun a => pure (f a)).run Contents.exec c).2 := by
  rwa [run_bind_pure]

theorem keeps_bind {x : Method α} {f : α → Method β} (h : c.Keeps n (x.run Contents.exec c).2)
    (hf : ∀ a c', x.run Contents.exec c = (.ok a, c') → c'.Keeps n ((f a).run Contents.exec c').2) :
    c.Keeps n ((x >>= f).run Contents.exec c).2 := by
  cases hrun : (x.run exec c).1 with
  | ok a =>
    have hok : x.run exec c = (.ok a, (x.run exec c).2) := Prod.ext hrun rfl
    rw [run_bind_ok _ hok]
    exact h.trans (hf a _ hok)
  | error e =>
    have herror : x.run exec c = (.error e, (x.run exec c).2) := Prod.ext hrun rfl
    rw [run_bind_error _ herror]
    exact h

theorem run_exists?_of_value {v : Value} (hvalue : c.value n = some v) :
    (exists? n.val).run Contents.exec c = (.ok true, c) := by
  rw [run_exists?, keyOf_val, map_ok]
  rw [value, Option.map_eq_some_iff] at hvalue
  obtain ⟨entry, hentry, -⟩ := hvalue
  rw [hentry, Option.isSome_some]

theorem run_chainState (base : Str) : ∃ c', (chainState base).run Contents.exec c =
    (.ok ((c.stalkvars.get base).getD (.new base)), c') ∧ c.Keeps n c' := by
  have hask : c.exec (.stalkGet base) = (c.stalkvars.get base, c) := rfl
  unfold chainState
  rw [run_ask_bind hask]
  cases c.stalkvars.get base with
  | none => exact ⟨_, rfl, rfl, rfl⟩
  | some state => exact ⟨c, rfl, .refl c⟩

variable [Runtime] [Objects]

/-- A method that begins with the lock of its own name does nothing when the name is locked, and
otherwise the name is another one. -/
theorem keeps_guarded (hlock : c.lockvars.get n.val = some true) {f : Bool → Method α}
    (hlocked : Uses (· ≠ n.val) (f true))
    (hunlocked : name ≠ n.val → c.lockvars.get name ≠ some true →
      c.Keeps n ((f false).run Contents.exec c).2) :
    c.Keeps n ((ask (.lockGet name) >>= f).run Contents.exec c).2 := by
  have hask : c.exec (.lockGet name) = ((c.lockvars.get name).getD false, c) := rfl
  rw [run_ask_bind hask]
  by_cases hname : c.lockvars.get name = some true
  · rw [hname]
    exact hlocked.keeps c
  · have hfalse : (c.lockvars.get name).getD false = false := by
      cases hget : c.lockvars.get name with
      | none => rfl
      | some b =>
        rw [hget] at hname
        simpa using hname
    rw [hfalse]
    refine hunlocked ?_ hname
    rintro rfl
    exact hname hlock

/-- The same for a method that changes only its own name. -/
theorem keeps_own (hlock : c.lockvars.get n.val = some true) {f : Bool → Method α}
    (hlocked : Uses (· ≠ n.val) (f true))
    (huses : name ≠ n.val → Uses (· ≠ n.val) (ask (.lockGet name) >>= f)) :
    c.Keeps n ((ask (.lockGet name) >>= f).run Contents.exec c).2 := by
  by_cases hname : name = n.val
  · exact keeps_guarded hlock hlocked fun hne _ => absurd hname hne
  · exact (huses hname).keeps c

theorem keeps_new {v : Value} (hvalue : c.value n = some v) {f : Bool → Method α}
    (hfound : name = n.val → Uses (· ≠ n.val) (f true))
    (hnew : name ≠ n.val → Uses (· ≠ n.val) (exists? name >>= f)) :
    c.Keeps n ((exists? name >>= f).run Contents.exec c).2 := by
  by_cases hname : name = n.val
  · rw [hname, run_bind_ok _ (run_exists?_of_value hvalue)]
    exact (hfound hname).keeps c
  · exact (hnew hname).keeps c

theorem keeps_clearChain (base : Str)
    (hchain : ∀ state, c.stalkvars.get base = some state → n.val ∉ state.chainNames) :
    c.Keeps n ((clearChain base).run Contents.exec c).2 := by
  have hask : c.exec (.stalkGet base) = (c.stalkvars.get base, c) := rfl
  unfold clearChain
  rw [run_ask_bind hask]
  cases hget : c.stalkvars.get base with
  | none => exact .refl c
  | some state =>
    have hother : ∀ name ∈ state.chainNames, name ≠ n.val := by
      rintro name hname rfl
      exact hchain state hget hname
    refine Uses.keeps (.bind (uses_deleteNames hother) fun _ => ?_) c
    exact .bind (.ask trivial) fun _ => .done _

variable (self : Self) {v : Value} (hold : c.Holds n v) (config : RuntimeConfig)
include hold

theorem keeps_lockvar {locked : Bool} (h : name = n.val → locked = true) :
    c.Keeps n ((lockvar self name locked).run Contents.exec c).2 := by
  by_cases hname : name = n.val
  · obtain rfl := h hname
    unfold lockvar
    rw [hname, run_bind_ok _ (run_exists?_of_value hold.2)]
    exact ⟨(PyDict.get_set_self ..).trans hold.1.symm, rfl⟩
  · exact (uses_lockvar self locked hname).keeps c

theorem keeps_extendChain (base : Str) (data : Value)
    (hchain : ∀ state, c.stalkvars.get base = some state → n.val ∉ state.chainNames) :
    c.Keeps n ((extendChain self config base data).run Contents.exec c).2 := by
  obtain ⟨c₁, hstate, hkeeps⟩ := run_chainState (n := n) (c := c) base
  set state := (c.stalkvars.get base).getD (.new base) with hdef
  have hnot : n.val ∉ state.chainNames := by
    cases hget : c.stalkvars.get base with
    | none =>
      rw [hdef, hget]
      exact List.not_mem_nil
    | some state' =>
      rw [hdef, hget]
      exact hchain state' hget
  unfold extendChain
  rw [run_bind_ok _ hstate]
  refine hkeeps.trans (keeps_bind ((Uses.readValue self _).keeps c₁) ?_)
  intro previous c₂ hread
  rw [run_readValue] at hread
  obtain rfl : c₁ = c₂ := congrArg Prod.snd hread
  cases mergeValues previous data with
  | error e => exact .refl c₁
  | ok combined =>
    rw [liftM_ok_bind]
    refine keeps_new (hkeeps.holds hold).2 (fun hnext => ?_) fun hnext => ?_
    · have hcollide : (true && !state.chainNames.contains (incrementName base (state.latestIndex + 1))) =
          true := by
        rw [hnext]
        simpa using hnot
      rw [if_pos hcollide]
      exact .done _
    · refine .bind (.exists? _) fun found => ?_
      split
      · exact .done _
      · exact .bind (.writeEntry config hnext) fun _ => .bind (.ask trivial) fun _ => .done _

theorem keeps_stalkvar (name : Str) (data : Value)
    (h : (Operation.stalkvar config name data).Spares c n) :
    c.Keeps n ((stalkvar self config name data).run Contents.exec c).2 := by
  have hchain : c.lockvars.get (Operation.stalkBase name) ≠ some true → ∀ state,
      c.stalkvars.get (Operation.stalkBase name) = some state → n.val ∉ state.chainNames :=
    fun hunlocked state hstate hmem => hunlocked (h state hstate hmem)
  unfold stalkvar
  split
  · next base =>
    split
    · exact .refl c
    · refine keeps_guarded hold.1 (.done _) fun hbase hunlocked => ?_
      refine keeps_bind ((Uses.exists? base).keeps c) fun found c' hrun => ?_
      rw [run_exists?] at hrun
      obtain rfl : c = c' := congrArg Prod.snd hrun
      split
      · exact keeps_extendChain self hold config base data (hchain hunlocked)
      · exact .refl c
  · next base hbase =>
    have hstalk : Operation.stalkBase name = name := by
      unfold Operation.stalkBase
      split
      · next base => exact absurd rfl (hbase base)
      · rfl
    rw [hstalk] at hchain
    refine keeps_guarded hold.1 (.done _) fun hname hunlocked => ?_
    have hask : c.exec (.stalkGet name) = (c.stalkvars.get name, c) := rfl
    rw [if_neg Bool.false_ne_true, run_ask_bind hask]
    refine keeps_bind (keeps_clearChain name (hchain hunlocked)) fun removed c' _ => ?_
    refine Uses.keeps ?_ c'
    split
    · split <;> exact .done _
    · exact uses_replaceBase self config _ _ hname

variable {overwrite : Bool}

theorem keeps_writeJson (name : Str) (value : Value) (compress : Option Bool) (codec : Str)
    (h : name = n.val → overwrite = false) :
    c.Keeps n ((writeJson self config name value overwrite compress codec).run Contents.exec c).2 := by
  refine keeps_new hold.2 (fun hname => ?_) fun hname => ?_
  · rw [h hname]
    exact .done _
  · exact uses_writeJson self config value overwrite compress codec hname

theorem keeps_writeText (name : Str) (text : Value) (compress : Option Bool) (codec : Str)
    (h : name = n.val → overwrite = false) :
    c.Keeps n ((writeText self config name text overwrite compress codec).run Contents.exec c).2 := by
  by_cases hname : name = n.val
  · unfold writeText
    split
    · refine keeps_new hold.2 (fun _ => ?_) fun hne => absurd hname hne
      rw [h hname]
      exact .done _
    · exact .refl c
  · exact (uses_writeText self config text overwrite compress codec hname).keeps c

omit hold

theorem keeps_writeTextChunked {args : ChunkedArgs}
    (h : (Operation.writeTextChunked config args).Spares c n) :
    c.Keeps n ((writeTextChunked self config args).run Contents.exec c).2 := by
  cases hkey : keyOf args.name with
  | error e =>
    rw [writeTextChunked_of_keyOf_error c self config hkey]
    exact .refl c
  | ok b =>
    have hb := keyOf_eq_ok_iff.mp hkey
    by_cases htouch : c.Touches b n
    · obtain ⟨hkeep, hexists⟩ := h b hb htouch
      rw [writeTextChunked_of_exists c self config hb.symm hexists hkeep]
      exact .refl c
    · exact (upto_writeTextChunked c self config hb.symm).keeps htouch

theorem keeps_operation (hold : c.Holds n v) (operation : Operation)
    (hspares : operation.Spares c n) (hlock : ¬ operation.Unlocks n) :
    c.Keeps n ((operation.method self).run Contents.exec c).2 := by
  cases operation with
  | writeEntry | writeVariable => exact keeps_bind_pure ((Uses.writeEntry _ hspares).keeps c) _
  | write =>
    exact keeps_bind_pure (keeps_own hold.1 (.done _) fun h => uses_writeResult self _ h) _
  | writeJson => exact keeps_bind_pure (keeps_writeJson self hold _ _ _ _ _ hspares) _
  | writeText => exact keeps_bind_pure (keeps_writeText self hold _ _ _ _ _ hspares) _
  | writeTextChunked => exact keeps_bind_pure (keeps_writeTextChunked self _ hspares) _
  | readValue | loadvar => exact keeps_bind_pure ((Uses.readValue self _).keeps c) _
  | read => exact keeps_bind_pure ((uses_readResult self _).keeps c) _
  | readText => exact keeps_bind_pure ((uses_readText self _).keeps c) _
  | readTextResult => exact keeps_bind_pure ((uses_readTextResult self _).keeps c) _
  | deleteEntry => exact keeps_bind_pure ((Uses.deleteEntry hspares).keeps c) _
  | delete => exact keeps_bind_pure (keeps_own hold.1 (.done _) fun h => uses_deleteResult self h) _
  | addvar =>
    refine keeps_bind_pure (keeps_new hold.2 (fun _ => ?_) fun h => uses_addvar self _ _ h) _
    exact .done _
  | editvar =>
    exact keeps_bind_pure (keeps_own hold.1 (.done _) fun h => uses_editvar self _ _ _ h) _
  | lockvar name locked =>
    refine keeps_bind_pure (keeps_lockvar self hold fun hname => ?_) _
    by_contra hfalse
    exact hlock ⟨hname, Bool.eq_false_of_not_eq_true hfalse⟩
  | unlockvar name => exact keeps_bind_pure (keeps_lockvar self hold fun hname => absurd hname hlock) _
  | stalkvar => exact keeps_bind_pure (keeps_stalkvar self hold _ _ _ hspares) _
  | findvar => exact keeps_bind_pure ((uses_findvar self _).keeps c) _

end Keep

section Runs

variable [Objects] [Scores] {d : Directory} {n : Key} {v : Value}

theorem fst_run_readValue (h : d.Coherent) (self : Self) (name : Str) :
    ((readValue self name).run Directory.exec d).1 = d.contents.read self name := by
  obtain ⟨d', hrun, -, -⟩ := (simulates_readValue h self name).exists_run
  exact (congrArg Prod.fst hrun).trans (congrArg Prod.fst (run_readValue d.contents self name))

variable [Runtime]

theorem coherent_perform (h : d.Coherent) (self : Self) (operation : Operation) :
    (d.perform self operation).Coherent :=
  ((uses_operation self operation).simulates h).inv

theorem contents_perform (h : d.Coherent) (self : Self) (operation : Operation) :
    (d.perform self operation).contents =
      ((operation.method self).run Contents.exec d.contents).2 :=
  (congrArg Prod.snd ((uses_operation self operation).simulates h).run_abs).symm

theorem contents_performAll (h : d.Coherent) (self : Self) (operations : List Operation) :
    (d.performAll self operations).Coherent ∧ (d.performAll self operations).contents =
      operations.foldl (fun c o => ((o.method self).run Contents.exec c).2) d.contents := by
  induction operations generalizing d with
  | nil => exact ⟨h, rfl⟩
  | cons operation operations ih =>
    rw [List.foldl_cons, ← contents_perform h]
    exact ih (coherent_perform h self operation)

/-- After any operations on a new directory an operation returns what it does on the plain contents. -/
theorem outcome_performAll (name path : Str) (config : RuntimeConfig) (clock : Nat → Nat)
    (schemas : PyDict Str EntrySchema) (self : Self) (operations : List Operation)
    (operation : Operation) :
    ((operation.method self).run Directory.exec (Directory.performAll
      { Directory.init name path config clock with schemas := schemas } self operations)).1 =
    ((operation.method self).run Contents.exec
      (operations.foldl (fun c o => ((o.method self).run Contents.exec c).2)
        ⟨fun _ => none, schemas, config.policy, config.generation, [], []⟩)).1 := by
  obtain ⟨hcoherent, hcontents⟩ :=
    contents_performAll (Directory.coherent_init name path config clock schemas) self operations
  rw [← Directory.contents_init name path config clock schemas, ← hcontents]
  exact (congrArg Prod.fst ((uses_operation self operation).simulates hcoherent).run_abs).symm

theorem SparedBy.take {self : Self} {operations : List Operation} (h : d.SparedBy self n operations)
    (k : Nat) : d.SparedBy self n (operations.take k) := by
  induction operations generalizing d k with
  | nil => rwa [List.take_nil]
  | cons operation operations ih =>
    cases k with
    | zero => trivial
    | succ k => exact ⟨h.1, h.2.1, ih h.2.2 k⟩

theorem holds_performAll (h : d.Coherent) (self : Self) {operations : List Operation}
    (hspared : d.SparedBy self n operations) (hold : d.contents.Holds n v) :
    (d.performAll self operations).Coherent ∧ (d.performAll self operations).contents.Holds n v := by
  induction operations generalizing d with
  | nil => exact ⟨h, hold⟩
  | cons operation operations ih =>
    refine ih (coherent_perform h self operation) hspared.2.2 ?_
    rw [contents_perform h]
    exact (keeps_operation self hold operation hspared.1 hspared.2.1).holds hold

/-- Along a run of operations that respect its lock, a locked variable stays locked and is always read
with the same value. -/
theorem locked_value_kept (d : Directory) (h : d.Coherent) (self : Self) (n : Key) (v : Value)
    (hlock : d.lockvars.get n.val = some true)
    (hread : ((readValue self n.val).run Directory.exec d).1 = .ok v) (operations : List Operation)
    (hspared : d.SparedBy self n operations) (k : Nat) :
    (d.performAll self (operations.take k)).lockvars.get n.val = some true ∧
      ((readValue self n.val).run Directory.exec (d.performAll self (operations.take k))).1 =
        .ok v := by
  have hold : d.contents.Holds n v := ⟨hlock, by rwa [fst_run_readValue h, read_eq_ok_iff] at hread⟩
  obtain ⟨hcoherent, hlock', hvalue⟩ := holds_performAll h self (SparedBy.take hspared k) hold
  exact ⟨hlock', by rwa [fst_run_readValue hcoherent, read_eq_ok_iff]⟩

end Runs

section Sample

attribute [local instance] sampleRuntime jsonObjects sampleScores

def textRead : Check Value → Option Str
  | .ok (.str s) => some s
  | _ => none

theorem eq_of_textRead {r : Check Value} {s : Str} (h : textRead r = some s) : r = .ok (.str s) := by
  unfold textRead at h
  split at h
  · cases h
    rfl
  · cases h

/-- A text is stored under the name `k`. -/
def sampleText (text : String) (overwrite : Bool) : Operation :=
  .writeText sampleConfig (lit "k") (.str (lit text)) overwrite none []

/-- The directory with the locked variable `k`. -/
def lockedSample : Directory :=
  emptySample.performAll sampleSelf [sampleText "old" false, .lockvar (lit "k") true]

/-- The name `k`. -/
theorem isScalar_k : (lit "k").all isScalar = true := by decide

def lockedKey : Key := ⟨lit "k", isScalar_k⟩

theorem coherent_lockedSample : lockedSample.Coherent :=
  coherent_perform (coherent_perform coherent_emptySample _ _) _ _

/-- The contents of the directory with the locked variable, with one more operation. -/
theorem contents_lockedSample : lockedSample.contents =
    (((Operation.lockvar (lit "k") true).method sampleSelf).run Contents.exec
      (((sampleText "old" false).method sampleSelf).run Contents.exec
        ⟨fun _ => none, [], sampleConfig.policy, 0, [], []⟩).2).2 := by
  show ((emptySample.perform sampleSelf _).perform sampleSelf _).contents = _
  rw [contents_perform (coherent_perform coherent_emptySample _ _),
    contents_perform coherent_emptySample, contents_emptySample]

theorem locked_lockedSample : lockedSample.lockvars.get lockedKey.val = some true := by
  show lockedSample.contents.lockvars.get lockedKey.val = some true
  rw [contents_lockedSample]
  decide +kernel

theorem read_lockedSample :
    ((readValue sampleSelf lockedKey.val).run Directory.exec lockedSample).1 = .ok (.str (lit "old")) := by
  rw [fst_run_readValue coherent_lockedSample, contents_lockedSample]
  apply eq_of_textRead
  decide +kernel

/-- Writes that respect the lock leave the locked text alone. -/
theorem locked_value_kept_sample :
    lockedSample.SparedBy sampleSelf lockedKey [.delete (lit "k"), sampleText "new" false] ∧
    ((readValue sampleSelf lockedKey.val).run Directory.exec (lockedSample.performAll sampleSelf
      [.delete (lit "k"), sampleText "new" false])).1 = .ok (.str (lit "old")) := by
  have hspared : lockedSample.SparedBy sampleSelf lockedKey
      [.delete (lit "k"), sampleText "new" false] := ⟨trivial, id, fun _ => rfl, id, trivial⟩
  exact ⟨hspared, (locked_value_kept lockedSample coherent_lockedSample sampleSelf lockedKey _
    locked_lockedSample read_lockedSample _ hspared 2).2⟩

/-- `write_text` with `overwrite=True` replaces the text of a locked variable. -/
theorem locked_value_lost_sample :
    lockedSample.lockvars.get lockedKey.val = some true ∧
    ((readValue sampleSelf lockedKey.val).run Directory.exec lockedSample).1 =
      .ok (.str (lit "old")) ∧
    ¬ (sampleText "new" true).Unlocks lockedKey ∧
    ((readValue sampleSelf lockedKey.val).run Directory.exec
      (lockedSample.perform sampleSelf (sampleText "new" true))).1 = .ok (.str (lit "new")) := by
  refine ⟨locked_lockedSample, read_lockedSample, id, ?_⟩
  rw [fst_run_readValue (coherent_perform coherent_lockedSample _ _),
    contents_perform coherent_lockedSample, contents_lockedSample]
  apply eq_of_textRead
  decide +kernel

end Sample

end FileSystem
