import Tds.FileSystem.JsonCodec
import Tds.FileSystem.Subdirectories

/-!
# Two callers may both make a subdirectory

A run in which no two calls of `mkdir` are between their check and their insertion has at most one
winner, and lookups find its child. In every other run that goes to its end two calls succeed.
-/

namespace FileSystem

open Python Process Tries List Option Function RadixDirectoryRouter ChildOp

namespace RadixDirectoryRouter

variable {α : Type}

theorem Agrees.init : (init : RadixDirectoryRouter α).Agrees := by
  intro key hkey
  obtain ⟨c, rest, rfl⟩ := exists_cons_of_ne_nil hkey
  rfl

theorem get_put (router : RadixDirectoryRouter α) (key key' : Str) (value : α) :
    (router.put key value).get key' = if key' = key then some value else router.get key' :=
  RadixNode.lookup_insert router.root value key key'

variable {router : RadixDirectoryRouter α}

theorem Agrees.put (h : router.Agrees) (key : Str) (value : α) : (router.put key value).Agrees := by
  intro key' hkey'
  rw [get_put]
  by_cases hkey : key' = key
  · rw [if_pos hkey, hkey]
    exact (PyDict.get_set_self ..).symm
  · rw [if_neg hkey, h key' hkey']
    exact (PyDict.get_set_of_ne _ _ hkey).symm

theorem insert_of_ne_nil (router : RadixDirectoryRouter α) {key : Str} (h : key ≠ []) (value : α) :
    router.insert key value = .ok (router.put key value) := by
  simp [insert, raiseIf, h]

/-- The tree agrees with the `dict`; neither has the empty name. -/
structure Mirrors (router : RadixDirectoryRouter α) : Prop where
  agrees : router.Agrees
  root : router.get [] = none
  items : router.items.get [] = none

theorem Mirrors.init : (init : RadixDirectoryRouter α).Mirrors := ⟨Agrees.init, rfl, rfl⟩

theorem Mirrors.get_eq (h : router.Mirrors) (key : Str) :
    router.get key = router.items.get key := by
  by_cases hkey : key = []
  · rw [hkey, h.root, h.items]
  · exact h.agrees key hkey

theorem Mirrors.put (h : router.Mirrors) {key : Str} (hkey : key ≠ []) (value : α) :
    (router.put key value).Mirrors := by
  refine ⟨h.agrees.put key value, ?_, ?_⟩
  · rw [get_put, if_neg hkey.symm, h.root]
  · exact (PyDict.get_set_of_ne _ _ hkey.symm).trans h.items

theorem Mirrors.insertAll (h : router.Mirrors) {items : PyDict Str α}
    (hitems : ∀ item ∈ items, item.1 ≠ []) :
    ∃ router', items.foldlM (fun router item => router.insert item.1 item.2) router = .ok router' ∧
      router'.Mirrors := by
  induction items generalizing router with
  | nil => exact ⟨router, rfl, h⟩
  | cons item items ih =>
    have hkey := hitems item mem_cons_self
    obtain ⟨router', hrun, hmirrors⟩ := ih (h.put hkey item.2)
      fun other hother => hitems other (mem_cons_of_mem _ hother)
    refine ⟨router', ?_, hmirrors⟩
    rw [foldlM_cons, insert_of_ne_nil router hkey]
    exact hrun

theorem Mirrors.delete (h : router.Mirrors) (key : Str) :
    ∃ result, router.delete key = .ok result ∧ result.2.Mirrors := by
  unfold RadixDirectoryRouter.delete
  cases hget : router.items.get key with
  | none => exact ⟨_, rfl, h⟩
  | some removed =>
    have hitems : ∀ item ∈ router.items.pop key, item.1 ≠ [] := by
      intro item hitem hnil
      have hmem : [] ∈ router.items.keys := hnil ▸ mem_map_of_mem (mem_filter.mp hitem).1
      obtain ⟨value, hvalue⟩ := (PyDict.mem_keys_iff _ _).mp hmem
      rw [h.items] at hvalue
      cases hvalue
    obtain ⟨rebuilt, hrebuilt, hmirrors⟩ := Mirrors.init.insertAll hitems
    have hrebuild : rebuild (router.items.pop key) = .ok rebuilt := hrebuilt
    refine ⟨(some removed, rebuilt), ?_, hmirrors⟩
    rw [hrebuild]
    rfl

theorem Mirrors.apply (h : router.Mirrors) {change : Change α} (hkey : change.key ≠ []) :
    ∃ router', change.apply router = .ok router' ∧ router'.Mirrors := by
  cases change with
  | insert key value => exact ⟨_, insert_of_ne_nil router hkey value, h.put hkey value⟩
  | delete key =>
    obtain ⟨result, hresult, hmirrors⟩ := h.delete key
    refine ⟨result.2, ?_, hmirrors⟩
    rw [Change.apply, hresult]
    rfl

theorem Mirrors.applyAll (h : router.Mirrors) {changes : List (Change α)}
    (hkeys : ∀ change ∈ changes, change.key ≠ []) :
    ∃ router', router.applyAll changes = .ok router' ∧ router'.Mirrors := by
  induction changes generalizing router with
  | nil => exact ⟨router, rfl, h⟩
  | cons change changes ih =>
    obtain ⟨next, hnext, hmirrors⟩ := h.apply (hkeys change mem_cons_self)
    obtain ⟨router', hrun, hmirrors'⟩ :=
      ih hmirrors fun other hother => hkeys other (mem_cons_of_mem _ hother)
    refine ⟨router', ?_, hmirrors'⟩
    rw [applyAll, foldlM_cons, hnext]
    exact hrun

/-- After any insertions and deletions of non-empty keys, a lookup in the tree finds for every key what
the dictionary holds. -/
theorem lookup_eq_items (changes : List (Change α)) (hkeys : ∀ change ∈ changes, change.key ≠ []) :
    ∃ router, init.applyAll changes = .ok router ∧ ∀ key, router.get key = router.items.get key := by
  obtain ⟨router, hrun, hmirrors⟩ := Mirrors.init.applyAll hkeys
  exact ⟨router, hrun, hmirrors.get_eq⟩

/-- The edge of `ab` is split by `ac`; then `ab` is deleted. -/
theorem lookup_eq_items_sample : ∃ router : RadixDirectoryRouter Nat,
    init.applyAll [.insert [97, 98] 1, .insert [97, 99] 2, .delete [97, 98]] = .ok router ∧
      ∀ key, router.get key = router.items.get key :=
  lookup_eq_items _ (by simp [Change.key])

end RadixDirectoryRouter

namespace MkdirCalls

variable [Objects] {self : Parent} {name : Str} {s s' : MkdirCalls}

/-- Where a call for the name can stand: before its check, before its insertion, or at its end. -/
def Standing (self : Parent) (name : Str) (t : Nat) (program : MkdirProg) : Prop :=
  (∃ args : MkdirArgs, args.name = name ∧
    program = .step (.contains name) (afterCheck self args t)) ∨
  program = .step (.setChild name t) (afterInsert t) ∨
  ∃ r, program = .done r ∧ ∀ child, r = .ok child → child = t

/-- All calls are for the name, which is not empty, and both copies of the children agree. -/
structure Tracked (parent : Parent) (name : Str) (s : MkdirCalls) : Prop where
  standing : ∀ t program, s.threads t = some program → Standing parent name t program
  agrees : s.shared.Agrees

/-- A call is refused at once, or it has a name and begins with the check. -/
theorem mkdir_cases (self : Parent) (args : MkdirArgs) (t : Nat) :
    (∃ e, mkdir self args t = .done (.error e)) ∨
    (args.name ≠ [] ∧ mkdir self args t = .step (.contains args.name) (afterCheck self args t)) := by
  unfold mkdir
  split
  · exact .inl ⟨_, rfl⟩
  · next hvalid =>
    split
    · exact .inl ⟨_, rfl⟩
    · refine .inr ⟨fun hnil => hvalid ?_, rfl⟩
      rw [hnil]
      rfl

variable {callers : Nat → Option MkdirArgs} {args : MkdirArgs} {t : Nat}

theorem standing_mkdir (h : args.name = name) (t : Nat) :
    Standing self name t (mkdir self args t) := by
  rcases mkdir_cases self args t with ⟨e, he⟩ | ⟨-, hcheck⟩
  · exact .inr (.inr ⟨_, he, by simp⟩)
  · subst h
    exact .inl ⟨args, rfl, hcheck⟩

theorem standing_afterCheck (h : args.name = name) (t : Nat) (found : Bool) :
    Standing self name t (afterCheck self args t found) := by
  unfold afterCheck
  split
  · exact .inr (.inr ⟨_, rfl, by simp⟩)
  · split
    · exact .inr (.inr ⟨_, rfl, by simp⟩)
    · subst h
      exact .inr (.inl rfl)

/-- What a step does: a check, which goes on as `afterCheck` says, or an insertion, with which the
call succeeds. -/
theorem Tracked.step_cases (h : Tracked self name s) (hname : name ≠ [])
    (hstep : s.next ChildOp.exec (.step t) = some s') :
    (∃ args : MkdirArgs, args.name = name ∧
      s.threads t = some (.step (.contains name) (afterCheck self args t)) ∧
      s' = ⟨s.shared, update s.threads t
        (some (afterCheck self args t (s.shared.contains name)))⟩) ∨
    (s.Inserting name t ∧
      s' = ⟨s.shared.put name t, update s.threads t (some (.done (.ok t)))⟩) := by
  rcases Pool.next_cases hstep with ⟨_, _, ⟨⟩, _⟩ | ⟨_, o, k, ⟨⟩, ht, hs'⟩ | ⟨_, _, ⟨⟩, _⟩
  rcases h.standing t _ ht with ⟨args, hargs, hprogram⟩ | hprogram | ⟨r, hprogram, -⟩
  · cases hprogram
    exact .inl ⟨args, hargs, ht, hs'⟩
  · cases hprogram
    refine .inr ⟨⟨_, ht⟩, ?_⟩
    have hexec : (setChild name t).exec s.shared = (.ok (), s.shared.put name t) := by
      simp only [exec, insert_of_ne_nil s.shared hname t]
    rw [hs', hexec]
    rfl
  · cases hprogram

theorem Tracked.step (h : Tracked self name s) (hname : name ≠ [])
    (hstep : s.next ChildOp.exec (.step t) = some s') : Tracked self name s' := by
  rcases h.step_cases hname hstep with ⟨args, hargs, -, rfl⟩ | ⟨-, rfl⟩
  · refine ⟨fun u program hu => ?_, h.agrees⟩
    dsimp only at hu
    by_cases hut : u = t
    · rw [hut, update_self] at hu
      obtain rfl := some.inj hu
      rw [hut]
      exact standing_afterCheck hargs t _
    · rw [update_of_ne hut] at hu
      exact h.standing u program hu
  · refine ⟨fun u program hu => ?_, h.agrees.put name t⟩
    dsimp only at hu
    by_cases hut : u = t
    · rw [hut, update_self] at hu
      obtain rfl := some.inj hu
      exact .inr (.inr ⟨_, rfl, fun child heq => by rw [hut, ← Except.ok.inj heq]⟩)
    · rw [update_of_ne hut] at hu
      exact h.standing u program hu

variable {router : RadixDirectoryRouter Nat}

theorem tracked_start (hrouter : router.Agrees)
    (hcallers : ∀ t args, callers t = some args → args.name = name) :
    Tracked self name (start self router callers) := by
  refine ⟨fun t program ht => ?_, hrouter⟩
  obtain ⟨args, hargs, rfl⟩ := map_eq_some_iff.mp ht
  exact standing_mkdir (hcallers t args hargs) t

theorem inserting_of_afterCheck {found : Bool} {next : Check Unit → MkdirProg}
    (h : afterCheck self args t found = .step (.setChild name t) next) : found = false := by
  unfold afterCheck at h
  split at h
  · cases h
  · simpa using ‹¬ found = true›

/-! ## Runs with one caller at a time -/

/-- A name that is about to be added is free, and a child that was returned is the one that is found. -/
structure Won (parent : Parent) (name : Str) (s : MkdirCalls) : Prop extends
    Tracked parent name s where
  free : ∀ t, s.Inserting name t → s.shared.items.get name = none
  found : ∀ t child, s.Returned t child → s.shared.items.get name = some child

theorem returned_eq (h : Tracked self name s) {child : Nat} (ht : s.Returned t child) :
    child = t := by
  rcases h.standing t _ ht with ⟨_, _, ⟨⟩⟩ | ⟨⟨⟩⟩ | ⟨r, hr, hchild⟩
  cases hr
  exact hchild child rfl

theorem Won.step (h : Won self name s) (hname : name ≠ []) (halone : s.Alone name)
    (hstep : s.next ChildOp.exec (.step t) = some s') : Won self name s' := by
  have htracked := h.toTracked.step hname hstep
  rcases h.toTracked.step_cases hname hstep with ⟨args, -, ht, rfl⟩ | ⟨hinserting, rfl⟩
  · refine ⟨htracked, ?_, ?_⟩
    · rintro u ⟨next, hu⟩
      dsimp only at hu
      by_cases hut : u = t
      · -- the call has just found the name free
        rw [hut, update_self] at hu
        have hfree := inserting_of_afterCheck (some.inj hu)
        simpa [RadixDirectoryRouter.contains] using hfree
      · rw [update_of_ne hut] at hu
        exact h.free u ⟨next, hu⟩
    · intro u child hu
      have hu' : update s.threads t
        (some (afterCheck self args t (s.shared.contains name))) u = some (.done (.ok child)) := hu
      by_cases hut : u = t
      · rw [hut, update_self] at hu'
        have hend := some.inj hu'
        unfold afterCheck at hend
        split at hend
        · cases hend
        · split at hend <;> cases hend
      · rw [update_of_ne hut] at hu'
        exact h.found u child hu'
  · refine ⟨htracked, ?_, ?_⟩
    · rintro u ⟨next, hu⟩
      dsimp only at hu
      by_cases hut : u = t
      · rw [hut, update_self] at hu
        cases hu
      · rw [update_of_ne hut] at hu
        exact absurd (halone u t ⟨next, hu⟩ hinserting) hut
    · intro u child hu
      have hu' : update s.threads t (some (.done (.ok t))) u = some (.done (.ok child)) := hu
      by_cases hut : u = t
      · rw [hut, update_self] at hu'
        cases hu'
        exact PyDict.get_set_self ..
      · -- nobody can have succeeded before: the name was free
        rw [update_of_ne hut] at hu'
        have hfree := h.free t hinserting
        rw [h.found u child hu'] at hfree
        cases hfree

theorem Won.oneWinner (h : Won self name s) (hname : name ≠ []) : s.OneWinner self name := by
  refine ⟨fun t u child child' ht hu => ?_, fun t child ht => ?_⟩
  · have heq := (h.found t child ht).symm.trans (h.found u child' hu)
    rw [← returned_eq h.toTracked ht, ← returned_eq h.toTracked hu]
    exact some.inj heq
  · rw [cd, h.agrees name hname, h.found t child ht]

/-! ## Two calls that have both found the name free -/

theorem inserting_or_returned (h : Tracked self name s) (hname : name ≠ []) {u : Nat}
    (hstep : s.next ChildOp.exec (.step t) = some s') (hu : s.Inserting name u ∨ s.Returned u u) :
    s'.Inserting name u ∨ s'.Returned u u := by
  by_cases hut : u = t
  · subst hut
    rcases h.step_cases hname hstep with ⟨args, -, ht, rfl⟩ | ⟨-, rfl⟩
    · rcases hu with ⟨next, hu⟩ | hu
      · rw [ht] at hu
        cases hu
      · rw [Returned, ht] at hu
        cases hu
    · exact .inr (update_self ..)
  · have hsame : s'.threads u = s.threads u := by
      rcases h.step_cases hname hstep with ⟨args, -, -, rfl⟩ | ⟨-, rfl⟩ <;>
        exact update_of_ne hut ..
    rcases hu with ⟨next, hu⟩ | hu
    · exact .inl ⟨next, hsame.trans hu⟩
    · exact .inr (hsame.trans hu)

theorem returned_of_run (h : Tracked self name s) (hname : name ≠ []) {u : Nat}
    (hu : s.Inserting name u) {schedule : List Nat}
    (hrun : s.run ChildOp.exec (schedule.map .step) = some s') (hended : s'.Ended) :
    s'.Returned u u := by
  have hstep : ∀ s : MkdirCalls, ∀ event ∈ schedule.map Event.step, ∀ s' : MkdirCalls,
      Tracked self name s ∧ (s.Inserting name u ∨ s.Returned u u) →
      s.next exec event = some s' →
      Tracked self name s' ∧ (s'.Inserting name u ∨ s'.Returned u u) := by
    rintro s event hevent s' ⟨hs, hcall⟩ hnext
    obtain ⟨t, -, rfl⟩ := mem_map.mp hevent
    exact ⟨hs.step hname hnext, inserting_or_returned hs hname hnext hcall⟩
  have hinv := Pool.invariant_of_run hstep ⟨h, .inl hu⟩ hrun
  rcases hinv.2 with ⟨next, hnext⟩ | hreturned
  · obtain ⟨r, hr⟩ := hended u _ hnext
    cases hr
  · exact hreturned

theorem refused_of_run
    (hcallers : ∀ t args, callers t = some args → args.name = []) {n : Nat} {schedule : List Nat}
    (hrun : (start self router callers).run ChildOp.exec ((schedule.map .step).take n) = some s) :
    ∀ t program, s.threads t = some program → ∃ e, program = .done (.error e) := by
  have hstep : ∀ s : MkdirCalls, ∀ event ∈ (schedule.map Event.step).take n, ∀ s' : MkdirCalls,
      (∀ t program, s.threads t = some program → ∃ e, program = .done (.error e)) →
      s.next exec event = some s' →
      ∀ t program, s'.threads t = some program → ∃ e, program = .done (.error e) := by
    intro s event hevent s' hs hnext
    obtain ⟨t, -, rfl⟩ := mem_map.mp (mem_of_mem_take hevent)
    rcases Pool.next_cases hnext with ⟨_, _, ⟨⟩, _⟩ | ⟨_, o, k, ⟨⟩, ht, -⟩ | ⟨_, _, ⟨⟩, _⟩
    obtain ⟨e, he⟩ := hs t _ ht
    cases he
  refine Pool.invariant_of_run hstep (fun t program ht => ?_) hrun
  obtain ⟨args, hargs, rfl⟩ := map_eq_some_iff.mp ht
  rcases mkdir_cases self args t with hrefused | ⟨hname, -⟩
  · exact hrefused
  · exact absurd (hcallers t args hargs) hname

theorem won_start (hrouter : router.Agrees)
    (hcallers : ∀ t args, callers t = some args → args.name = name) :
    Won self name (start self router callers) := by
  refine ⟨tracked_start hrouter hcallers, ?_, ?_⟩
  · rintro t ⟨next, ht⟩
    obtain ⟨args, -, hprogram⟩ := map_eq_some_iff.mp ht
    rcases mkdir_cases self args t with ⟨e, he⟩ | ⟨-, hcheck⟩
    · rw [he] at hprogram
      cases hprogram
    · rw [hcheck] at hprogram
      cases hprogram
  · intro t child ht
    obtain ⟨args, -, hprogram⟩ := map_eq_some_iff.mp ht
    rcases mkdir_cases self args t with ⟨e, he⟩ | ⟨-, hcheck⟩
    · rw [he] at hprogram
      cases hprogram
    · rw [hcheck] at hprogram
      cases hprogram

/-- For every number of calls for one name and every interleaving in which all of them end: at every
moment at most one has succeeded and lookups find its child, if and only if at no moment two calls
are between their check and their insertion. -/
theorem oneWinner_iff_alone (hrouter : router.Agrees)
    {callers : Nat → Option MkdirArgs} (hcallers : ∀ t args, callers t = some args → args.name = name)
    {schedule : List Nat}
    (hrun : (start self router callers).run ChildOp.exec (schedule.map .step) = some s')
    (hended : s'.Ended) :
    (∀ n (s : MkdirCalls), (start self router callers).run ChildOp.exec
      ((schedule.map .step).take n) = some s → s.OneWinner self name) ↔
    ∀ n (s : MkdirCalls), (start self router callers).run ChildOp.exec
      ((schedule.map .step).take n) = some s → s.Alone name := by
  by_cases hname : name = []
  · subst hname
    refine iff_of_true (fun n s hs => ?_) (fun n s hs => ?_)
    · have hrefused := refused_of_run hcallers hs
      refine ⟨fun t u child child' ht => ?_, fun t child ht => ?_⟩
      · obtain ⟨e, he⟩ := hrefused t _ ht
        cases he
      · obtain ⟨e, he⟩ := hrefused t _ ht
        cases he
    · rintro t u ⟨next, ht⟩
      obtain ⟨e, he⟩ := refused_of_run hcallers hs t _ ht
      cases he
  constructor
  · intro hwinner n s hs t u ht hu
    -- both calls go on to succeed
    have htracked : Tracked self name s := by
      refine Pool.invariant_of_run (fun s event hevent s' h hnext => ?_)
        (tracked_start hrouter hcallers) hs
      obtain ⟨t, -, rfl⟩ := mem_map.mp (mem_of_mem_take hevent)
      exact h.step hname hnext
    have hrest : s.run exec ((schedule.drop n).map .step) = some s' := by
      rw [← take_append_drop n (schedule.map Event.step), Pool.run_append, hs] at hrun
      rwa [map_drop]
    have hall := hwinner schedule.length s' (by
      rw [take_of_length_le (by simp)]
      exact hrun)
    exact hall.1 t u t u (returned_of_run htracked hname ht hrest hended)
      (returned_of_run htracked hname hu hrest hended)
  · intro halone n s hs
    refine Won.oneWinner ?_ hname
    refine Pool.forall_take_of_step (fun s event hevent s' h hwon hnext => ?_)
      (won_start hrouter hcallers) halone hs
    obtain ⟨t, -, rfl⟩ := mem_map.mp hevent
    exact hwon.step hname h hnext

/-- Two calls of `mkdir("a")` on an empty directory. -/
def sampleCallers (t : Nat) : Option MkdirArgs := if t < 2 then some ⟨lit "a", false, 0⟩ else none

omit [Objects] in
/-- The calls one after the other: the second is refused. -/
theorem oneWinner_sequential :
    letI := sampleObjects
    ((start ⟨lit "root", []⟩ .init sampleCallers).run exec ([0, 0, 1].map .step)).isSome ∧
    ∀ n (s : MkdirCalls), (start ⟨lit "root", []⟩ .init sampleCallers).run exec
      (([0, 0, 1].map .step).take n) = some s → s.OneWinner ⟨lit "root", []⟩ (lit "a") := by
  let := sampleObjects
  have hcallers : ∀ t args, sampleCallers t = some args → args.name = lit "a" := by
    intro t args h
    unfold sampleCallers at h
    split at h
    · rw [← some.inj h]
    · cases h
  refine ⟨rfl, (oneWinner_iff_alone RadixDirectoryRouter.Agrees.init hcallers rfl ?_).mpr ?_⟩
  · rintro (_ | _ | t) program ht
    · exact ⟨_, (some.inj ht).symm⟩
    · exact ⟨_, (some.inj ht).symm⟩
    · cases ht
  · -- only the first call ever stands before its insertion
    have hfirst : ∀ n (s : MkdirCalls), (start ⟨lit "root", []⟩ .init sampleCallers).run exec
        (([0, 0, 1].map .step).take n) = some s → ∀ t, s.Inserting (lit "a") t → t = 0 := by
      rintro n s hs t ⟨next, ht⟩
      rcases n with _ | _ | _ | n
      case' succ.succ.succ => rw [take_of_length_le (by simp)] at hs
      all_goals
        obtain rfl := some.inj hs
        rcases t with _ | _ | t
        · rfl
        · cases ht
        · cases ht
    intro n s hs t u ht hu
    rw [hfirst n s hs t ht, hfirst n s hs u hu]

omit [Objects] in
/-- Both calls ask before either has added its child: both succeed, and lookups find the second
child. -/
theorem mkdir_twice :
    letI := sampleObjects
    ∃ s : MkdirCalls, (start ⟨lit "root", []⟩ .init sampleCallers).run exec
      ([0, 1, 0, 1].map .step) = some s ∧ s.Ended ∧ s.Returned 0 0 ∧ s.Returned 1 1 ∧
      cd ⟨lit "root", []⟩ s.shared (lit "a") = .ok 1 := by
  let := sampleObjects
  refine ⟨_, rfl, ?_, rfl, rfl, rfl⟩
  rintro (_ | _ | t) program ht
  · exact ⟨_, (some.inj ht).symm⟩
  · exact ⟨_, (some.inj ht).symm⟩
  · cases ht

end MkdirCalls

end FileSystem
