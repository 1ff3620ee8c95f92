import Tds.Generation.Proofs.Pin

/-!
# All stores together

Every call is safe under the discipline, so the invariant holds in every state that any run of any
number of stores reaches, whenever calls start, come back or are cut off by a crash.
-/

namespace Generation

open Python Process List Option Function World

section System

variable [Runtime] {config : StoreId → StoreConfig} {strict : Prop} {p : StoreId} {w w' : World}

/-- The store has nothing under way: its pins are in order and it holds no namespace lock. -/
structure Idle (p : StoreId) (w : World) : Prop where
  inOrder : InOrder p w
  nameSpaces : ∀ key, ¬ w.Holds p (.nameSpace key)

def Returned (id : Nat) (r : Except Error Outcome) (w : World) : Prop :=
  match r with
  | .ok (.published x) => x.head = headOf x.record ∧ ∃ key, ∃ i : Nat,
      namespaceKey x.record.nameSpace.val = .ok key ∧ (w.commits key)[i]? = some id ∧
        (w.records key)[i]? = some x.record
  | .ok (.recovered x) => ∃ key, namespaceKey x.nameSpace = .ok key ∧
      x.validRecords ≤ (w.records key).length ∧
        x.head = impliedHead ((w.records key).take x.validRecords)
  | _ => True

theorem Returned.grows {id : Nat} {r : Except Error Outcome} (h : Returned id r w)
    (hg : Grows w w') : Returned id r w' := by
  unfold Returned at h ⊢
  split
  · obtain ⟨hhead, key, i, hkey, hid, hr⟩ := h
    exact ⟨hhead, key, i, hkey, getElem?_eq_of_isPrefix (hg.commits key) hid,
      getElem?_eq_of_isPrefix (hg.records key) hr⟩
  · obtain ⟨key, hkey, hle, hhead⟩ := h
    refine ⟨key, hkey, hle.trans (hg.records key).length_le, ?_⟩
    rw [hhead, take_eq_of_isPrefix (hg.records key) hle]
  · trivial

/-- The call may add a record. -/
def Call.Publishes : Call → Prop
  | publish _ _ | rollback _ _ _ => True
  | _ => False

structure CallEnds (config : StoreId → StoreConfig) (p : StoreId) (id : Nat) (call : Call)
    (r : Except Error Outcome) (w : World) : Prop where
  idle : Idle p w
  returned : Returned id r w
  closed : ∀ i, call = .close i → ∀ l, (w.memory p).leases[i]? = some l → l.closed = true
  published : call.Publishes → ∀ o, r = .ok o → ∃ x, o = .published x
  failed : call.Publishes → ∀ e, r = .error e →
    (∀ key, id ∉ w.commits key) ∨ ∃ boundary, e ∈ (config p).failureInjector boundary

theorem Idle.stays (h : Idle p w) (hs : Stays p w w') : Idle p w' :=
  ⟨h.inOrder.within hs.within, fun key hk => h.nameSpaces key ((hs.holds _).mp hk)⟩

theorem Idle.of_sameNameSpaces (h : Idle p w) (hs : SameNameSpaces p w w') (ho : InOrder p w') :
    Idle p w' := by
  refine ⟨ho, ?_⟩
  rintro key ⟨x, hx, hp⟩
  exact h.nameSpaces key ⟨x, (hs key x hp).mp hx, hp⟩

theorem Idle.congr (h : Idle p w) (hmemory : w'.memory p = w.memory p)
    (hlocks : w'.locks = w.locks) : Idle p w' := by
  obtain ⟨⟨memory, holders, hprivate, hpinned⟩, hnameSpaces⟩ := h
  refine ⟨⟨memory, holders, ⟨hmemory.trans hprivate.memory, ?_⟩, hpinned⟩, ?_⟩
  · rw [hlocks]
    exact hprivate.holders
  · unfold World.Holds
    rw [hlocks]
    exact hnameSpaces

theorem CallEnds.of_publication {id : Nat} {call : Call} (h : Idle p w) (hs : Stays p w w')
    (hcall : ∀ i, call ≠ .close i) {r : Except Error PublicationResult}
    (hends : PublicationEnds config p id r w') :
    CallEnds config p id call (r >>= fun x => .ok (.published x)) w' := by
  refine ⟨h.stays hs, ?_, fun i hi => absurd hi (hcall i), fun _ o ho => ?_, fun _ e he => ?_⟩
  · cases r with
    | ok x => exact hends.ok _ rfl
    | error e => trivial
  · cases r with
    | ok x => exact ⟨x, (Except.ok.inj ho).symm⟩
    | error e => cases ho
  · cases r with
    | ok x => cases he
    | error e' => exact hends.error e (congrArg Except.error (Except.error.inj he))

theorem safe_program {id : Nat} {call : Call} (h : Idle p w) (hu : Uncommitted p id w)
    (hcall : w.history[id]? = some (p, call)) :
    Safe (discipline config strict) p (call.program (config p)) (CallEnds config p id call) w := by
  cases call with
  | publish candidate expected =>
    refine Safe.bind_done ((safe_publish hu hcall).mono ?_)
    rintro r w' _ ⟨hs, hends⟩
    exact .of_publication h hs (by simp) hends
  | rollback nameSpace target expected =>
    refine Safe.bind_done ((safe_rollback hu hcall).mono ?_)
    rintro r w' _ ⟨hs, hends⟩
    exact .of_publication h hs (by simp) hends
  | recover nameSpace =>
    refine Safe.bind_done ((safe_recover nameSpace).mono ?_)
    rintro r w' _ ⟨hs, hok⟩
    refine ⟨h.stays hs, ?_, by simp, fun hp => hp.elim, fun hp => hp.elim⟩
    cases r with
    | ok x => exact hok x rfl
    | error e => trivial
  | pin nameSpace generation =>
    refine Safe.bind_done ((safe_pin h.inOrder).mono ?_)
    rintro r w' _ ⟨hs, -, ho⟩
    refine ⟨h.of_sameNameSpaces hs ho, ?_, by simp, fun hp => hp.elim, fun hp => hp.elim⟩
    cases r <;> trivial
  | close i =>
    refine Safe.bind_done ((safe_close h.inOrder ⟨id, hu.running, hcall⟩).mono ?_)
    rintro r w' _ ⟨hm, ho, hclosed⟩
    refine ⟨h.of_sameNameSpaces hm.nameSpaces ho, ?_, ?_, fun hp => hp.elim, fun hp => hp.elim⟩
    · cases r <;> trivial
    · rintro j ⟨⟩
      exact hclosed
  | retire nameSpace generation =>
    refine Safe.bind_done ((safe_retire nameSpace generation).mono ?_)
    intro r w' _ hs
    refine ⟨h.stays hs, ?_, by simp, fun hp => hp.elim, fun hp => hp.elim⟩
    cases r <;> trivial

/-! ## The invariant of the system -/

/-- What holds in every reachable state. -/
structure SystemInv (config : StoreId → StoreConfig) (strict : Prop) (s : System) : Prop where
  inv : Inv config strict s.world
  idle : ∀ p, s.programs p = none → s.world.running p = none ∧ Idle p s.world
  busy : ∀ p x, s.programs p = some x → ∃ id call, s.world.running p = some id ∧
    s.world.history[id]? = some (p, call) ∧
      Safe (discipline config strict) p x (CallEnds config p id call) s.world
  returned : ∀ id r, (id, r) ∈ s.returned → Returned id r s.world

variable {s s' : System}

/-- A step of the store `p`: what remains to be shown is the new state of `p` itself. -/
theorem SystemInv.of_keeps (h : SystemInv config strict s)
    (hk : (discipline config strict).Keeps p s.world s'.world)
    (hprograms : ∀ q, q ≠ p → s'.programs q = s.programs q)
    (hidle : s'.programs p = none → s'.world.running p = none ∧ Idle p s'.world)
    (hbusy : ∀ x, s'.programs p = some x → ∃ id call, s'.world.running p = some id ∧
      s'.world.history[id]? = some (p, call) ∧
        Safe (discipline config strict) p x (CallEnds config p id call) s'.world)
    (hreturned : ∀ id r, (id, r) ∈ s'.returned →
      (id, r) ∈ s.returned ∨ Returned id r s.world) : SystemInv config strict s' := by
  refine ⟨hk.inv, fun q hq => ?_, fun q x hq => ?_, fun id r hr => ?_⟩
  · by_cases hne : q = p
    · subst hne
      exact hidle hq
    · have hrely : Rely q s.world s'.world := hk.rely q hne
      obtain ⟨hrun, hi⟩ := h.idle q ((hprograms q hne).symm.trans hq)
      exact ⟨hrely.running.trans hrun, hi.stays hrely.toStays⟩
  · by_cases hne : q = p
    · subst hne
      exact hbusy x hq
    · have hrely : Rely q s.world s'.world := hk.rely q hne
      obtain ⟨id, call, hrun, hcall, hsafe⟩ := h.busy q x ((hprograms q hne).symm.trans hq)
      exact ⟨id, call, hrely.running.trans hrun, getElem?_eq_of_isPrefix hrely.history hcall,
        hsafe.rely hrely⟩
  · exact ((hreturned id r hr).elim (h.returned id r) fun hr => hr).grows hk.guar

theorem Inv.keeps_invoke (hi : Inv config strict w) (hrun : w.running p = none) (call : Call) :
    (discipline config strict).Keeps p w (w.invoke p call) := by
  refine hi.keeps_of_local (fun _ _ _ => Iff.rfl) (fun _ _ => rfl) (prefix_append _ _)
    (fun q hq => update_of_ne hq _ _) (fun id hid => ?_) hi.exclusive hi.nameSpaceLocks
    hi.descriptors fun i l hl hopen _ => ?_
  · rw [update_self] at hid
    exact ⟨call, some.inj hid ▸ getElem?_concat_length⟩
  · refine hi.leases p i l hl hopen ?_
    rintro ⟨id, hid, -⟩
    rw [hrun] at hid
    cases hid

theorem Inv.keeps_finish (hi : Inv config strict w)
    (hclosed : ∀ i, w.Closing p i → ∀ l, (w.memory p).leases[i]? = some l → l.closed = true) :
    (discipline config strict).Keeps p w (w.finish p) := by
  refine hi.keeps_of_local (fun _ _ _ => Iff.rfl) (fun _ _ => rfl) (prefix_refl _)
    (fun q hq => update_of_ne hq _ _) (fun id hid => ?_) hi.exclusive hi.nameSpaceLocks
    hi.descriptors fun i l hl hopen _ => hi.leases p i l hl hopen fun hclosing => ?_
  · rw [update_self] at hid
    cases hid
  · rw [hclosed i hclosing l hl] at hopen
    cases hopen

theorem Inv.keeps_crash (hi : Inv config strict w) :
    (discipline config strict).Keeps p w (w.crash p) := by
  have hmem : ∀ {file h}, h ∈ (w.crash p).locks file → h ∈ w.locks file := fun hh =>
    (mem_filter.mp hh).1
  refine hi.keeps_of_local (fun file h hh => ?_) (fun q hq => update_of_ne hq _ _)
    (prefix_refl _) (fun q hq => update_of_ne hq _ _) (fun id hid => ?_)
    (fun file h hh hs h' hh' => hi.exclusive file h (hmem hh) hs h' (hmem hh'))
    (fun key h hh => hi.nameSpaceLocks key h (hmem hh)) ?_ fun i l hl _ _ => ?_
  · simp [hh]
  · rw [update_self] at hid
    cases hid
  · obtain ⟨bound, hbound⟩ := hi.descriptors
    exact ⟨bound, fun file h hh => hbound file h (hmem hh)⟩
  · rw [update_self] at hl
    cases hl

theorem not_holds_crash (file : LockFile) : ¬ (w.crash p).Holds p file := by
  rintro ⟨h, hh, hp⟩
  have := (mem_filter.mp hh).2
  simp [hp] at this

theorem idle_crash (p : StoreId) (w : World) : Idle p (w.crash p) := by
  refine ⟨⟨_, _, Private.self p _, ?_⟩, fun key => not_holds_crash _⟩
  have hmemory : (w.crash p).memory p = .empty := update_self ..
  rw [hmemory]
  refine ⟨fun g => rfl, fun g => rfl, fun g fd n h => ?_, fun g h hh hp => ?_, by simp [StoreMemory.empty]⟩
  · cases h
  · exact absurd ⟨h, hh, hp⟩ (not_holds_crash (p := p) (w := w) (.pin g))

theorem Inv.fresh (hi : Inv config strict w) (key : Digest) : w.history.length ∉ w.commits key := by
  intro hmem
  obtain ⟨i, hid⟩ := mem_iff_getElem?.mp hmem
  obtain ⟨q, call, hcall, -⟩ := (hi.logs key).expects i _ hid
  rw [getElem?_eq_none le_rfl] at hcall
  cases hcall

variable {c : StoreConfig}

/-- Only an append can complete a record. -/
theorem exec_keeps {o : Op} {a : o.Answer} (he : exec c p o w a w') :
    (w'.running = w.running ∧ w'.history = w.history) ∧
      (w'.commits = w.commits ∨ ∃ key data, w' = w.append p key data) := by
  cases o with
  | read path | memory =>
    obtain ⟨-, rfl⟩ := he
    exact ⟨⟨rfl, rfl⟩, .inl rfl⟩
  | link root data | rename generation manifest receipts | unlink path =>
    simp only [exec] at he
    split at he <;> obtain ⟨-, rfl⟩ := he <;> exact ⟨⟨rfl, rfl⟩, .inl rfl⟩
  | create key =>
    simp only [exec] at he
    split at he <;> subst he <;> exact ⟨⟨rfl, rfl⟩, .inl rfl⟩
  | append key view =>
    obtain ⟨-, -, rfl⟩ := he
    exact ⟨⟨rfl, rfl⟩, .inr ⟨key, _, rfl⟩⟩
  | replace path data | unlock file fd | setMemory memory =>
    obtain rfl := he
    exact ⟨⟨rfl, rfl⟩, .inl rfl⟩
  | flock file shared =>
    simp only [exec] at he
    split at he
    · obtain ⟨fd, -, -, rfl⟩ := he
      exact ⟨⟨rfl, rfl⟩, .inl rfl⟩
    · obtain ⟨-, rfl⟩ := he
      exact ⟨⟨rfl, rfl⟩, .inl rfl⟩
  | hit boundary =>
    obtain ⟨rfl, -⟩ := he
    exact ⟨⟨rfl, rfl⟩, .inl rfl⟩

theorem exec_history {o : Op} {a : o.Answer} (he : exec c p o w a w') :
    w'.running = w.running ∧ w'.history = w.history :=
  (exec_keeps he).1

theorem SystemInv.step (h : SystemInv config strict s) (hs : Step config s s')
    (hal : strict → LivePublication s.world s'.world) :
    SystemInv config strict s' ∧ Grows s.world s'.world := by
  cases hs with
  | invoke p call hp =>
    obtain ⟨hrun, hidle⟩ := h.idle p hp
    have hk := h.inv.keeps_invoke hrun call
    refine ⟨h.of_keeps hk (fun q hq => update_of_ne hq _ _) 
      (by simp [System.invoke]) (fun x hx => ?_) fun id r hr => .inl hr, hk.guar⟩
    obtain rfl : call.program (config p) = x := by simpa [System.invoke] using hx
    have hrun' : (s.world.invoke p call).running p = some s.world.history.length :=
      update_self ..
    have hcall : (s.world.invoke p call).history[s.world.history.length]? = some (p, call) :=
      getElem?_concat_length
    exact ⟨_, call, hrun', hcall,
      safe_program (hidle.congr rfl rfl) ⟨hrun', h.inv.fresh⟩ hcall⟩
  | run p o k a w hp he =>
    obtain ⟨id, call, hrun, hcall, hsafe⟩ := h.busy p _ hp
    obtain ⟨hk, hrest⟩ := hsafe s.world (.refl _ _) h.inv a w he hal
    obtain ⟨hrunning, hhistory⟩ := exec_history he
    refine ⟨h.of_keeps hk (fun q hq => update_of_ne hq _ _) (by simp) (fun x hx => ?_)
      fun id r hr => .inl hr, hk.guar⟩
    obtain rfl : k a = x := by simpa using hx
    exact ⟨id, call, by rw [hrunning, hrun], by rw [hhistory, hcall], hrest⟩
  | finish p r id hp hid =>
    obtain ⟨id', call, hrun, hcall, hsafe⟩ := h.busy p _ hp
    obtain rfl := some.inj (hid.symm.trans hrun)
    have hends := hsafe s.world (.refl _ _) h.inv
    have hk : (discipline config strict).Keeps p s.world (s.world.finish p) := by
      refine h.inv.keeps_finish fun i hclosing => hends.closed i ?_
      obtain ⟨id', hrun', hcall'⟩ := hclosing
      obtain rfl := some.inj (hrun.symm.trans hrun')
      exact congrArg Prod.snd (some.inj (hcall.symm.trans hcall'))
    refine ⟨h.of_keeps hk (fun q hq => update_of_ne hq _ _)
      (fun _ => ⟨update_self .., hends.idle.congr rfl rfl⟩) (by simp)
      fun id' r' hr => ?_, hk.guar⟩
    rcases mem_append.mp hr with hr | hr
    · exact .inl hr
    · obtain ⟨rfl, rfl⟩ := Prod.mk.inj (mem_singleton.mp hr)
      exact .inr hends.returned
  | crash p =>
    have hk := h.inv.keeps_crash (p := p)
    refine ⟨h.of_keeps hk (fun q hq => update_of_ne hq _ _)
      (fun _ => ⟨update_self .., idle_crash p s.world⟩) (by simp [System.crash])
      fun id r hr => .inl hr, hk.guar⟩

@[simp] theorem records_initial (key : Digest) : World.initial.records key = [] := rfl

theorem logOk_initial (key : Digest) : LogOk config .initial key where
  holds := ⟨[], rfl, by simp, by simp⟩
  chain := ⟨by simp, by simp, by simp⟩
  lineage := trivial
  binds := by simp
  limit := by simp
  current := by simp [initial]
  commits := rfl
  expects := by simp [initial]

theorem inv_initial : Inv config strict .initial where
  objects := by simp [initial]
  generations := by simp [initial]
  receipts := by simp [initial]
  logs := logOk_initial
  nodup _ := nodup_nil
  unique := by simp [initial]
  running := by simp [initial]
  exclusive := by simp [initial]
  nameSpaceLocks := by simp [initial]
  descriptors := ⟨0, by simp [initial]⟩
  leases := by simp [initial, StoreMemory.empty]
  alive _ _ _ h := absurd rfl h

theorem systemInv_initial : SystemInv config strict .initial := by
  refine ⟨inv_initial, fun p _ => ⟨rfl, ?_⟩, by simp [System.initial], by simp [System.initial]⟩
  have hmemory : (initial.crash p).memory p = .empty := update_self ..
  exact (idle_crash p .initial).congr hmemory.symm rfl

/-- The invariant holds in every state of a run; for the strict one, of a run in which no retired
generation is published. -/
theorem SystemInv.of_reachable {allowed : System → System → Prop}
    (hallowed : ∀ s s', allowed s s' → strict → LivePublication s.world s'.world)
    (h : ReachableBy config allowed s) : SystemInv config strict s := by
  induction h with
  | initial => exact systemInv_initial
  | step _ hs ha ih => exact (ih.step hs (hallowed _ _ ha)).1

theorem ReachableBy.mono {allowed allowed' : System → System → Prop}
    (hallowed : ∀ s s', allowed s s' → allowed' s s') (h : ReachableBy config allowed s) :
    ReachableBy config allowed' s := by
  induction h with
  | initial => exact .initial
  | step _ hs ha ih => exact .step ih hs (hallowed _ _ ha)

theorem Reachable.systemInv (h : Reachable config s) : SystemInv config False s :=
  SystemInv.of_reachable (fun _ _ _ h => h.elim) h

theorem SystemInv.steps (h : SystemInv config False s)
    (hs : Relation.ReflTransGen (Step config) s s') :
    SystemInv config False s' ∧ Grows s.world s'.world := by
  induction hs with
  | refl => exact ⟨h, .refl _⟩
  | tail _ hstep ih =>
    obtain ⟨hinv, hgrows⟩ := ih
    obtain ⟨hinv', hgrows'⟩ := hinv.step hstep fun h => h.elim
    exact ⟨hinv', hgrows.trans hgrows'⟩

end System

end Generation
