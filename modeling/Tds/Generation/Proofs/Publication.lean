import Tds.Generation.Proofs.Recovery

/-!
# Publishing and rolling back

A call appends one record to a log and makes it the head. The record counts from the write that
completes its line: before that the call has left nothing but files that no record names, and
afterwards it can only fail where a failure is injected.
-/

namespace Generation

open Python Process List Function World Safe

variable {r : GenerationPublicationRecord}

theorem GenerationPublicationRecord.init_eq_ok {name : Name} {sequence : Nat}
    {action : PublicationAction} {generation manifest receipt : Root}
    {previous predecessor : Option Root}
    (h : GenerationPublicationRecord.init (.str name.val) (natJson sequence) action
      (rootJson generation) (rootJson manifest) (rootJson receipt) (optionalRootJson previous)
      (optionalRootJson predecessor) = .ok r) :
    r.nameSpace = name ∧ r.action = action ∧ r.generationRoot = generation ∧
      r.manifestRoot = manifest ∧ r.publishedReceiptRoot = receipt ∧
      r.previousGenerationRoot = previous := by
  unfold GenerationPublicationRecord.init at h
  rw [requireName_str, ok_bind, bind_eq_ok] at h
  obtain ⟨n, -, h⟩ := h
  rw [requireRoot_rootJson, ok_bind, requireRoot_rootJson, ok_bind, requireRoot_rootJson, ok_bind,
    requireOptionalRoot_optionalRootJson, ok_bind, requireOptionalRoot_optionalRootJson,
    ok_bind] at h
  split at h
  · obtain rfl := Except.ok.inj h
    exact ⟨rfl, rfl, rfl, rfl, rfl, rfl⟩
  · split at h <;> cases h

section Commit

variable [Runtime] {config : StoreId → StoreConfig} {strict : Prop} {p : StoreId} {w w' : World}
  {key : Digest} {id : Nat}

/-- The store executes the call, which has not completed a record. -/
structure Uncommitted (p : StoreId) (id : Nat) (w : World) : Prop where
  running : w.running p = some id
  fresh : ∀ key, id ∉ w.commits key

theorem Uncommitted.calm (h : Uncommitted p id w) (hc : Calm p w w') : Uncommitted p id w' :=
  ⟨hc.running.trans h.running, fun key hk => h.fresh key (hc.committed key id h.running hk)⟩

structure Committable (config : StoreId → StoreConfig) (strict : Prop) (p : StoreId) (id : Nat)
    (key : Digest) (r : GenerationPublicationRecord) (w : World) : Prop
    extends Uncommitted p id w where
  follows : Follows (w.records key).getLast? r
  nameSpace : namespaceKey r.nameSpace.val = .ok key
  binds : ∃ m, Binds m r ∧ w.Has m ∧ (r.action = .rollback → ¬ w.Retired m.generationRoot)
  lineage : r.action = .rollback → wasPublished (w.records key) r.generationRoot = true
  limit : (w.records key).length < (config p).limits.maxPublicationRecords.val
  expects : ∃ call : Call, w.history[id]? = some (p, call) ∧
    call.Expects key ((impliedHead (w.records key)).map (·.headRoot))

theorem Committable.quiet (h : Committable config strict p id key r w)
    (hold : w.Holds p (.nameSpace key)) (hq : Quiet p w w')
    (hrecords : w'.records key = w.records key) : Committable config strict p id key r w' := by
  refine ⟨h.toUncommitted.calm hq.calm, ?_, h.nameSpace, ?_, ?_, ?_, ?_⟩ <;> try rw [hrecords]
  · exact h.follows
  · obtain ⟨m, hb, hm, hlive⟩ := h.binds
    refine ⟨m, hb, hq.has hm, fun ha hr => hlive ha (hq.retired m hm (.inr ⟨key, ?_, hold⟩) hr)⟩
    rw [hb.nameSpace]
    exact h.nameSpace
  · exact h.lineage
  · exact h.limit
  · obtain ⟨call, hcall, hexp⟩ := h.expects
    exact ⟨call, getElem?_eq_of_isPrefix hq.history hcall, hexp⟩

theorem Committable.logOk (w' : World) (h : Committable config strict p id key r w)
    (hok : LogOk config w key) (hhas : ∀ m, w.Has m → w'.Has m) (hhistory : w'.history = w.history)
    (hcurrent : w'.disk (.current key) = w.disk (.current key))
    (hlog : w'.disk (.log key) = some (encodeLog (w.records key ++ [r])))
    (hcommits : w'.commits key = w.commits key ++ [id]) :
    LogOk config w' key ∧ w'.records key = w.records key ++ [r] := by
  have hholds : LogHolds (w'.disk (.log key)) (w.records key ++ [r]) [] := by
    refine ⟨?_, by simp, by simp⟩
    rw [hlog, append_nil]
    rfl
  have hrecords := records_of_logHolds hholds
  refine ⟨?_, hrecords⟩
  constructor <;> simp only [hrecords]
  · exact ⟨[], hholds⟩
  · exact validChain_concat.mpr ⟨hok.chain, h.follows⟩
  · exact lineage_concat hok.lineage fun ha => .inr (h.lineage ha)
  · intro x hx
    rcases mem_append.mp hx with hx | hx
    · obtain ⟨hkey, m, hb, hm⟩ := hok.binds x hx
      exact ⟨hkey, m, hb, hhas m hm⟩
    · obtain rfl := mem_singleton.mp hx
      obtain ⟨m, hb, hm, -⟩ := h.binds
      exact ⟨h.nameSpace, m, hb, hhas m hm⟩
  · refine fun _ => ⟨p, ?_⟩
    rw [length_append, length_singleton]
    exact h.limit
  · intro data hd
    obtain ⟨x, hx, rfl⟩ := hok.current data (hcurrent.symm.trans hd)
    exact ⟨x, mem_append_left _ hx, rfl⟩
  · rw [hcommits, length_append, length_append, hok.commits]
    rfl
  · intro i id' hid
    rw [hcommits, hhistory] at *
    rcases getElem?_concat.mp hid with hid | ⟨rfl, rfl⟩
    · obtain ⟨q, call, hcall, hexp⟩ := hok.expects i id' hid
      have hi : i ≤ (w.records key).length := by
        rw [← hok.commits]
        exact (List.getElem?_eq_some_iff.mp hid).1.le
      rw [take_append_of_le_length hi]
      exact ⟨q, call, hcall, hexp⟩
    · obtain ⟨call, hcall, hexp⟩ := h.expects
      rw [hok.commits, take_append_of_le_length le_rfl, take_length]
      exact ⟨p, call, hcall, hexp⟩

theorem World.log_append (w : World) (p : StoreId) (key : Digest) (view : Bytes) :
    (w.append p key view).log key = w.log key ++ view := by
  simp [log, append]

variable {m : GenerationManifest} {view : Bytes}

section

variable (hold : w.Holds p (.nameSpace key))
include hold

theorem Inv.keeps_commit (hi : Inv config strict w)
    (hc : Committable config strict p id key r w) {tail : Bytes}
    (hlog : w.log key = encodeLog (w.records key) ++ tail) (hview : tail ++ view = r.encode ++ [10])
    (hnewline : (10 : UInt8) ∈ view) (hal : strict → LivePublication w (w.append p key view)) :
    (discipline config strict).Keeps p w (w.append p key view) ∧
      Stays p w (w.append p key view) ∧
      (w.append p key view).records key = w.records key ++ [r] ∧
      (w.append p key view).commits key = w.commits key ++ [id] := by
  have hdisk : ∀ path, path ≠ .log key → (w.append p key view).disk path = w.disk path :=
    fun path h => update_of_ne h _ _
  have hlog' : (w.append p key view).disk (.log key) =
      some (encodeLog (w.records key ++ [r])) := by
    refine (update_self ..).trans (congrArg some ?_)
    rw [encodeLog_concat, ← hview, ← append_assoc, ← hlog]
    rfl
  have hcommits : (w.append p key view).commits = update w.commits key
      (w.commits key ++ [id]) := by
    simp only [append, hnewline, if_true, hc.running, Option.toList_some]
  obtain ⟨hlogOk, hrecords⟩ := hc.logOk (w.append p key view) (hi.logs key)
    (fun m hm => (hdisk (.manifest m.generationRoot) (by simp)).trans hm) rfl
    (hdisk _ (by simp)) hlog' (by rw [hcommits, update_self])
  have hself : (w.append p key view).commits key = w.commits key ++ [id] := by
    rw [hcommits, update_self]
  -- the new record's generation is not retired, and `CURRENT` is as before
  have halive : strict → ∀ g, w.Retired g → Dispensable (w.append p key view) key g := by
    intro hs g hg
    obtain ⟨m, hb, -, hlive⟩ := hc.binds
    have hr : r.generationRoot ≠ g := by
      rintro rfl
      cases ha : r.action with
      | publish => exact hal hs key r hrecords ha hg
      | rollback => exact hlive ha (hb.generationRoot ▸ hg)
    have hold := hi.alive hs key g hg
    constructor <;> rw [hrecords]
    · intro x hx
      rw [getLast?_concat] at hx
      exact Option.some.inj hx ▸ hr
    · intro x hx hd
      rcases mem_append.mp hx with hx | hx
      · exact hold.current x hx ((hdisk _ (by simp)).symm.trans hd)
      · exact mem_singleton.mp hx ▸ hr
  have hkeeps := hi.keeps_of_nameSpace (p := p) hold (fun path h _ => hdisk path h)
    (fun key' hne => by rw [hcommits, update_of_ne hne])
    (hrecords ▸ prefix_append _ _) (.inr ⟨id, hc.running, hc.fresh, hself⟩) hlogOk halive
  exact ⟨hkeeps.1, hkeeps.2.1, hrecords, hself⟩

theorem Inv.keeps_partial (hi : Inv config strict w)
    {tail : Bytes} (hlog : w.log key = encodeLog (w.records key) ++ tail)
    (hview : tail ++ view <+: r.encode) :
    (discipline config strict).Keeps p w (w.append p key view) ∧
      Quiet p w (w.append p key view) ∧
      (w.append p key view).records key = w.records key := by
  have hnewline : (10 : UInt8) ∉ tail ++ view := fun h => r.newline_notMem_encode (hview.subset h)
  have hsame : w.append p key view = w.write (.log key) (w.log key ++ view) := by
    have hn : (10 : UInt8) ∉ view := fun h => hnewline (mem_append_right _ h)
    simp only [append, hn, if_false, write, log]
  rw [hsame]
  refine hi.keeps_of_sameRecords (t := tail ++ view) hold (fun path h _ => write_of_ne h _)
    ⟨?_, hnewline, ?_⟩ fun data hd => .inl ?_
  · rw [update_self, ← append_assoc, ← hlog]
    rfl
  · exact hview.length_le.trans (r.length_encode_lt).le
  · rwa [update_of_ne (by simp)] at hd

/-- The `while` loop of `_append_publication_record`: what is left to write is the rest of the
record's line. -/
theorem safe_appendAll {fuel : Nat} (tail : Bytes)
    (hc : Committable config strict p id key r w)
    (hlog : w.log key = encodeLog (w.records key) ++ tail) (hview : tail ++ view = r.encode ++ [10])
    (hne : view ≠ []) (hfuel : view.length ≤ fuel) :
    Safe (discipline config strict) p (appendAll key fuel view)
      (fun res w' => res = .ok () ∧ Stays p w w' ∧ w'.records key = w.records key ++ [r] ∧
        (w'.commits key)[(w.records key).length]? = some id) w := by
  induction fuel generalizing w tail view with
  | zero => exact absurd (length_eq_zero_iff.mp (Nat.le_zero.mp hfuel)) hne
  | succ fuel ih =>
    obtain ⟨b, view, rfl⟩ := exists_cons_of_ne_nil hne
    intro w₁ hr hi (n : Nat) w₂ he hal
    obtain ⟨hn, hle, rfl⟩ : (1 ≤ n ∨ b :: view = []) ∧ n ≤ (b :: view).length ∧
      w₂ = w₁.append p key ((b :: view).take n) := he
    have hold₁ := (hr.holds _).mpr hold
    have hrec₁ := hr.records_eq hold
    have hc₁ := hc.quiet hold hr.toQuiet hrec₁
    have hlog₁ : w₁.log key = encodeLog (w₁.records key) ++ tail := by
      rw [hrec₁, ← hlog, log, (hr.nameSpace key hold).1]
      rfl
    show _ ∧ Safe _ p (appendAll key fuel ((b :: view).drop n)) _ _
    by_cases hfull : n = (b :: view).length
    · rw [hfull, take_length] at hal ⊢
      rw [drop_length]
      have hnewline : (10 : UInt8) ∈ b :: view := by
        have hlast := congrArg getLast? hview
        rw [getLast?_append_of_ne_nil _ hne, getLast?_concat] at hlast
        exact mem_of_getLast? hlast
      obtain ⟨hkeeps, hstays, hrec₂, hcommits₂⟩ := 
        hi.keeps_commit hold₁ hc₁ hlog₁ hview hnewline hal
      have hdone : appendAll key fuel [] = pure () := by cases fuel <;> rfl
      rw [hdone]
      refine ⟨hkeeps, fun w₃ hr₃ _ => ?_⟩
      have hold₂ := (hstays.holds _).mpr hold₁
      refine ⟨rfl, (hr.toStays.trans hstays).trans hr₃.toStays, ?_, ?_⟩
      · rw [hr₃.records_eq hold₂, hrec₂, hrec₁]
      · rw [(hr₃.nameSpace key hold₂).2.2, hcommits₂, ← hrec₁, ← (hi.logs key).commits]
        exact getElem?_concat_length
    · -- the rest of the line is still to come, so no line break was written
      have hsplit : tail ++ (b :: view).take n ++ (b :: view).drop n = r.encode ++ [10] := by
        rw [append_assoc, take_append_drop, hview]
      have hrest : (b :: view).drop n ≠ [] := by
        rw [Ne, drop_eq_nil_iff]
        omega
      have hpartial : tail ++ (b :: view).take n <+: r.encode := by
        rcases prefix_concat_iff.mp ⟨_, hsplit⟩ with h | h
        · rw [h] at hsplit
          exact absurd (append_right_eq_self.mp hsplit) hrest
        · exact h
      obtain ⟨hkeeps, hquiet, hrec₂⟩ := hi.keeps_partial hold₁ hlog₁ hpartial
      refine ⟨hkeeps, (ih ((hquiet.holds _).mpr hold₁) _ (hc₁.quiet hold₁ hquiet hrec₂) ?_ hsplit hrest
        ?_).mono ?_⟩
      · rw [hrec₂, ← append_assoc, ← hlog₁]
        exact log_append _ _ _ _
      · rw [length_drop]
        have := hn.resolve_right (by simp)
        omega
      · rintro res w₃ _ ⟨rfl, hstays, hrec₃, hid⟩
        refine ⟨rfl, (hr.toStays.trans hquiet.toStays).trans hstays, ?_, ?_⟩
        · rw [hrec₃, hrec₂, hrec₁]
        · rwa [hrec₂, hrec₁] at hid

theorem safe_createLog :
    Safe (discipline config strict) p (createLog key)
      (fun r w' => ∃ a, r = .ok a ∧ Quiet p w w' ∧ w'.records key = w.records key ∧
        w'.log key = w.log key) w := by
  refine safe_sameRecords (o := .create key) (Q := fun _ log _ => log.getD [] = w.log key) hold
    fun w₁ a w₂ hi₁ hold₁ hl hc he => ?_
  simp only [exec] at he
  have hlog₁ : w₁.log key = w.log key := congrArg (Option.getD · []) hl
  split at he
  · rename_i hnone
    subst he
    have hempty : w₁.log key = [] := by rw [log, hnone]; rfl
    obtain ⟨tail, htail⟩ := (hi₁.logs key).holds
    refine ⟨hi₁.keeps_of_sameRecords (t := tail) hold₁ (fun path h _ => write_of_ne h _)
      ⟨?_, htail.newline, htail.length⟩ fun data hd => .inl ?_, ?_⟩
    · rw [update_self, ← htail.eq]
      exact hempty.symm
    · rwa [update_of_ne (by simp)] at hd
    · rw [write_self, ← hlog₁, hempty]
      rfl
  · subst he
    exact ⟨⟨.refl hi₁, .refl p w₂, rfl⟩, hlog₁⟩

theorem safe_appendPublicationRecord
    (hc : Committable config strict p id key r w) (hlog : w.log key = encodeLog (w.records key)) :
    Safe (discipline config strict) p (appendPublicationRecord key r)
      (fun res w' => res = .ok () ∧ Stays p w w' ∧ w'.records key = w.records key ++ [r] ∧
        (w'.commits key)[(w.records key).length]? = some id) w := by
  refine bind (safe_createLog hold) ?_ ?_
  · rintro ⟨⟩ w₁ _ ⟨-, -, hq, hrec, hlog₁⟩
    have hc₁ := hc.quiet hold hq hrec
    refine (safe_appendAll ((hq.holds _).mpr hold) [] hc₁ ?_ rfl (by simp) le_rfl).mono ?_
    · rw [hlog₁, hrec, hlog, append_nil]
    · rintro res w₂ _ ⟨rfl, hstays, hrec₂, hid⟩
      exact ⟨rfl, hq.toStays.trans hstays, by rw [hrec₂, hrec], by rwa [hrec] at hid⟩
  · rintro e w₁ _ ⟨a, h, -⟩
    cases h

theorem safe_writeHead
    (hr : (w.records key).getLast? = some r) :
    Safe (discipline config strict) p (writeHead key (headOf r))
      (fun res w' => Quiet p w w' ∧
        ∀ e, res = .error e → ∃ boundary, e ∈ (config p).failureInjector boundary) w := by
  refine bind (safe_hit .beforeCurrentHeadCas) ?_ fun e w' _ h =>
    ⟨h.1.toQuiet, fun e' he => ⟨_, h.2 e' he⟩⟩
  rintro ⟨⟩ w₁ _ ⟨hr₁, -⟩
  have hlast : (w₁.records key).getLast? = some r := by rwa [hr₁.records_eq hold]
  refine bind (safe_replaceCurrent ((hr₁.holds _).mpr hold) hlast) ?_ ?_
  · rintro ⟨⟩ w₂ _ ⟨-, -, hq, -⟩
    refine (safe_hit .afterCurrentHeadCas).mono fun res w₃ _ h => ?_
    exact ⟨(hr₁.toQuiet.trans hq).trans h.1.toQuiet, fun e he => ⟨_, h.2 e he⟩⟩
  · rintro e w₂ _ ⟨a, h, -⟩
    cases h

end

/-- How a call that publishes ends: with a record in the log that is this call's, or with an
exception. Once the record is complete, only an injected failure can be the exception. -/
structure Ends (config : StoreId → StoreConfig) (p : StoreId) (id : Nat)
    (res : Except Error (GenerationHead × GenerationPublicationRecord)) (w : World) : Prop where
  running : w.running p = some id
  ok : ∀ x, res = .ok x → x.1 = headOf x.2 ∧ ∃ key, ∃ i : Nat,
    namespaceKey x.2.nameSpace.val = .ok key ∧ (w.commits key)[i]? = some id ∧
      (w.records key)[i]? = some x.2
  error : ∀ e, res = .error e →
    (∀ key, id ∉ w.commits key) ∨ ∃ boundary, e ∈ (config p).failureInjector boundary

theorem Ends.calm {res : Except Error (GenerationHead × GenerationPublicationRecord)}
    (h : Ends config p id res w) (hc : Calm p w w') : Ends config p id res w' where
  running := hc.running.trans h.running
  ok x hx := by
    obtain ⟨hhead, key, i, hkey, hi, hr⟩ := h.ok x hx
    exact ⟨hhead, key, i, hkey, getElem?_eq_of_isPrefix (hc.commits key) hi,
      getElem?_eq_of_isPrefix (hc.records key) hr⟩
  error e he := (h.error e he).imp_left fun hf key hk =>
    hf key (hc.committed key id h.running hk)

theorem Uncommitted.ends (h : Uncommitted p id w) (e : Error) : Ends config p id (.error e) w :=
  ⟨h.running, by simp, fun _ _ => .inl h.fresh⟩

theorem safe_commitRecord {action : PublicationAction} {current : Option Root}
    (hold : w.Holds p (.nameSpace key)) (hu : Uncommitted p id w) (hm : w.Has m)
    (hkey : namespaceKey m.nameSpace.val = .ok key)
    (hlive : action = .rollback → ¬ w.Retired m.generationRoot)
    (hlog : w.log key = encodeLog (w.records key))
    (hcurrent : current = (w.records key).getLast?.map (·.generationRoot))
    (hparent : action = .publish → m.parentGenerationRoot = current)
    (hlineage : action = .rollback → wasPublished (w.records key) m.generationRoot = true)
    (hlimit : (w.records key).length < (config p).limits.maxPublicationRecords.val)
    (hexpects : ∃ call : Call, w.history[id]? = some (p, call) ∧
      call.Expects key ((impliedHead (w.records key)).map (·.headRoot))) :
    Safe (discipline config strict) p
      (commitRecord m.nameSpace.val key action m (m.receipt .published) m.generationRoot current
        (w.records key))
      (fun res w' => Stays p w w' ∧ Ends config p id res w') w := by
  have herror : ∀ e w', Rely p w w' → Stays p w w' ∧ Ends config p id (.error e) w' :=
    fun e w' hr => ⟨hr.toStays, (hu.calm hr.toQuiet.calm).ends e⟩
  refine liftM_bind (fun r hinit => ?_) fun e w' _ hr _ => herror e w' hr
  obtain ⟨hname, haction, hgeneration, hmanifest, hreceipt, hprevious⟩ :=
    GenerationPublicationRecord.init_eq_ok hinit
  refine liftM_bind (fun _ hvalid => ?_) fun e w' _ hr _ => herror e w' hr
  have hbinds : Binds m r := ⟨hgeneration.symm, hname.symm, hmanifest.symm, hreceipt.symm, fun ha =>
    (hparent (haction ▸ ha)).trans hprevious.symm⟩
  have hc : Committable config strict p id key r w :=
    { hu with
      follows := by rwa [Follows, ← hcurrent]
      nameSpace := by rwa [hname]
      binds := ⟨m, hbinds, hm, fun ha => hlive (haction ▸ ha)⟩
      lineage := fun ha => by
        rw [hgeneration]
        exact hlineage (haction ▸ ha)
      limit := hlimit
      expects := hexpects }
  refine bind (safe_appendPublicationRecord hold hc hlog) ?_ ?_
  · rintro ⟨⟩ w₁ hi₁ ⟨-, hstays, hrec, hid⟩
    have hlast : (w₁.records key).getLast? = some r := by rw [hrec, getLast?_concat]
    have hhead : headOfRecord m.nameSpace.val r = .ok (headOf r) := by
      rw [← hname]
      exact headOfRecord_eq r
    rw [hhead, Prog.liftM_ok_bind]
    refine bind_done ((safe_writeHead ((hstays.holds _).mpr hold) hlast).mono ?_)
    rintro res w₂ _ ⟨hq, herr⟩
    refine ⟨hstays.trans hq.toStays, ?_⟩
    -- the record is complete, so the call's place in the log is fixed
    have hends : Ends config p id (res >>= fun _ => .ok (headOf r, r)) w₁ := by
      refine ⟨hstays.running.trans hu.running, fun x hx => ?_, fun e he => .inr ?_⟩
      · cases res with
        | error e => cases hx
        | ok u =>
          obtain rfl := Except.ok.inj hx
          refine ⟨rfl, key, (w.records key).length, by rwa [hname], hid, ?_⟩
          rw [hrec]
          exact getElem?_concat_length
      · cases res with
        | error e' =>
          obtain rfl : e' = e := Except.error.inj he
          exact herr e' rfl
        | ok u => cases he
    exact hends.calm hq.calm
  · rintro e w₁ _ ⟨h, -⟩
    cases h

/-! ## The two calls -/

/-- How a call of `publish` or `rollback` ends. -/
def PublicationEnds (config : StoreId → StoreConfig) (p : StoreId) (id : Nat)
    (r : Except Error PublicationResult) : World → Prop :=
  Ends config p id (r.map fun x => (x.head, x.record))

theorem safe_readPublicationRecords (nameSpace : Str) (hi : Inv config strict w)
    (hold : w.Holds p (.nameSpace key)) :
    Safe (discipline config strict) p (readPublicationRecords (config p) nameSpace key false)
      (fun r w' => Rely p w w' ∧ ∀ x, r = .ok x → x.1 = w'.records key) w := by
  have hok := hi.logs key
  obtain ⟨tail, htail⟩ := hok.holds
  obtain ⟨result, heval, hresult⟩ := eval_readPublicationRecords (config p) nameSpace false
    (settledDisk_log hold) htail hok.chain
  refine (safe_of_settled heval).mono ?_
  rintro r w' _ ⟨rfl, hr⟩
  refine ⟨hr, fun x hx => ?_⟩
  rw [((hresult x).mp hx).1, hr.records_eq hold]

theorem impliedHead_generationRoot (records : List GenerationPublicationRecord) :
    (impliedHead records).map (·.generationRoot) =
      records.getLast?.map (·.generationRoot) := by
  rw [impliedHead, Option.map_map]
  rfl

theorem safe_publishLocked {expected : Option Root} (hi : Inv config strict w)
    (hold : w.Holds p (.nameSpace key)) (hu : Uncommitted p id w) (hm : w.Has m)
    (hkey : namespaceKey m.nameSpace.val = .ok key)
    (hcall : ∃ call : Call, w.history[id]? = some (p, call) ∧ call.Expects key expected) :
    Safe (discipline config strict) p
      (publishLocked (config p) m (m.receipt .published) expected key)
      (fun r w' => Stays p w w' ∧ PublicationEnds config p id r w') w := by
  have herror : ∀ e w', Quiet p w w' →
      Stays p w w' ∧ PublicationEnds config p id (.error e) w' :=
    fun e w' hq => ⟨hq.toStays, (hu.calm hq.calm).ends e⟩
  refine bind (safe_recoverLocked _ hi hold) ?_ fun e w' _ h => herror e w' h.1
  rintro recovery w₁ hi₁ ⟨hq₁, hrec₁, hok, -⟩
  obtain ⟨hrecovered, ⟨-, hhead, -⟩⟩ := hok recovery rfl
  have hold₁ := (hq₁.holds _).mpr hold
  refine liftM_bind (fun _ hexpected => ?_)
    fun e w' _ hr _ => herror e w' (hq₁.trans hr.toQuiet)
  have hexpected := not_not.mp (raiseIf_eq_ok.mp hexpected)
  refine liftM_bind (fun _ hparent => ?_)
    fun e w' _ hr _ => herror e w' (hq₁.trans hr.toQuiet)
  have hparent := not_not.mp (raiseIf_eq_ok.mp hparent)
  refine bind (safe_readPublicationRecords _ hi₁ hold₁) ?_
    fun e w' _ h => herror e w' (hq₁.trans h.1.toQuiet)
  rintro ⟨records, torn⟩ w₂ _ ⟨hr₂, hrecords⟩
  obtain rfl : records = w₂.records key := hrecords _ rfl
  have hq₂ := hq₁.trans hr₂.toQuiet
  have hrec₂ := hr₂.records_eq hold₁
  refine liftM_bind (fun _ hlimit => ?_)
    fun e w' _ hr _ => herror e w' (hq₂.trans hr.toQuiet)
  have hlimit := not_le.mp (raiseIf_eq_ok.mp hlimit)
  rw [hhead, ← hrec₁, ← hrec₂] at hexpected hparent ⊢
  obtain ⟨call, hcall, hexp⟩ := hcall
  refine bind_done ((safe_commitRecord ((hr₂.holds _).mpr hold₁) (hu.calm hq₂.calm)
    (hq₂.has hm) hkey (by simp) ?_ (impliedHead_generationRoot _) (fun _ => hparent)
    (by simp) hlimit ⟨call, getElem?_eq_of_isPrefix hq₂.history hcall, hexpected ▸ hexp⟩).mono ?_)
  · rw [log, (hr₂.nameSpace key hold₁).1, hrec₂]
    exact hrecovered.log
  · rintro r w₃ _ ⟨hstays, hends⟩
    refine ⟨hq₂.toStays.trans hstays, ?_⟩
    cases r <;> exact hends

theorem safe_publish {candidate : GenerationCandidate} {expected : Option Str}
    (hu : Uncommitted p id w) (hcall : w.history[id]? = some (p, .publish candidate expected)) :
    Safe (discipline config strict) p (publish (config p) candidate expected)
      (fun r w' => Stays p w w' ∧ PublicationEnds config p id r w') w := by
  refine liftM_bind (fun root hroot => ?_)
    fun e w' _ hr _ => ⟨hr.toStays, (hu.calm hr.toQuiet.calm).ends e⟩
  have hmem : (p, Call.publish candidate expected) ∈ w.history := mem_of_getElem? hcall
  refine bind (safe_materializeGeneration ⟨p, expected, hmem⟩) ?_
    fun e w' _ h => ⟨h.1.toStays, (hu.calm h.1.toQuiet.calm).ends e⟩
  rintro x w₁ _ ⟨hr₁, hok⟩
  obtain ⟨hm, rfl⟩ := hok x rfl
  have hu₁ := hu.calm hr₁.toQuiet.calm
  have hcall₁ := getElem?_eq_of_isPrefix hr₁.history hcall
  refine (stays_withNamespaceLock
    (P := PublicationEnds config p id) (fun _ _ _ hc h => Ends.calm h hc) (fun e w' hr => (hu₁.calm hr.toQuiet.calm).ends e) ?_).mono
    fun r w' _ h => ⟨hr₁.toStays.trans h.1, h.2⟩
  intro key w₂ hkey hi₂ hentered
  exact safe_publishLocked hi₂ hentered.holds (hu₁.calm hentered.calm)
    (hentered.within.kept (.manifest _) trivial _ hm) hkey
    ⟨.publish candidate expected, getElem?_eq_of_isPrefix hentered.calm.history hcall₁, hkey, hroot⟩

theorem safe_isRetired (hi : Inv config strict w) (hm : w.Has m)
    (hp : w.Holds p (.pin m.generationRoot) ∨ w.Guards p m) :
    Safe (discipline config strict) p (isRetired (config p) m.generationRoot)
      (fun r w' => Rely p w w' ∧ (r = .ok false → ¬ w'.Retired m.generationRoot)) w := by
  have hretired := settledDisk_retired hm hp
  obtain ⟨result, heval, hresult, -⟩ := eval_isRetired (config p) (stored_of_has hi hm) hretired
    fun data hd => by
      obtain ⟨m', hg, hdata, hm'⟩ := hi.receipts _ _ data hd
      rw [hdata, hm'.unique hm hg]
  refine (safe_of_settled heval).mono ?_
  rintro r w' _ ⟨rfl, hr⟩
  refine ⟨hr, fun hfalse hret => ?_⟩
  have hnone : w.disk (.receipt m.generationRoot .retired) = none := by
    simpa using (hresult false hfalse).symm
  exact hr.retired m hm hp hret hnone

theorem safe_rollbackLocked {nameSpace : Str} {target expected : Root} (hi : Inv config strict w)
    (hold : w.Holds p (.nameSpace key)) (hu : Uncommitted p id w)
    (hkey : namespaceKey nameSpace = .ok key)
    (hcall : ∃ call : Call, w.history[id]? = some (p, call) ∧ call.Expects key (some expected)) :
    Safe (discipline config strict) p (rollbackLocked (config p) nameSpace target expected key)
      (fun r w' => Stays p w w' ∧ PublicationEnds config p id r w') w := by
  have herror : ∀ e w', Quiet p w w' →
      Stays p w w' ∧ PublicationEnds config p id (.error e) w' :=
    fun e w' hq => ⟨hq.toStays, (hu.calm hq.calm).ends e⟩
  refine bind (safe_recoverLocked _ hi hold) ?_ fun e w' _ h => herror e w' h.1
  rintro recovery w₁ hi₁ ⟨hq₁, hrec₁, hok, -⟩
  obtain ⟨hrecovered, ⟨-, hhead, -⟩⟩ := hok recovery rfl
  have hold₁ := (hq₁.holds _).mpr hold
  refine liftM_bind (fun _ hexpected => ?_)
    fun e w' _ hr _ => herror e w' (hq₁.trans hr.toQuiet)
  have hexpected := not_not.mp (raiseIf_eq_ok.mp hexpected)
  refine bind (safe_verifyGeneration target) ?_
    fun e w' _ h => herror e w' (hq₁.trans h.1.toQuiet)
  rintro x w₂ hi₂ ⟨hr₂, hverified⟩
  obtain ⟨m, rfl, hm, -, rfl⟩ := hverified x rfl
  have hq₂ := hq₁.trans hr₂.toQuiet
  refine liftM_bind (fun _ hname => ?_)
    fun e w' _ hr _ => herror e w' (hq₂.trans hr.toQuiet)
  obtain rfl := not_not.mp (raiseIf_eq_ok.mp hname)
  have hold₂ := (hr₂.holds _).mpr hold₁
  refine bind (safe_isRetired hi₂ hm (.inr ⟨key, hkey, hold₂⟩)) ?_
    fun e w' _ h => herror e w' (hq₂.trans h.1.toQuiet)
  rintro retired w₃ hi₃ ⟨hr₃, hretired⟩
  have hq₃ := hq₂.trans hr₃.toQuiet
  have hold₃ := (hr₃.holds _).mpr hold₂
  refine liftM_bind (fun _ hnot => ?_)
    fun e w' _ hr _ => herror e w' (hq₃.trans hr.toQuiet)
  have hlive := hretired (congrArg Except.ok ((Bool.not_eq_true _).mp (raiseIf_eq_ok.mp hnot)))
  refine bind (safe_readPublicationRecords _ hi₃ hold₃) ?_
    fun e w' _ h => herror e w' (hq₃.trans h.1.toQuiet)
  rintro ⟨records, torn⟩ w₄ _ ⟨hr₄, hrecords⟩
  obtain rfl : records = w₄.records key := hrecords _ rfl
  have hq₄ := hq₃.trans hr₄.toQuiet
  have hr₁₄ := (hr₂.trans hr₃).trans hr₄
  have hrec₄ := hr₁₄.records_eq hold₁
  refine liftM_bind (fun _ hpublished => ?_)
    fun e w' _ hr _ => herror e w' (hq₄.trans hr.toQuiet)
  have hpublished := (Bool.not_eq_false _).mp (raiseIf_eq_ok.mp hpublished)
  refine liftM_bind (fun _ hlimit => ?_)
    fun e w' _ hr _ => herror e w' (hq₄.trans hr.toQuiet)
  have hlimit := not_le.mp (raiseIf_eq_ok.mp hlimit)
  rw [hhead, ← hrec₁, ← hrec₄] at hexpected ⊢
  obtain ⟨call, hcall, hexp⟩ := hcall
  refine bind_done ((safe_commitRecord ((hr₁₄.holds _).mpr hold₁) (hu.calm hq₄.calm)
    (hr₄.has (hr₃.has hm)) hkey (fun _ hret => ?_) ?_ (impliedHead_generationRoot _) (by simp)
    (fun _ => hpublished) hlimit
    ⟨call, getElem?_eq_of_isPrefix hq₄.history hcall, hexpected ▸ hexp⟩).mono ?_)
  · exact hlive (hr₄.retired m (hr₃.has hm) (.inr ⟨key, hkey, hold₃⟩) hret)
  · rw [log, (hr₁₄.nameSpace key hold₁).1, hrec₄]
    exact hrecovered.log
  · rintro r w₅ _ ⟨hstays, hends⟩
    refine ⟨hq₄.toStays.trans hstays, ?_⟩
    cases r <;> exact hends

theorem safe_rollback {nameSpace target expected : Str} (hu : Uncommitted p id w)
    (hcall : w.history[id]? = some (p, .rollback nameSpace target expected)) :
    Safe (discipline config strict) p (rollback (config p) nameSpace target expected)
      (fun r w' => Stays p w w' ∧ PublicationEnds config p id r w') w := by
  refine liftM_bind (fun target _ => ?_)
    fun e w' _ hr _ => ⟨hr.toStays, (hu.calm hr.toQuiet.calm).ends e⟩
  refine liftM_bind (fun root hroot => ?_)
    fun e w' _ hr _ => ⟨hr.toStays, (hu.calm hr.toQuiet.calm).ends e⟩
  refine stays_withNamespaceLock
    (P := PublicationEnds config p id) (fun _ _ _ hc h => Ends.calm h hc) (fun e w' hr => (hu.calm hr.toQuiet.calm).ends e) ?_
  intro key w₁ hkey hi₁ hentered
  exact safe_rollbackLocked hi₁ hentered.holds (hu.calm hentered.calm) hkey
    ⟨_, getElem?_eq_of_isPrefix hentered.calm.history hcall, hkey, root, hroot, rfl⟩

end Commit

end Generation
