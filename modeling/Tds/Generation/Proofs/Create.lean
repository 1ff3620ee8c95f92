import Tds.Generation.Proofs.Discipline

/-!
# Reading and creating generations among other stores

A file is settled for a store when no other store can change it, so a program that reads settled
files only is evaluated once. Creating a generation adds files: objects first, then the directory
with its manifest and receipts.
-/

namespace Generation

open Python Process Safe World

variable {data : Bytes} {path : Path}

theorem readBounded_eq_ok {path : Str} {maxBytes : Nat} {contents : Option Bytes}
    (h : readBounded path maxBytes contents = .ok data) : contents = some data := by
  unfold readBounded at h
  split at h
  · cases h
  · split at h
    · cases h
    · rw [Except.ok.inj h]

section Settled

variable [Runtime] {config : StoreId → StoreConfig} {strict : Prop} {p : StoreId} {w : World}

/-- The other stores leave the file as it is. -/
def Settled (p : StoreId) (w : World) (path : Path) : Prop :=
  ∀ w', Rely p w w' → w'.disk path = w.disk path

open Classical in
noncomputable def settledDisk (p : StoreId) (w : World) (path : Path) : Option (Option Bytes) :=
  if Settled p w path then some (w.disk path) else none

theorem settledDisk_of_permanent (h : w.disk path = some data) (hp : path.Permanent) :
    settledDisk p w path = some (some data) := by
  have hs : Settled p w path := fun w' hr => (hr.kept path hp data h).trans h.symm
  rw [settledDisk, if_pos hs, h]

theorem settledDisk_log {key : Digest} (h : w.Holds p (.nameSpace key)) :
    settledDisk p w (.log key) = some (w.disk (.log key)) :=
  if_pos fun _ hr => (hr.nameSpace key h).1

theorem settledDisk_current {key : Digest} (h : w.Holds p (.nameSpace key)) :
    settledDisk p w (.current key) = some (w.disk (.current key)) :=
  if_pos fun _ hr => (hr.nameSpace key h).2.1

theorem settledDisk_retired {m : GenerationManifest} (hm : w.Has m)
    (h : w.Holds p (.pin m.generationRoot) ∨ w.Guards p m) :
    settledDisk p w (.receipt m.generationRoot .retired) =
      some (w.disk (.receipt m.generationRoot .retired)) := by
  refine if_pos fun w' hr => ?_
  cases hd : w.disk (.receipt m.generationRoot .retired) with
  | some data => exact hr.kept (.receipt _ _) trivial data hd
  | none =>
    by_contra hn
    exact hr.retired m hm h hn hd

theorem stored_of_has (hi : Inv config strict w) {m : GenerationManifest} (hm : w.Has m) :
    Stored (settledDisk p w) m := by
  obtain ⟨m', hg, henc, hc⟩ := hi.generations _ _ hm
  obtain rfl := GenerationManifest.encode_injective henc
  constructor
  · exact settledDisk_of_permanent hm trivial
  · exact fun state hs => settledDisk_of_permanent (hc.receipt state hs) trivial
  · intro payload hp
    obtain ⟨data, hdata, hlen⟩ := hc.object payload hp
    exact ⟨data, settledDisk_of_permanent hdata trivial, hlen, (hi.objects _ _ hdata).1⟩

theorem safe_of_settled {α : Type} {x : Proc α} {r : Except Error α}
    (hx : x.eval (readView (settledDisk p w)) = some r) :
    Safe (discipline config strict) p x (fun r' w' => r' = r ∧ Rely p w w') w := by
  refine of_eval hx (fun w' hr _ => ?_) fun w' hr _ => ⟨rfl, hr⟩
  intro o a ha a' w''
  cases o with
  | read path =>
    have hs : Settled p w path ∧ w.disk path = a := by
      have ha' : settledDisk p w path = some a := ha
      unfold settledDisk at ha'
      split at ha'
      · exact ⟨‹_›, Option.some.inj ha'⟩
      · cases ha'
    obtain ⟨hs, rfl⟩ := hs
    show a' = w'.disk path ∧ w'' = w' ↔ _
    rw [hs w' hr]
  | _ => cases ha

theorem safe_readFile (path : Path) (hp : path.Permanent) :
    Safe (discipline config strict) p (readFile path)
      (fun r w' => Rely p w w' ∧ ∃ contents, r = .ok contents ∧
        ∀ data, contents = some data → w'.disk path = some data) w := by
  refine call fun w₁ hr hi a w₂ he _ => ?_
  obtain ⟨rfl, rfl⟩ := he
  exact ⟨.refl hi, fun w₃ hr' _ =>
    ⟨hr.trans hr', _, rfl, fun data hd => hr'.kept path hp data hd⟩⟩

theorem safe_hit (boundary : FailureBoundary) :
    Safe (discipline config strict) p (hit boundary)
      (fun r w' => Rely p w w' ∧ ∀ e, r = .error e → e ∈ (config p).failureInjector boundary) w := by
  intro w₁ hr hi a w₂ he _
  obtain ⟨rfl, ha⟩ := he
  refine ⟨.refl hi, ?_⟩
  rcases ha with rfl | ⟨e, he, rfl⟩
  · exact fun w₃ hr' _ => ⟨hr.trans hr', by simp⟩
  · intro w₃ hr' _
    exact ⟨hr.trans hr', fun e' h => by cases h; exact he⟩

theorem safe_verifyGeneration (g : Root) :
    Safe (discipline config strict) p (verifyGeneration (config p) g)
      (fun r w' => Rely p w w' ∧ ∀ x, r = .ok x → ∃ m, m.generationRoot = g ∧ w'.Has m ∧
        Accepts (config p) m ∧ x = (m, m.receipt .published)) w := by
  -- the directory must be there; from then on its files are settled
  have hdir : Safe (discipline config strict) p (requireRealDirectory (config p) (.published g))
      (fun r w' => Rely p w w' ∧ (r = .ok () → ∃ data, w'.disk (.manifest g) = some data)) w := by
    refine bind (safe_readFile (.manifest g) trivial) ?_ fun e w' _ h => ?_
    · rintro contents w' _ ⟨hr, contents', h, hd⟩
      obtain rfl := Except.ok.inj h
      cases contents with
      | none => exact fun w₂ hr' _ => ⟨hr.trans hr', by simp⟩
      | some data =>
        exact fun w₂ hr' _ => ⟨hr.trans hr', fun _ =>
          ⟨data, hr'.kept (.manifest g) trivial _ (hd data rfl)⟩⟩
    · exact ⟨h.1, by simp⟩
  refine bind hdir ?_ fun e w' _ h => ⟨h.1, by simp⟩
  rintro ⟨⟩ w' hi ⟨hr, hdata⟩
  obtain ⟨data, hdata⟩ := hdata rfl
  obtain ⟨m, rfl, rfl, -⟩ := hi.generations g data hdata
  have hs := stored_of_has (p := p) hi (show w'.Has m from hdata)
  by_cases ha : Accepts (config p) m
  · refine (safe_of_settled (eval_loadGeneration ha hs)).mono ?_
    rintro r w'' _ ⟨rfl, hr'⟩
    refine ⟨hr.trans hr', fun x hx => ⟨m, rfl, hr'.has hdata, ha, (Except.ok.inj hx).symm⟩⟩
  · obtain ⟨e, he⟩ := eval_loadGeneration_error ha hs
    refine (safe_of_settled he).mono ?_
    rintro r w'' _ ⟨rfl, hr'⟩
    exact ⟨hr.trans hr', by simp⟩

/-- The operation changes nothing. -/
def Op.ReadOnly : Op → Prop
  | read _ | memory | hit _ => True
  | _ => False

theorem safe_of_asks {α : Type} {x : Proc α} (hx : x.Asks Op.ReadOnly) :
    Safe (discipline config strict) p x (fun _ w' => Rely p w w') w := by
  refine of_asks hx fun o ho w a w' he => ?_
  cases o with
  | read _ | memory => exact he.2
  | hit _ => exact he.1
  | _ => cases ho

theorem asks_hit (boundary : FailureBoundary) : (hit boundary).Asks Op.ReadOnly := by
  refine .bind (.call trivial) fun raised => ?_
  cases raised <;> trivial

end Settled

section Candidates

variable [Runtime]

theorem checkCandidateIdentities_eq_ok {items : List (GenerationPayload × Str × Bytes)}
    (h : checkCandidateIdentities items = .ok ()) :
    ∀ item ∈ items, item.2.2.length = item.1.size.val ∧ bytesRoot item.2.2 = item.1.contentRoot := by
  induction items with
  | nil => simp
  | cons item items ih =>
    obtain ⟨identity, name, data⟩ := item
    rw [checkCandidateIdentities] at h
    split at h
    · cases h
    · rename_i hid
      rw [not_or, not_not, not_not] at hid
      rw [List.forall_mem_cons]
      exact ⟨⟨hid.1.symm, hid.2.symm⟩, ih h⟩

namespace GenerationCandidate

variable (candidate : GenerationCandidate)

theorem names_eq : candidate.payloads.map Prod.fst =
    candidate.manifest.payloads.map fun item => item.name.val := by
  have h := candidate.valid
  simp only [checkCandidate, bind_eq_ok, raiseIf_eq_ok] at h
  obtain ⟨-, -, -, h, -⟩ := h
  exact not_not.mp h

theorem identity_eq : ∀ item ∈ candidate.manifest.payloads.zip candidate.payloads,
    item.2.2.length = item.1.size.val ∧ bytesRoot item.2.2 = item.1.contentRoot := by
  have h := candidate.valid
  simp only [checkCandidate, bind_eq_ok, raiseIf_eq_ok] at h
  obtain ⟨-, -, -, -, h⟩ := h
  exact checkCandidateIdentities_eq_ok h

theorem length_payloads : candidate.payloads.length = candidate.manifest.payloads.length := by
  simpa using congrArg List.length candidate.names_eq

theorem exists_of_mem_manifest {payload : GenerationPayload}
    (h : payload ∈ candidate.manifest.payloads) :
    ∃ item, (payload, item) ∈ candidate.manifest.payloads.zip candidate.payloads := by
  obtain ⟨i, hi, rfl⟩ := List.getElem_of_mem h
  have hi' : i < candidate.payloads.length := candidate.length_payloads ▸ hi
  refine ⟨candidate.payloads.get ⟨i, hi'⟩, List.mem_iff_getElem.mpr ⟨i, ?_, ?_⟩⟩
  · rw [List.length_zip]
    omega
  · simp

end GenerationCandidate

end Candidates

section Create

variable [Runtime] {config : StoreId → StoreConfig} {strict : Prop} {p : StoreId} {w : World}

variable {root : Root}

theorem eq_of_sameObject {existing : Bytes} (h : sameObject root data existing = true) :
    existing = data := by
  rw [sameObject, Bool.and_eq_true, beq_iff_eq] at h
  exact h.1

theorem checkObject_eq_ok {c : StoreConfig} {message : String} {contents : Option Bytes}
    (h : checkObject c root data message contents = .ok ()) : contents = some data := by
  simp only [checkObject, bind_eq_ok, raiseIf_eq_ok, Bool.not_eq_false] at h
  obtain ⟨existing, hread, hsame⟩ := h
  rw [readBounded_eq_ok hread, eq_of_sameObject hsame]

theorem safe_linkObject (hroot : bytesRoot data = root) (hs : w.Supplied data) :
    Safe (discipline config strict) p (linkObject root data)
      (fun r w' => Rely p w w' ∧ ∃ linked, r = .ok linked ∧
        (linked = true → w'.disk (.object root) = some data)) w := by
  refine call fun w₁ hr hi a w₂ he _ => ?_
  simp only [discipline, exec] at he
  split at he
  · rename_i hnone
    obtain ⟨rfl, rfl⟩ := he
    obtain ⟨hkeeps, -, hown⟩ := hi.keeps_addFile (p := p) (.object root) hnone trivial
      (by simp) (fun root' h => ⟨hroot.trans (Path.object.inj h), hs.mono hr.history.subset⟩) (by simp)
    refine ⟨hkeeps, fun w₃ hr' _ => ?_⟩
    exact ⟨(hr.trans (hown (by simp))).trans hr', true, rfl, fun _ =>
      hr'.kept (.object root) trivial data (write_self _ _)⟩
  · obtain ⟨rfl, rfl⟩ := he
    exact ⟨.refl hi, fun w₃ hr' _ => ⟨hr.trans hr', false, rfl, by simp⟩⟩

theorem safe_publishObject (hroot : bytesRoot data = root) (hs : w.Supplied data) :
    Safe (discipline config strict) p (publishObject (config p) root data)
      (fun r w' => Rely p w w' ∧ (r = .ok () → w'.disk (.object root) = some data)) w := by
  refine bind (safe_linkObject hroot hs) ?_ fun e w' _ h => ⟨h.1, by simp⟩
  rintro linked w₁ _ ⟨hr, linked', h, hlinked⟩
  obtain rfl := Except.ok.inj h
  cases linked with
  | true =>
    exact fun w₂ hr' _ =>
      ⟨hr.trans hr', fun _ => hr'.kept (.object root) trivial data (hlinked rfl)⟩
  | false =>
    refine bind (safe_readFile (.object root) trivial) ?_
      fun e w' _ h => ⟨hr.trans h.1, by simp⟩
    rintro contents w₂ _ ⟨hr', contents', h, hcontents⟩
    obtain rfl := Except.ok.inj h
    intro w₃ hr'' _
    refine ⟨(hr.trans hr').trans hr'', fun h => ?_⟩
    exact hr''.kept (.object root) trivial data (hcontents data (checkObject_eq_ok h))

theorem safe_writePayloadObject (hroot : bytesRoot data = root) (hs : w.Supplied data) :
    Safe (discipline config strict) p (writePayloadObject (config p) root data)
      (fun r w' => Rely p w w' ∧ (r = .ok () → w'.disk (.object root) = some data)) w := by
  refine bind (safe_readFile (.object root) trivial) ?_ fun e w' _ h => ⟨h.1, by simp⟩
  rintro contents w₁ _ ⟨hr, contents', h, hcontents⟩
  obtain rfl := Except.ok.inj h
  cases hread : readBounded ((config p).pathText (Path.object root).text) data.length contents with
  | ok existing =>
    -- the object was there before
    intro w₂ hr' _
    refine ⟨hr.trans hr', fun h => ?_⟩
    rw [← eq_of_sameObject ((Bool.not_eq_false _).mp (raiseIf_eq_ok.mp h))]
    exact hr'.kept (.object root) trivial _ (hcontents existing (readBounded_eq_ok hread))
  | error e =>
    refine bind (safe_readFile (.object root) trivial) ?_
      fun e w' _ h => ⟨hr.trans h.1, by simp⟩
    rintro found w₂ _ ⟨hr', -⟩
    refine liftM_bind (fun _ _ => ?_) fun e w' _ hr'' _ =>
      ⟨(hr.trans hr').trans hr'', by simp⟩
    have htemporary : writeTemporary.Asks Op.ReadOnly :=
      .bind (asks_hit _) fun _ => .bind (asks_hit _) fun _ => .bind (asks_hit _) fun _ =>
        .bind (asks_hit _) fun _ => asks_hit _
    have hr₂ := hr.trans hr'
    refine bind (safe_of_asks htemporary) ?_ fun e w' _ h => ⟨hr₂.trans h, by simp⟩
    rintro ⟨⟩ w₃ _ hr''
    have hr₃ := hr₂.trans hr''
    refine bind (safe_publishObject hroot (hs.mono hr₃.history.subset)) ?_
      fun e w' _ h => ⟨hr₃.trans h.1, by simp⟩
    rintro ⟨⟩ w₄ _ ⟨hr₄, hdata⟩
    refine (safe_of_asks (asks_hit _)).mono fun r w₅ _ hr₅ => ?_
    exact ⟨(hr₃.trans hr₄).trans hr₅, fun _ => hr₅.kept (.object root) trivial data (hdata rfl)⟩

theorem safe_writePayloadObjects {items : List (GenerationPayload × Str × Bytes)}
    (h : ∀ item ∈ items, item.2.2.length = item.1.size.val ∧
      bytesRoot item.2.2 = item.1.contentRoot)
    (hs : ∀ item ∈ items, w.Supplied item.2.2) :
    Safe (discipline config strict) p (writePayloadObjects (config p) items)
      (fun r w' => Rely p w w' ∧ (r = .ok () →
        ∀ item ∈ items, w'.disk (.object item.1.contentRoot) = some item.2.2)) w := by
  induction items generalizing w with
  | nil => exact fun w' hr _ => ⟨hr, by simp⟩
  | cons item items ih =>
    rw [List.forall_mem_cons] at h hs
    refine bind (safe_writePayloadObject h.1.2 hs.1) ?_ fun e w' _ h => ⟨h.1, by simp⟩
    rintro ⟨⟩ w₁ _ ⟨hr, hdata⟩
    refine (ih h.2 fun x hx => (hs.2 x hx).mono hr.history.subset).mono ?_
    rintro r w₂ _ ⟨hr', hrest⟩
    refine ⟨hr.trans hr', fun hok => ?_⟩
    rw [List.forall_mem_cons]
    exact ⟨hr'.kept (.object _) trivial _ (hdata rfl), hrest hok⟩

theorem stagedReceipts_eq (m : GenerationManifest) (state : GenerationState) :
    stagedReceipts (GenerationState.publishedStates.map m.receipt) state =
      if state ∈ GenerationState.publishedStates then some (m.receipt state).encode else none := by
  cases state <;> rfl

/-- The generation of the manifest appears, with the receipts of a published generation. -/
def World.publishGeneration (w : World) (m : GenerationManifest) : World :=
  w.addGeneration m.generationRoot m.encode
    (stagedReceipts (GenerationState.publishedStates.map m.receipt))

section Publish

variable (m : GenerationManifest)

theorem World.has_publishGeneration : (w.publishGeneration m).Has m := if_pos rfl

theorem World.publishGeneration_receipt (state : GenerationState) :
    (w.publishGeneration m).disk (.receipt m.generationRoot state) =
      if state ∈ GenerationState.publishedStates then some (m.receipt state).encode else none :=
  (if_pos rfl).trans (stagedReceipts_eq m state)

theorem World.publishGeneration_other (h : path ≠ .manifest m.generationRoot)
    (h' : ∀ state, path ≠ .receipt m.generationRoot state) :
    (w.publishGeneration m).disk path = w.disk path := by
  cases path with
  | manifest g => exact if_neg fun hg => h (congrArg _ hg)
  | receipt g state => exact if_neg fun hg => h' state (congrArg (Path.receipt · state) hg)
  | _ => rfl

variable {m}

/-- A file that is not there for want of a manifest: the generation's files appear together. -/
theorem Inv.receipt_eq_none (hi : Inv config strict w)
    (hnone : w.disk (.manifest m.generationRoot) = none) (state : GenerationState) :
    w.disk (.receipt m.generationRoot state) = none := by
  by_contra h
  obtain ⟨data, hdata⟩ := Option.ne_none_iff_exists'.mp h
  obtain ⟨m', hg, -, hm'⟩ := hi.receipts _ state data hdata
  rw [World.Has, hg, hnone] at hm'
  cases hm'

theorem Inv.publishGeneration_kept (hi : Inv config strict w)
    (hnone : w.disk (.manifest m.generationRoot) = none) (hd : w.disk path = some data) :
    (w.publishGeneration m).disk path = some data := by
  rw [publishGeneration_other, hd]
  · rintro rfl
    rw [hnone] at hd
    cases hd
  · rintro state rfl
    rw [hi.receipt_eq_none hnone] at hd
    cases hd

theorem World.retired_of_publishGeneration (g : Root) (h : (w.publishGeneration m).Retired g) :
    w.Retired g := by
  by_cases hg : g = m.generationRoot
  · subst hg
    exact absurd (publishGeneration_receipt m .retired) h
  · rwa [World.Retired, publishGeneration_other m (by simp) (by simpa using hg)] at h

theorem Inv.rely_publishGeneration (hi : Inv config strict w)
    (hnone : w.disk (.manifest m.generationRoot) = none) : Rely p w (w.publishGeneration m) :=
  .of_files (fun _ _ hd => hi.publishGeneration_kept hnone hd) (fun _ => rfl) (fun _ => rfl)
    fun _ _ _ h => retired_of_publishGeneration _ h

theorem safe_verifyExisting (message : String) :
    Safe (discipline config strict) p (verifyExisting (config p) m message)
      (fun r w' => Rely p w w' ∧ ∀ x, r = .ok x →
        w'.Has m ∧ x = (m, m.receipt .published)) w := by
  refine bind (safe_verifyGeneration m.generationRoot) ?_ fun e w' _ h => ⟨h.1, by simp⟩
  rintro ⟨loaded, published⟩ w₁ _ ⟨hr, hok⟩
  obtain ⟨m', -, hm', -, hx⟩ := hok _ rfl
  obtain ⟨rfl, rfl⟩ := Prod.mk.inj hx
  refine liftM_bind (fun _ hraise => ?_) fun e w' _ hr' _ => ⟨hr.trans hr', by simp⟩
  obtain rfl := not_not.mp (raiseIf_eq_ok.mp hraise)
  exact fun w₂ hr' _ =>
    ⟨hr.trans hr', fun x hx => ⟨hr'.has hm', (Except.ok.inj hx).symm⟩⟩

section

variable (ha : Accepts (config p) m)
  (hobject : ∀ payload ∈ m.payloads, ∃ data, w.disk (.object payload.contentRoot) = some data ∧
    data.length = payload.size.val)
  (hs : ∃ q candidate expected, (q, Call.publish candidate expected) ∈ w.history ∧
    candidate.manifest = m)
include ha hobject hs

theorem Inv.keeps_publishGeneration (hi : Inv config strict w)
    (hnone : w.disk (.manifest m.generationRoot) = none) :
    (discipline config strict).Keeps p w (w.publishGeneration m) := by
  have hcomplete : Complete config (w.publishGeneration m) m := by
    refine ⟨fun state hst => (publishGeneration_receipt m state).trans (if_pos hst),
      fun payload hp => ?_, hs, p, ha⟩
    obtain ⟨data, hdata, hlen⟩ := hobject payload hp
    exact ⟨data, hi.publishGeneration_kept hnone hdata, hlen⟩
  have hkeeps := hi.keeps_of_files (p := p) (w := w)
    (fun _ _ hd => hi.publishGeneration_kept hnone hd) (fun _ => rfl) (fun _ => rfl) ?_ ?_ ?_
  · exact hkeeps
  · intro root data hn hd
    rw [publishGeneration_other m (by simp) (by simp), hn] at hd
    cases hd
  · intro g data hn hd
    by_cases hg : g = m.generationRoot
    · subst hg
      exact ⟨m, rfl, Option.some.inj (hd.symm.trans (has_publishGeneration m)), hcomplete⟩
    · rw [publishGeneration_other m (by simpa using hg) (by simp), hn] at hd
      cases hd
  · intro g state data hn hd
    refine ⟨?_, fun hst => ?_⟩
    · by_cases hg : g = m.generationRoot
      · subst hg
        rw [publishGeneration_receipt] at hd
        split at hd
        · exact ⟨m, rfl, (Option.some.inj hd).symm, has_publishGeneration m⟩
        · cases hd
      · rw [publishGeneration_other m (by simp) (by simpa using hg), hn] at hd
        cases hd
    · subst hst
      refine absurd hn (retired_of_publishGeneration (m := m) g ?_)
      rw [World.Retired, hd]
      simp

theorem safe_renameGeneration :
    Safe (discipline config strict) p
      (renameGeneration m.generationRoot m.encode
        (stagedReceipts (GenerationState.publishedStates.map m.receipt)))
      (fun r w' => Rely p w w' ∧ (r = .ok true → w'.Has m)) w := by
  refine call fun w₁ hr hi a w₂ he _ => ?_
  simp only [discipline, exec] at he
  split at he
  · rename_i hnone
    obtain ⟨rfl, rfl⟩ := he
    refine ⟨hi.keeps_publishGeneration ha (fun payload hp => ?_) ?_ hnone, fun w₃ hr' _ => ?_⟩
    · obtain ⟨data, hdata, hlen⟩ := hobject payload hp
      exact ⟨data, hr.kept (.object _) trivial data hdata, hlen⟩
    · obtain ⟨q, candidate, expected, hmem, hm⟩ := hs
      exact ⟨q, candidate, expected, hr.history.subset hmem, hm⟩
    · have hown : Rely p w₁ (w₁.publishGeneration m) := hi.rely_publishGeneration hnone
      exact ⟨(hr.trans hown).trans hr', fun _ => hr'.has (has_publishGeneration m)⟩
  · obtain ⟨rfl, rfl⟩ := he
    exact ⟨.refl hi, fun w₃ hr' _ => ⟨hr.trans hr', by simp⟩⟩

theorem safe_publishGeneration :
    Safe (discipline config strict) p
      (publishGeneration (config p) m
        ⟨some m.encode, stagedReceipts (GenerationState.publishedStates.map m.receipt)⟩)
      (fun r w' => Rely p w w' ∧ ∀ x, r = .ok x →
        w'.Has m ∧ x = (m, m.receipt .published)) w := by
  refine bind (safe_renameGeneration ha hobject hs) ?_ fun e w' _ h => ⟨h.1, by simp⟩
  rintro renamed w₁ _ ⟨hr, hm⟩
  cases renamed with
  | true =>
    refine bind (safe_of_asks (asks_hit _)) ?_ fun e w' _ h => ⟨hr.trans h, by simp⟩
    rintro ⟨⟩ w₂ _ hr₂
    refine (safe_verifyGeneration m.generationRoot).mono ?_
    rintro r w₃ _ ⟨hr₃, hok⟩
    refine ⟨(hr.trans hr₂).trans hr₃, fun x hx => ?_⟩
    obtain ⟨m', hg, hm', -, rfl⟩ := hok x hx
    obtain rfl := hm'.unique (hr₃.has (hr₂.has (hm rfl))) hg
    exact ⟨hm', rfl⟩
  | false =>
    refine (safe_verifyExisting _).mono ?_
    rintro r w₂ _ ⟨hr₂, hok⟩
    exact ⟨hr.trans hr₂, hok⟩

end

end Publish

variable {candidate : GenerationCandidate}

theorem safe_createGeneration (ha : Accepts (config p) candidate.manifest)
    (hs : ∃ q expected, (q, Call.publish candidate expected) ∈ w.history) :
    Safe (discipline config strict) p (createGeneration (config p) candidate)
      (fun r w' => Rely p w w' ∧ ∀ x, r = .ok x → w'.Has candidate.manifest ∧
        x = (candidate.manifest, candidate.manifest.receipt .published)) w := by
  obtain ⟨q, expected, hmem⟩ := hs
  have hsupplied : ∀ item ∈ candidate.manifest.payloads.zip candidate.payloads,
      w.Supplied item.2.2 := fun item hi =>
    ⟨q, candidate, expected, item.2.1, hmem, (List.of_mem_zip hi).2⟩
  refine bind (safe_writePayloadObjects candidate.identity_eq hsupplied) ?_
    fun e w' _ h => ⟨h.1, by simp⟩
  rintro ⟨⟩ w₁ hi₁ ⟨hr, hitems⟩
  rw [candidate.manifest.buildLifecycleChain_eq]
  have hobject : ∀ payload ∈ candidate.manifest.payloads, ∃ data,
      w₁.disk (.object payload.contentRoot) = some data ∧ data.length = payload.size.val := by
    intro payload hp
    obtain ⟨item, hitem⟩ := candidate.exists_of_mem_manifest hp
    exact ⟨item.2, hitems rfl _ hitem, (candidate.identity_eq _ hitem).1⟩
  -- the staged files are private, the objects are settled
  have hstaged : (verifyStagedGeneration (config p) (.staged ⟨some candidate.manifest.encode,
      stagedReceipts (GenerationState.publishedStates.map candidate.manifest.receipt)⟩)
      candidate.manifest).eval (readView (settledDisk p w₁)) =
        some (.ok (candidate.manifest.receipt .published)) := by
    refine eval_verifyStagedGeneration ha _ rfl (fun state hst => ?_) fun payload hp => ?_
    · show some (Except.ok (stagedReceipts _ state)) = _
      rw [stagedReceipts_eq, if_pos hst]
    · obtain ⟨data, hdata, hlen⟩ := hobject payload hp
      exact ⟨data, settledDisk_of_permanent hdata trivial, hlen, (hi₁.objects _ _ hdata).1⟩
  rw [Prog.liftM_ok_bind]
  refine bind (safe_of_settled hstaged) ?_ fun e w' _ h => ⟨hr.trans h.2, by simp⟩
  rintro published w₂ _ ⟨-, hr₂⟩
  refine bind (safe_of_asks (asks_hit _)) ?_
    fun e w' _ h => ⟨(hr.trans hr₂).trans h, by simp⟩
  rintro ⟨⟩ w₃ _ hr₃
  have hr₁₃ := hr₂.trans hr₃
  refine (safe_publishGeneration ha (fun payload hp => ?_) ?_).mono ?_
  · obtain ⟨data, hdata, hlen⟩ := hobject payload hp
    exact ⟨data, hr₁₃.kept (.object _) trivial data hdata, hlen⟩
  · exact ⟨q, candidate, expected, (hr.trans hr₁₃).history.subset hmem, rfl⟩
  · rintro r w₄ _ ⟨hr₄, hok⟩
    exact ⟨(hr.trans hr₁₃).trans hr₄, hok⟩

/-- `_materialize_generation` puts the generation of the candidate in place. -/
theorem safe_materializeGeneration
    (hs : ∃ q expected, (q, Call.publish candidate expected) ∈ w.history) :
    Safe (discipline config strict) p (materializeGeneration (config p) candidate)
      (fun r w' => Rely p w w' ∧ ∀ x, r = .ok x → w'.Has candidate.manifest ∧
        x = (candidate.manifest, candidate.manifest.receipt .published)) w := by
  refine liftM_bind (fun _ ha => ?_) fun e w' _ hr _ => ⟨hr, by simp⟩
  refine bind (safe_readFile (.manifest _) trivial) ?_ fun e w' _ h => ⟨h.1, by simp⟩
  rintro contents w₁ _ ⟨hr, -⟩
  obtain ⟨q, expected, hmem⟩ := hs
  split
  · refine (safe_verifyExisting _).mono ?_
    rintro r w₂ _ ⟨hr₂, hok⟩
    exact ⟨hr.trans hr₂, hok⟩
  · refine (safe_createGeneration ha ⟨q, expected, hr.history.subset hmem⟩).mono ?_
    rintro r w₂ _ ⟨hr₂, hok⟩
    exact ⟨hr.trans hr₂, hok⟩

end Create

end Generation
