import Tds.Generation.Proofs.Log
import Tds.Process.Proofs.Program

/-!
# What the store reads

The programs that only read files, evaluated on files whose contents are known. `verifyGeneration`
accepts a directory that was written for a manifest, unless the manifest is beyond the limits of the
store that reads it.
-/

namespace Generation

open Python Process List Prog GenerationLifecycleReceipt

/-- Every rollback goes to a generation that was published before. -/
def Lineage : List Root → List GenerationPublicationRecord → Prop
  | _, [] => True
  | published, r :: records =>
    match r.action with
    | .publish => Lineage (r.generationRoot :: published) records
    | .rollback => r.generationRoot ∈ published ∧ Lineage published records

variable {records : List GenerationPublicationRecord}

theorem lineage_concat {published : List Root} {r : GenerationPublicationRecord}
    (h : Lineage published records)
    (hr : r.action = .rollback → r.generationRoot ∈ published ∨
      wasPublished records r.generationRoot = true) : Lineage published (records ++ [r]) := by
  induction records generalizing published with
  | nil =>
    cases ha : r.action with
    | publish => simp [Lineage, ha]
    | rollback => simpa [Lineage, ha, wasPublished] using hr ha
  | cons x records ih =>
    rw [cons_append]
    cases ha : x.action with
    | publish =>
      simp only [Lineage, ha] at h ⊢
      refine ih h fun hr' => ?_
      rcases hr hr' with hin | hin
      · exact .inl (mem_cons_of_mem _ hin)
      · simp only [wasPublished, any_cons, ha, beq_self_eq_true, Bool.true_and,
          Bool.or_eq_true, beq_iff_eq] at hin
        rcases hin with hin | hin
        · exact .inl (hin ▸ mem_cons_self ..)
        · exact .inr hin
    | rollback =>
      simp only [Lineage, ha] at h ⊢
      refine ⟨h.1, ih h.2 fun hr' => ?_⟩
      rcases hr hr' with hin | hin
      · exact .inl hin
      · simp only [wasPublished, any_cons, ha, Bool.or_eq_true, Bool.and_eq_true,
          beq_iff_eq, reduceCtorEq, false_and, false_or] at hin
        exact .inr hin

theorem readBounded_some {path : Str} {maxBytes : Nat} {data : Bytes} (h : data.length ≤ maxBytes) :
    readBounded path maxBytes (some data) = .ok data :=
  if_neg (by omega)

section Loading

variable [Runtime]

variable (config : StoreConfig)

theorem canonicalLoad_canonicalBytes (path : Str) {d : Nat} {v : Json}
    (h : v.Plain d) (hd : d ≤ 16) (hlen : (canonicalBytes v).length ≤ 1024) :
    canonicalLoad config path (some (canonicalBytes v)) = .ok (v.sorted, canonicalBytes v) := by
  have hmax := config.limits.maxManifestBytes.2.1
  unfold canonicalLoad
  rw [readBounded_some (hlen.trans hmax), ok_bind, loadJson_canonicalBytes h hd, ok_bind,
    canonicalJsonBytes_sorted h, ok_bind, raiseIf_neg (by simp)]
  rfl

def Accepts (config : StoreConfig) (m : GenerationManifest) : Prop :=
  validateManifestLimits config m m.encode.length = .ok ()

theorem Accepts.congr {config config' : StoreConfig} {m : GenerationManifest}
    (h : Accepts config m) (hlimits : config.limits = config'.limits) : Accepts config' m := by
  rw [Accepts, validateManifestLimits] at h ⊢
  rwa [← hlimits]

theorem length_encode_of_accepts {config : StoreConfig} {m : GenerationManifest}
    (h : Accepts config m) : m.encode.length ≤ config.limits.maxManifestBytes.val := by
  simp only [Accepts, validateManifestLimits, bind_eq_ok, raiseIf_eq_ok] at h
  obtain ⟨-, -, -, -, -, -, -, -, -, -, -, -, -, -, -, -, -, h, -⟩ := h
  omega

theorem loadManifest_encode (path : Str) (m m' : GenerationManifest) :
    loadManifest config path (some m.encode) = .ok m' ↔ m' = m ∧ Accepts config m := by
  unfold loadManifest
  by_cases hlen : m.encode.length ≤ config.limits.maxManifestBytes.val
  · rw [readBounded_some hlen, ok_bind, manifestFromJson_encode, ok_bind, bind_eq_ok]
    constructor
    · rintro ⟨_, h, hm⟩
      exact ⟨(Except.ok.inj hm).symm, h⟩
    · rintro ⟨rfl, h⟩
      exact ⟨(), h, rfl⟩
  · refine iff_of_false ?_ fun h => hlen (length_encode_of_accepts h.2)
    rw [readBounded, if_pos (by omega)]
    simp

theorem loadReceipt_encode (path : Str) (r : GenerationLifecycleReceipt) :
    loadReceipt config path (some r.encode) = .ok r := by
  have hload : canonicalLoad config path (some r.encode) = _ :=
    canonicalLoad_canonicalBytes config path r.plain_canonicalDict (by omega)
      (r.length_encode_lt.le.trans (by omega))
  unfold loadReceipt
  rw [hload, ok_bind, sorted_dict]
  dsimp only
  rw [r.fromDict_sortedFields, ok_bind, raiseIf_neg (by simp [encode])]
  rfl

theorem loadRetiredReceipt_encode (m : GenerationManifest)
    (allowMissing : Bool) :
    loadRetiredReceipt config m.generationRoot m (m.receipt .published) allowMissing
      (some (m.receipt .retired).encode) = .ok (some (m.receipt .retired)) := by
  have hload := canonicalLoad_canonicalBytes config
    (config.pathText (Path.receipt m.generationRoot .retired).text)
    (m.receipt .retired).plain_canonicalDict (by omega)
    ((m.receipt .retired).length_encode_lt.le.trans (by omega))
  unfold loadRetiredReceipt
  dsimp only
  rw [encode, hload, ok_bind, sorted_dict]
  dsimp only
  rw [fromDict_sortedFields]
  dsimp only
  rw [pure_eq_ok, ok_bind, raiseIf_neg (by simp [encode]), ok_bind,
    raiseIf_neg (by simp [GenerationManifest.receipt, lifecycleReceipt, receiptAfter,
      GenerationState.index])]
  rfl

/-! ## Heads -/

theorem headOfRecord_eq (r : GenerationPublicationRecord) :
    headOfRecord r.nameSpace.val r = .ok (headOf r) :=
  GenerationHead.init_self (headOf r)

variable (head : GenerationHead)

theorem nodup_envelopeDict :
    ((envelopeDict head).map Prod.fst).Nodup := by
  simp [envelopeDict, lit_inj]

theorem plain_envelopeDict : (Json.obj (envelopeDict head)).Plain 2 := by
  refine plain_dict (nodup_envelopeDict head)
    (by simp only [envelopeDict, map_cons]; decide) ?_
  simp only [envelopeDict, forall_mem_cons]
  exact ⟨head.plain_canonicalDict, plain_rootJson _ 1, by simp⟩

theorem length_headEnvelope : (headEnvelope head).length ≤ 1024 := by
  have h1 := head.length_print_le
  have h2 := length_print_rootJson head.headRoot
  have hk : (quote (lit "head")).length + (quote (lit "head_root")).length = 17 := by decide
  rw [headEnvelope, length_canonicalBytes, length_print_obj]
  simp only [envelopeDict, map_cons, map_nil, sum_cons, sum_nil, length_cons,
    length_nil, h2]
  omega

theorem loadHead_headEnvelope (nameSpace path : Str)
    (head : GenerationHead) :
    loadHead config nameSpace path (some (headEnvelope head)) =
      if head.nameSpace.val = nameSpace then .ok (some head)
      else .error (storeFault "CURRENT identity mismatch" .identityMismatch) := by
  have hload : canonicalLoad config path (some (headEnvelope head)) = _ :=
    canonicalLoad_canonicalBytes config path (plain_envelopeDict head) (by omega)
      (length_headEnvelope head)
  have hkeys : sameKeys (sortedFields (envelopeDict head)) ["head", "head_root"] = true := by
    rw [sameKeys_sortedFields]
    simp [sameKeys, envelopeDict, lit_inj]
  have hitem : getItem (sortedFields (envelopeDict head)) "head" =
      .ok (.obj (sortedFields head.canonicalDict)) := by
    rw [getItem_sortedFields (nodup_envelopeDict head)]
    simp [getItem, dictGet, envelopeDict, sorted_dict]
  have hroot : getItem (sortedFields (envelopeDict head)) "head_root" =
      .ok (rootJson head.headRoot) := by
    rw [getItem_sortedFields (nodup_envelopeDict head)]
    simp [getItem, dictGet, envelopeDict, lit_inj]
  have hnames : namesHead (rootJson head.headRoot) head = true := by simp [namesHead, rootJson]
  unfold loadHead
  dsimp only
  rw [hload, ok_bind, sorted_dict]
  dsimp only
  rw [hkeys, raiseIf_neg (by simp), ok_bind, hitem, ok_bind]
  dsimp only
  rw [head.fromDict_sortedFields, ok_bind, hroot, ok_bind, hnames]
  by_cases hns : head.nameSpace.val = nameSpace
  · rw [if_pos hns, raiseIf_neg (by simp [hns])]
    rfl
  · rw [if_neg hns, raiseIf, if_pos (.inr hns)]
    rfl

end Loading

section Reading

variable [Runtime]

def readView (known : Path → Option (Option Bytes)) : (o : Op) → Option o.Answer
  | .read path => known path
  | _ => none

variable {known : Path → Option (Option Bytes)}

variable {contents : Option Bytes} {nameSpace : Str} {key : Digest}

theorem eval_readFile {path : Path} (h : known path = some contents) :
    (readFile path).eval (readView known) = some (.ok contents) :=
  eval_call _ h

structure Stored (known : Path → Option (Option Bytes)) (m : GenerationManifest) : Prop where
  manifest : known (.manifest m.generationRoot) = some (some m.encode)
  receipt : ∀ state ∈ GenerationState.publishedStates,
    known (.receipt m.generationRoot state) = some (some (m.receipt state).encode)
  object : ∀ payload ∈ m.payloads, ∃ data, known (.object payload.contentRoot) = some (some data) ∧
    data.length = payload.size.val ∧ bytesRoot data = payload.contentRoot

variable (config : StoreConfig)

theorem eval_verifyPayloads {payloads : List GenerationPayload}
    (h : ∀ payload ∈ payloads, ∃ data, known (.object payload.contentRoot) = some (some data) ∧
      data.length = payload.size.val ∧ bytesRoot data = payload.contentRoot) :
    (verifyPayloads config payloads).eval (readView known) = some (.ok ()) := by
  induction payloads with
  | nil => rfl
  | cons payload payloads ih =>
    obtain ⟨data, hknown, hsize, hroot⟩ := h payload (mem_cons_self ..)
    rw [verifyPayloads, eval_bind_ok _ (eval_readFile hknown), readBounded_some hsize.le,
      liftM_ok_bind, raiseIf_neg (by simp [hsize, hroot]), liftM_ok_bind]
    exact ih fun p hp => h p (mem_cons_of_mem _ hp)

theorem eval_readReceipts (directory : Directory) (m : GenerationManifest)
    {states : List GenerationState}
    (h : ∀ state ∈ states, (directory.readReceipt state).eval (readView known) =
      some (.ok (some (m.receipt state).encode))) :
    (readReceipts config directory states).eval (readView known) =
      some (.ok (states.map m.receipt)) := by
  induction states with
  | nil => rfl
  | cons state states ih =>
    rw [readReceipts, eval_bind_ok _ (h state (mem_cons_self ..)), loadReceipt_encode,
      liftM_ok_bind,
      eval_bind_ok _ (ih fun st hst => h st (mem_cons_of_mem _ hst))]
    rfl

theorem eval_requireRealDirectory {directory : Directory} {data : Bytes}
    (h : directory.readManifest.eval (readView known) = some (.ok (some data))) :
    (requireRealDirectory config directory).eval (readView known) = some (.ok ()) := by
  rw [requireRealDirectory, eval_bind_ok _ h]
  rfl

section Verify

variable {config : StoreConfig} {m : GenerationManifest}

theorem loadManifest_of_accepts (h : Accepts config m) (path : Str) :
    loadManifest config path (some m.encode) = .ok m :=
  (loadManifest_encode config path m m).mpr ⟨rfl, h⟩

theorem loadManifest_of_not_accepts (h : ¬ Accepts config m) (path : Str) :
    ∃ e, loadManifest config path (some m.encode) = .error e := by
  cases hl : loadManifest config path (some m.encode) with
  | error e => exact ⟨e, rfl⟩
  | ok m' => exact absurd ((loadManifest_encode config path m m').mp hl).2 h

theorem eval_verifyStagedGeneration (h : Accepts config m) (directory : Directory)
    (hm : directory.readManifest.eval (readView known) = some (.ok (some m.encode)))
    (hr : ∀ state ∈ GenerationState.publishedStates,
      (directory.readReceipt state).eval (readView known) =
        some (.ok (some (m.receipt state).encode)))
    (ho : ∀ payload ∈ m.payloads, ∃ data, known (.object payload.contentRoot) = some (some data) ∧
      data.length = payload.size.val ∧ bytesRoot data = payload.contentRoot) :
    (verifyStagedGeneration config directory m).eval (readView known) =
      some (.ok (m.receipt .published)) := by
  rw [verifyStagedGeneration, eval_bind_ok _ (eval_requireRealDirectory config hm),
    eval_bind_ok _ hm, loadManifest_of_accepts h, liftM_ok_bind,
    raiseIf_neg (by simp), liftM_ok_bind, eval_bind_ok _ (eval_verifyPayloads config ho),
    eval_bind_ok _ (eval_readReceipts config directory m hr), m.validateLifecycleChain_eq]
  rfl

theorem eval_loadGeneration (h : Accepts config m) (hs : Stored known m) :
    (loadGeneration config m.generationRoot).eval (readView known) =
      some (.ok (m, m.receipt .published)) := by
  have hm : (Directory.published m.generationRoot).readManifest.eval (readView known) =
      some (.ok (some m.encode)) := eval_readFile hs.manifest
  have hv := eval_verifyStagedGeneration h (.published m.generationRoot) hm
    (fun state hst => eval_readFile (hs.receipt state hst)) hs.object
  rw [loadGeneration, eval_bind_ok _ hm, loadManifest_of_accepts h, liftM_ok_bind,
    raiseIf_neg (by simp), liftM_ok_bind, eval_bind_ok _ hv]
  rfl

theorem eval_loadGeneration_error (h : ¬ Accepts config m) (hs : Stored known m) :
    ∃ e, (loadGeneration config m.generationRoot).eval (readView known) = some (.error e) := by
  have hm : (Directory.published m.generationRoot).readManifest.eval (readView known) =
      some (.ok (some m.encode)) := eval_readFile hs.manifest
  obtain ⟨e, he⟩ := loadManifest_of_not_accepts h
    (config.pathText ((Directory.published m.generationRoot).text ++ lit "/manifest.json"))
  refine ⟨e, ?_⟩
  rw [loadGeneration, eval_bind_ok _ hm, he]
  rfl

theorem eval_verifyGeneration (config : StoreConfig) (hs : Stored known m) :
    (verifyGeneration config m.generationRoot).eval (readView known) =
      (loadGeneration config m.generationRoot).eval (readView known) := by
  have hm : (Directory.published m.generationRoot).readManifest.eval (readView known) =
      some (.ok (some m.encode)) := eval_readFile hs.manifest
  rw [verifyGeneration, eval_bind_ok _ (eval_requireRealDirectory config hm)]

end Verify

/-! ## Reading a log and its head -/

/-- The contents of a log: the lines of the records and a tail without line break, which is shorter
than any line may be. -/
structure LogHolds (contents : Option Bytes) (records : List GenerationPublicationRecord)
    (tail : Bytes) : Prop where
  eq : contents.getD [] = encodeLog records ++ tail
  newline : (10 : UInt8) ∉ tail
  length : tail.length ≤ 1000

theorem eval_readPublicationRecords (nameSpace : Str) (allowTornTail : Bool)
    {tail : Bytes} (hknown : known (.log key) = some contents)
    (hlog : LogHolds contents records tail) (hchain : ValidChain records) :
    ∃ result, (readPublicationRecords config nameSpace key allowTornTail).eval (readView known) =
        some result ∧
      ∀ x, result = .ok x ↔ x = (records, decide (tail ≠ [])) ∧
        (tail ≠ [] → allowTornTail = true) ∧ (∀ r ∈ records, r.nameSpace.val = nameSpace) ∧
        (records ≠ [] → records.length ≤ config.limits.maxPublicationRecords.val) := by
  unfold readPublicationRecords
  rw [eval_bind_ok _ (eval_readFile hknown)]
  cases contents with
  | none =>
    have hnil : encodeLog records ++ tail = [] := hlog.eq.symm
    have htail : tail = [] := (append_eq_nil_iff.mp hnil).2
    have hrecords : records = [] := by
      cases records with
      | nil => rfl
      | cons r rs => rw [encodeLog_cons] at hnil; simp at hnil
    subst htail hrecords
    refine ⟨_, rfl, fun x => ?_⟩
    simp [eq_comm]
  | some data =>
    have hdata : data = encodeLog records ++ tail := hlog.eq
    refine ⟨_, rfl, fun x => ?_⟩
    rw [hdata]
    exact readRecords_eq_ok_iff config nameSpace allowTornTail [] hchain hlog.newline
      hlog.length (by omega) x

structure Binds (m : GenerationManifest) (r : GenerationPublicationRecord) : Prop where
  generationRoot : m.generationRoot = r.generationRoot
  nameSpace : m.nameSpace = r.nameSpace
  manifestRoot : m.manifestRoot = r.manifestRoot
  receiptRoot : (m.receipt .published).receiptRoot = r.publishedReceiptRoot
  parent : r.action = .publish → m.parentGenerationRoot = r.previousGenerationRoot

theorem Stored.unique {m m' : GenerationManifest} (h : Stored known m) (h' : Stored known m')
    (hg : m.generationRoot = m'.generationRoot) : m = m' := by
  have heq := h.manifest
  rw [hg, h'.manifest] at heq
  exact GenerationManifest.encode_injective (Option.some.inj (Option.some.inj heq)).symm

def RecordsAccepted (config : StoreConfig) (known : Path → Option (Option Bytes))
    (records : List GenerationPublicationRecord) : Prop :=
  ∀ r ∈ records, ∀ m, Binds m r → Stored known m → Accepts config m

theorem recordsAccepted_cons {config : StoreConfig} {r : GenerationPublicationRecord}
    {m : GenerationManifest} (hm : Binds m r) (hs : Stored known m) :
    RecordsAccepted config known (r :: records) ↔
      Accepts config m ∧ RecordsAccepted config known records := by
  rw [RecordsAccepted, forall_mem_cons]
  refine and_congr_left fun _ => ⟨fun h => h m hm hs, fun ha m' hm' hs' => ?_⟩
  rwa [hs'.unique hs (hm'.generationRoot.trans hm.generationRoot.symm)]

theorem eval_verifyRecords {published : List Root}
    (hns : ∀ r ∈ records, r.nameSpace.val = nameSpace)
    (hbinds : ∀ r ∈ records, ∃ m, Binds m r ∧ Stored known m) (hl : Lineage published records) :
    ∃ result, (verifyRecords config nameSpace published records).eval (readView known) =
        some result ∧ (result = .ok () ↔ RecordsAccepted config known records) := by
  induction records generalizing published with
  | nil => exact ⟨.ok (), rfl, by simp [RecordsAccepted]⟩
  | cons r records ih =>
    obtain ⟨m, hm, hs⟩ := hbinds r (mem_cons_self ..)
    have hrest := fun published => @ih published
      (fun x hx => hns x (mem_cons_of_mem _ hx))
      (fun x hx => hbinds x (mem_cons_of_mem _ hx))
    have hname : m.nameSpace.val = nameSpace := by
      rw [hm.nameSpace]
      exact hns r (mem_cons_self ..)
    rw [recordsAccepted_cons hm hs]
    by_cases ha : Accepts config m
    · have hv := (eval_verifyGeneration config hs).trans (eval_loadGeneration ha hs)
      rw [hm.generationRoot] at hv
      rw [verifyRecords, eval_bind_ok _ hv, and_iff_right ha]
      dsimp only
      rw [raiseIf_neg (by simp [hname, hm.manifestRoot, hm.receiptRoot]), liftM_ok_bind,
        raiseIf_neg (fun h => h.2 (hm.parent h.1)), liftM_ok_bind]
      cases hact : r.action with
      | publish =>
        rw [if_pos rfl]
        exact hrest _ (by simpa [Lineage, hact] using hl)
      | rollback =>
        simp only [Lineage, hact] at hl
        rw [if_neg (by simp), if_neg (by simpa using hl.1)]
        exact hrest _ hl.2
    · obtain ⟨e, he⟩ := eval_loadGeneration_error ha hs
      have hv := (eval_verifyGeneration config hs).trans he
      rw [hm.generationRoot] at hv
      refine ⟨.error e, ?_, iff_of_false (by simp) fun h => ha h.1⟩
      rw [verifyRecords, eval_bind_error _ hv]

theorem eval_recoverRecords (nameSpace : Str) {tail : Bytes}
    (hknown : known (.log key) = some contents) (hlog : LogHolds contents records tail)
    (hchain : ValidChain records) (hbinds : ∀ r ∈ records, ∃ m, Binds m r ∧ Stored known m)
    (hl : Lineage [] records) :
    ∃ result, (recoverRecords config nameSpace key).eval (readView known) = some result ∧
      ∀ x, result = .ok x ↔ x = (records, decide (tail ≠ [])) ∧
        (∀ r ∈ records, r.nameSpace.val = nameSpace) ∧
        (records ≠ [] → records.length ≤ config.limits.maxPublicationRecords.val) ∧
        RecordsAccepted config known records := by
  obtain ⟨result, heval, hok⟩ := eval_readPublicationRecords config nameSpace true hknown hlog hchain
  unfold recoverRecords
  cases result with
  | error e =>
    refine ⟨.error e, by rw [eval_bind_error _ heval], fun x => iff_of_false (by simp) ?_⟩
    rintro ⟨-, hns, hlen, -⟩
    cases (hok (records, decide (tail ≠ []))).mpr ⟨rfl, fun _ => rfl, hns, hlen⟩
  | ok x =>
    obtain ⟨rfl, -, hns, hlen⟩ := (hok x).mp rfl
    obtain ⟨result', heval', haccepts⟩ := eval_verifyRecords config hns hbinds hl
    rw [eval_bind_ok _ heval]
    dsimp only
    cases result' with
    | error e =>
      refine ⟨.error e, by rw [eval_bind_error _ heval'], fun x => iff_of_false (by simp) ?_⟩
      rintro ⟨-, -, -, h⟩
      cases haccepts.mpr h
    | ok u =>
      refine ⟨.ok _, by rw [eval_bind_ok _ heval']; rfl, fun x => ?_⟩
      rw [Except.ok.injEq, eq_comm, iff_self_and]
      exact fun _ => ⟨hns, hlen, haccepts.mp rfl⟩

theorem expectedHead_eq (h : ∀ r ∈ records, r.nameSpace.val = nameSpace) :
    expectedHead nameSpace records = .ok (impliedHead records) := by
  unfold expectedHead impliedHead
  cases hl : records.getLast? with
  | none => rfl
  | some r =>
    rw [← h r (mem_of_getLast? hl)]
    dsimp only
    rw [headOfRecord_eq]
    rfl

theorem eval_existingHead {head : Option GenerationHead}
    (hknown : known (.current key) = some (head.map headEnvelope))
    (h : ∀ x, head = some x → x.nameSpace.val = nameSpace) :
    (existingHead config nameSpace key).eval (readView known) = some (.ok (head, false)) := by
  have hread : (readHeadUnverified config nameSpace key).eval (readView known) =
      some (.ok head) := by
    rw [readHeadUnverified, eval_bind_ok _ (eval_readFile hknown)]
    cases head with
    | none => rfl
    | some x =>
      rw [Option.map_some, loadHead_headEnvelope, if_pos (h x rfl)]
      rfl
  rw [existingHead, eval_attempt, hread]
  rfl

theorem eval_isRetired {m : GenerationManifest} (hs : Stored known m)
    (hknown : known (.receipt m.generationRoot .retired) = some contents)
    (h : ∀ data, contents = some data → data = (m.receipt .retired).encode) :
    ∃ result, (isRetired config m.generationRoot).eval (readView known) = some result ∧
      (∀ b, result = .ok b → b = contents.isSome) ∧
      (Accepts config m → result = .ok contents.isSome) := by
  unfold isRetired
  rw [eval_bind_ok _ (eval_readFile hknown)]
  cases contents with
  | none => exact ⟨.ok false, rfl, fun b hb => (Except.ok.inj hb).symm, fun _ => rfl⟩
  | some data =>
    obtain rfl := h data rfl
    rw [if_neg (by simp)]
    by_cases ha : Accepts config m
    · have hv := (eval_verifyGeneration config hs).trans (eval_loadGeneration ha hs)
      refine ⟨.ok true, ?_, fun b hb => (Except.ok.inj hb).symm, fun _ => rfl⟩
      rw [eval_bind_ok _ hv]
      dsimp only
      rw [eval_bind_ok _ (eval_readFile hknown), loadRetiredReceipt_encode]
      rfl
    · obtain ⟨e, he⟩ := eval_loadGeneration_error ha hs
      have hv := (eval_verifyGeneration config hs).trans he
      exact ⟨.error e, by rw [eval_bind_error _ hv], by simp, fun h => absurd h ha⟩

end Reading

end Generation
