import Tds.Persistence.Proofs.Format
import Tds.Persistence.Snapshot
import Tds.Process.Proofs.Program

/-!
# What a writer leaves behind

`run_write_eq_ok`: a write that returns has put the slots of the tree into the data file, and their
records into the sidecar.
-/

namespace Persistence

open Python FileSystem Storage Process List

/-! ## Slots one after the other -/

theorem length_payloads_cons (slot : SnapshotSlot) (slots : List SnapshotSlot) :
    (payloads (slot :: slots)).length = slot.payload.length + (payloads slots).length := by
  rw [payloads, flatMap_cons, length_append]
  rfl

theorem slotRecords_append (cursor : Nat) (slots slots' : List SnapshotSlot) :
    slotRecords cursor (slots ++ slots') =
      slotRecords cursor slots ++ slotRecords (cursor + (payloads slots).length) slots' := by
  induction slots generalizing cursor with
  | nil => rfl
  | cons slot slots ih =>
    rw [cons_append, slotRecords, slotRecords, ih, length_payloads_cons, Nat.add_assoc]
    rfl

@[simp] theorem length_slotRecords (cursor : Nat) (slots : List SnapshotSlot) :
    (slotRecords cursor slots).length = slots.length := by
  induction slots generalizing cursor with
  | nil => rfl
  | cons slot slots ih => rw [slotRecords, length_cons, ih, length_cons]

theorem map_name_slotRecords (cursor : Nat) (slots : List SnapshotSlot) :
    (slotRecords cursor slots).map SlotRecord.name = slots.map SnapshotSlot.slotKey := by
  induction slots generalizing cursor with
  | nil => rfl
  | cons slot slots ih =>
    rw [slotRecords, map_cons, ih, map_cons]
    rfl

def Draft.ofSlots (slots : List SnapshotSlot) : Draft :=
  ⟨slotRecords 0 slots, slots, (payloads slots).length⟩

variable {visits : List (Str × Entry)} {draft : Draft}

theorem addPayload_ofSlots {slots : List SnapshotSlot} {nodePath : Str} {entry : Entry}
    {payload : Bytes} :
    (Draft.ofSlots slots).addPayload nodePath entry payload = .ok draft ↔
      (slotKey nodePath entry.name).all isScalar = true ∧
        draft = .ofSlots (slots ++ [snapshotSlot nodePath entry payload]) := by
  have hslots : Draft.ofSlots (slots ++ [snapshotSlot nodePath entry payload]) =
      ⟨slotRecords 0 slots ++
        [⟨slotKey nodePath entry.name, hashName (utf8 (slotKey nodePath entry.name)),
          (payloads slots).length, payload.length, entry.fmtId⟩],
        slots ++ [snapshotSlot nodePath entry payload], (payloads slots).length + payload.length⟩ := by
    simp [Draft.ofSlots, slotRecords_append, slotRecords, SnapshotSlot.record, snapshotSlot, payloads]
  simp only [Draft.addPayload, bind_eq_ok, encodeText_eq_ok, pure_eq_ok, Except.ok.injEq]
  constructor
  · rintro ⟨_, ⟨hscalar, rfl⟩, rfl⟩
    exact ⟨hscalar, hslots.symm⟩
  · rintro ⟨hscalar, rfl⟩
    exact ⟨_, ⟨hscalar, rfl⟩, hslots.symm⟩

section Walk

variable [Objects]

mutual

theorem walk_eq (recurse : Bool) (nodePath : Str) (tree : Tree) (draft : Draft) :
    tree.walk recurse nodePath draft =
      (tree.visits recurse nodePath).foldlM (fun draft visit => draft.add visit.1 visit.2) draft := by
  match tree with
  | .node name entries children =>
    rw [Tree.walk, Tree.visits, foldlM_append, foldlM_map]
    refine congrArg _ (funext fun draft => ?_)
    cases recurse with
    | false => rfl
    | true => exact walkAll_eq nodePath children draft

theorem walkAll_eq (nodePath : Str) (children : List Tree) (draft : Draft) :
    walkAll nodePath children draft =
      (visitsAll nodePath children).foldlM (fun draft visit => draft.add visit.1 visit.2) draft := by
  match children with
  | [] => rfl
  | child :: children =>
    rw [walkAll, visitsAll, foldlM_append, walk_eq true _ child draft]
    exact congrArg _ (funext fun draft => walkAll_eq nodePath children draft)

end

def Slotted (visit : Str × Entry) (slot : SnapshotSlot) : Prop :=
  ∃ payload, serializeEntry visit.2 = .ok payload ∧
    (slotKey visit.1 visit.2.name).all isScalar = true ∧
    slot = snapshotSlot visit.1 visit.2 payload

theorem add_ofSlots {slots : List SnapshotSlot} {visit : Str × Entry} :
    (Draft.ofSlots slots).add visit.1 visit.2 = .ok draft ↔
      ∃ slot, Slotted visit slot ∧ draft = .ofSlots (slots ++ [slot]) := by
  simp only [Draft.add, bind_eq_ok, addPayload_ofSlots]
  constructor
  · rintro ⟨payload, hpayload, hscalar, rfl⟩
    exact ⟨_, ⟨payload, hpayload, hscalar, rfl⟩, rfl⟩
  · rintro ⟨_, ⟨payload, hpayload, hscalar, rfl⟩, rfl⟩
    exact ⟨payload, hpayload, hscalar, rfl⟩

theorem foldlM_add (slots : List SnapshotSlot) :
    visits.foldlM (fun draft visit => draft.add visit.1 visit.2) (Draft.ofSlots slots) = .ok draft ↔
      ∃ added, List.Forall₂ Slotted visits added ∧ draft = .ofSlots (slots ++ added) := by
  induction visits generalizing slots with
  | nil =>
    simp only [foldlM_nil, pure_eq_ok, Except.ok.injEq, forall₂_nil_left_iff, exists_eq_left,
      append_nil]
    exact eq_comm
  | cons visit visits ih =>
    rw [foldlM_cons, bind_eq_ok]
    constructor
    · rintro ⟨_, hadd, hrest⟩
      obtain ⟨slot, hslot, rfl⟩ := add_ofSlots.mp hadd
      obtain ⟨added, hadded, rfl⟩ := (ih _).mp hrest
      exact ⟨slot :: added, .cons hslot hadded, by simp⟩
    · rintro ⟨_, hadded, rfl⟩
      obtain ⟨slot, added, hslot, hrest, rfl⟩ := forall₂_cons_left_iff.mp hadded
      exact ⟨_, add_ofSlots.mpr ⟨slot, hslot, rfl⟩, (ih _).mpr ⟨added, hrest, by simp⟩⟩

theorem foldlM_add_empty :
    visits.foldlM (fun draft visit => draft.add visit.1 visit.2) Draft.empty = .ok draft ↔
      ∃ slots, List.Forall₂ Slotted visits slots ∧ draft = .ofSlots slots :=
  foldlM_add []

theorem parallel_eq_ok {path : Str} {entries : List Entry} :
    (entries.mapM serializeEntry >>= fun payloads => (entries.zip payloads).foldlM
      (fun draft item => draft.addPayload path item.1 item.2) Draft.empty) = .ok draft ↔
      ∃ slots, List.Forall₂ Slotted (entries.map (path, ·)) slots ∧ draft = .ofSlots slots := by
  have hzip : ∀ (payloads : List Bytes) (slots : List SnapshotSlot),
      List.Forall₂ (fun entry payload => serializeEntry entry = .ok payload) entries payloads →
      ((entries.zip payloads).foldlM (fun draft item => draft.addPayload path item.1 item.2)
        (Draft.ofSlots slots) = .ok draft ↔
        ∃ added, List.Forall₂ Slotted (entries.map (path, ·)) added ∧ draft = .ofSlots (slots ++ added)) := by
    intro payloads slots h
    induction h generalizing slots with
    | nil =>
      simp only [zip_nil_left, foldlM_nil, pure_eq_ok, Except.ok.injEq, map_nil,
        forall₂_nil_left_iff, exists_eq_left, append_nil]
      exact eq_comm
    | cons hpayload _ ih =>
      rw [zip_cons_cons, foldlM_cons, bind_eq_ok]
      constructor
      · rintro ⟨_, hadd, hrest⟩
        obtain ⟨hscalar, rfl⟩ := addPayload_ofSlots.mp hadd
        obtain ⟨added, hadded, rfl⟩ := (ih _).mp hrest
        exact ⟨_ :: added, .cons ⟨_, hpayload, hscalar, rfl⟩ hadded, by simp⟩
      · rintro ⟨_, hadded, rfl⟩
        rw [map_cons] at hadded
        obtain ⟨slot, added, ⟨payload, hpayload', hscalar, rfl⟩, hrest, rfl⟩ :=
          forall₂_cons_left_iff.mp hadded
        rw [hpayload] at hpayload'
        cases hpayload'
        exact ⟨_, addPayload_ofSlots.mpr ⟨hscalar, rfl⟩, (ih _).mpr ⟨added, hrest, by simp⟩⟩
  rw [bind_eq_ok]
  constructor
  · rintro ⟨payloads, hpayloads, hfold⟩
    exact (hzip payloads [] (mapM_eq_ok.mp hpayloads)).mp hfold
  · rintro ⟨slots, hslots, rfl⟩
    have hpayloads : ∀ entry ∈ entries, ∃ payload, serializeEntry entry = .ok payload := by
      intro entry hentry
      obtain ⟨slot, -, payload, hpayload, -⟩ :=
        exists_of_forall₂_left hslots (mem_map_of_mem hentry)
      exact ⟨payload, hpayload⟩
    obtain ⟨payloads, hpayloads⟩ := exists_mapM_eq_ok.mpr hpayloads
    exact ⟨payloads, hpayloads, (hzip payloads [] (mapM_eq_ok.mp hpayloads)).mpr ⟨slots, hslots, rfl⟩⟩

end Walk

/-! ## The files -/

/-- What `to_bytes` and the header accept. -/
structure Storable (slots : List SnapshotSlot) (ts : Nat) : Prop where
  records : ∀ record ∈ slotRecords 0 slots, record.InRange
  header : (snapshotHeader slots ts).Fits

def snapshotFile (slots : List SnapshotSlot) (ts : Nat) : Bytes :=
  (snapshotHeader slots ts).octets (snapshotHeader slots ts).crc ++ payloads slots ++
    (slotRecords 0 slots).flatMap SlotRecord.octets

theorem length_snapshotFile (slots : List SnapshotSlot) (ts : Nat) : (snapshotFile slots ts).length =
    ((snapshotHeader slots ts).octets (snapshotHeader slots ts).crc).length + (payloads slots).length +
      ((slotRecords 0 slots).flatMap SlotRecord.octets).length := by
  rw [snapshotFile, length_append, length_append]

def snapshotSidecar (slots : List SnapshotSlot) (ts : Nat) (name path : Str) : Value :=
  .record (sidecarFields (snapshotHeader slots ts) (snapshotFile slots ts).length name path slots.length
    slots)

/-- A temporary file is written and takes the place of another one. -/
def commitFile (syncs : Bool) (v : Volume FileName) (tmp target : FileName) (data : Bytes) :
    Volume FileName :=
  let v := (Volume.exec syncs (.write tmp data) v).2
  let v := (Volume.exec syncs (.sync tmp) v).2
  let v := (Volume.exec syncs (.replace tmp target) v).2
  (Volume.exec syncs .syncDir v).2

section Commit

variable {syncs : Bool} {v : Volume FileName} {tmp target : FileName} {data : Bytes}

theorem files_commitFile (name : FileName) : (commitFile syncs v tmp target data).files name =
    if name = tmp then none else if name = target then some ⟨data, true⟩ else v.files name := by
  have hdir : ∀ w : Volume FileName, (Volume.exec syncs .syncDir w).2.files = w.files := by
    intro w
    cases syncs <;> rfl
  rw [commitFile, hdir]
  simp only [Volume.exec, Volume.rebind, Function.update_apply]
  split
  · rfl
  · split <;> simp_all

theorem read_commitFile_self (h : target ≠ tmp) : (commitFile syncs v tmp target data).read target =
    some data := by
  rw [Volume.read, files_commitFile, if_neg h, if_pos rfl]
  rfl

theorem read_commitFile_of_ne {name : FileName} (htmp : name ≠ tmp) (htarget : name ≠ target) :
    (commitFile syncs v tmp target data).read name = v.read name := by
  rw [Volume.read, files_commitFile, if_neg htmp, if_neg htarget]
  rfl

end Commit

section Finalise

variable [Objects] {slots : List SnapshotSlot} {name path : Str} {ts : Nat} {syncs : Bool}
  {v v' : Volume FileName} {n : Nat}

def committed (syncs : Bool) (v : Volume FileName) (slots : List SnapshotSlot) (ts : Nat) (raw : Bytes) :
    Volume FileName :=
  commitFile syncs (commitFile syncs v .shadow .path (snapshotFile slots ts)) .sidecarTmp .sidecar raw

theorem finalise_eq (h : Storable slots ts) :
    finalise (.ofSlots slots) name path ts = do
      step (.write .shadow (snapshotFile slots ts))
      step (.sync .shadow)
      step (.replace .shadow .path)
      step .syncDir
      let sidecar ← Objects.jsonDumps (snapshotSidecar slots ts name path)
      step (.write .sidecarTmp sidecar)
      step (.sync .sidecarTmp)
      step (.replace .sidecarTmp .sidecar)
      step .syncDir
      return (snapshotFile slots ts).length := by
  have hindex : SlotIndex.toBytes (slotRecords 0 slots) =
      .ok ((slotRecords 0 slots).flatMap SlotRecord.octets) := toBytes_eq_ok.mpr ⟨h.records, rfl⟩
  have hheader : buildFileHeader slots.length (fileHdrSize + (payloads slots).length) fileHdrSize ts =
      .ok ((snapshotHeader slots ts).octets (snapshotHeader slots ts).crc) :=
    buildFileHeader_eq_ok.mpr ⟨h.header, rfl⟩
  have hparse := parseFileHeader_octets h.header rfl
  unfold finalise Draft.ofSlots
  dsimp only
  rw [hindex, Prog.liftM_ok_bind, length_slotRecords,
    show slots.flatMap SnapshotSlot.payload = payloads slots from rfl, hheader, Prog.liftM_ok_bind,
    hparse, Prog.liftM_ok_bind, ← length_snapshotFile]
  rfl

theorem storable_of_run (h : (finalise (.ofSlots slots) name path ts).run (Volume.exec syncs) v =
    (.ok n, v')) : Storable slots ts := by
  unfold finalise Draft.ofSlots at h
  dsimp only at h
  cases hindex : SlotIndex.toBytes (slotRecords 0 slots) with
  | error e =>
    rw [hindex] at h
    cases h
  | ok index =>
    rw [hindex, Prog.liftM_ok_bind] at h
    cases hheader : buildFileHeader (slotRecords 0 slots).length
        (fileHdrSize + (slots.flatMap SnapshotSlot.payload).length) fileHdrSize ts with
    | error e =>
      rw [hheader] at h
      cases h
    | ok header =>
      rw [length_slotRecords] at hheader
      exact ⟨(toBytes_eq_ok.mp hindex).1, (buildFileHeader_eq_ok.mp hheader).1⟩

theorem run_finalise_eq_ok :
    (finalise (.ofSlots slots) name path ts).run (Volume.exec syncs) v = (.ok n, v') ↔
      Storable slots ts ∧ n = (snapshotFile slots ts).length ∧
        ∃ raw, Objects.jsonDumps (snapshotSidecar slots ts name path) = .ok raw ∧
          v' = committed syncs v slots ts raw := by
  constructor
  · intro h
    have hstorable := storable_of_run h
    rw [finalise_eq hstorable] at h
    cases hdumps : Objects.jsonDumps (snapshotSidecar slots ts name path) with
    | error e =>
      rw [hdumps] at h
      cases h
    | ok raw =>
      rw [hdumps] at h
      cases h
      exact ⟨hstorable, rfl, raw, rfl, rfl⟩
  · rintro ⟨hstorable, rfl, raw, hraw, rfl⟩
    rw [finalise_eq hstorable, hraw]
    rfl

theorem run_draft_eq_ok {walk : Check Draft}
    (hwalk : ∀ draft, walk = .ok draft ↔
      ∃ slots, List.Forall₂ Slotted visits slots ∧ draft = .ofSlots slots) :
    ((walk : Writing Draft) >>= fun draft => finalise draft name path ts).run (Volume.exec syncs) v =
        (.ok n, v') ↔
      ∃ slots, List.Forall₂ Slotted visits slots ∧ Storable slots ts ∧
        n = (snapshotFile slots ts).length ∧
        ∃ raw, Objects.jsonDumps (snapshotSidecar slots ts name path) = .ok raw ∧
          v' = committed syncs v slots ts raw := by
  cases hdraft : walk with
  | error e =>
    constructor
    · intro h
      cases h
    · rintro ⟨slots, hslots, -⟩
      rw [(hwalk _).mpr ⟨slots, hslots, rfl⟩] at hdraft
      cases hdraft
  | ok draft =>
    rw [Prog.liftM_ok_bind]
    obtain ⟨slots, hslots, rfl⟩ := (hwalk draft).mp hdraft
    rw [run_finalise_eq_ok]
    constructor
    · exact fun h => ⟨slots, hslots, h⟩
    · rintro ⟨slots', hslots', h⟩
      rw [(hwalk _).mpr ⟨slots', hslots', rfl⟩] at hdraft
      have heq : slots' = slots := congrArg Draft.snapshot (Except.ok.inj hdraft)
      exact heq ▸ h

theorem run_write_eq_ok {tree : Tree} {recurse : Bool} :
    (write tree path recurse ts).run (Volume.exec syncs) v = (.ok n, v') ↔
      ∃ slots, List.Forall₂ Slotted (tree.visits recurse path) slots ∧ Storable slots ts ∧
        n = (snapshotFile slots ts).length ∧
        ∃ raw, Objects.jsonDumps (snapshotSidecar slots ts tree.name path) = .ok raw ∧
          v' = committed syncs v slots ts raw := by
  have hwalk : ∀ draft, tree.walk recurse path .empty = .ok draft ↔
      ∃ slots, List.Forall₂ Slotted (tree.visits recurse path) slots ∧ draft = .ofSlots slots := by
    intro draft
    rw [walk_eq]
    exact foldlM_add_empty
  rw [write, run_draft_eq_ok hwalk]

theorem run_flushNode_eq_ok {d : Directory} {parallel : Bool} :
    (flushNode d parallel ts).run (Volume.exec syncs) v = (.ok n, v') ↔
      ∃ slots, List.Forall₂ Slotted (d.entries.allValues.map (d.path, ·)) slots ∧ Storable slots ts ∧
        n = (snapshotFile slots ts).length ∧
        ∃ raw, Objects.jsonDumps (snapshotSidecar slots ts d.name d.path) = .ok raw ∧
          v' = committed syncs v slots ts raw := by
  unfold flushNode
  cases parallel with
  | false =>
    rw [if_neg Bool.false_ne_true, run_write_eq_ok]
    simp only [Tree.visits, Bool.false_eq_true, if_false, append_nil, Tree.name]
  | true =>
    rw [if_pos rfl, ← run_draft_eq_ok fun draft => parallel_eq_ok, writeParallel]
    cases d.entries.allValues.mapM serializeEntry with
    | error e => rfl
    | ok payloads => rfl

end Finalise

end Persistence
