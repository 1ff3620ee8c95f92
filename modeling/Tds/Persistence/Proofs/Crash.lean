import Tds.Persistence.Crash
import Tds.Persistence.Proofs.Mount

/-!
# What a reader makes of the files after a crash

`crash_shows_iff`: at which steps a writer may crash, so that the path can still be opened and shows the
old or the new snapshot. Which pairs of a data file and a sidecar may be left is read off the volume; a
mixed pair is refused, unless the two snapshots have the time stamp and the size in common.
-/

namespace Persistence

open Python FileSystem Storage Process Volume

section Pairs

variable [Objects] {data metadata : Snapshot} {raw : Bytes} {fileName : Str}

theorem openReader_mixed (hdata : Storable data.slots data.ts) (hjson : JsonLaw)
    (hraw : Objects.jsonDumps metadata.document = .ok raw) {r : Reader} :
    openReader fileName data.file (some raw) = .ok r ↔
      data.Distinct ∧ metadata.ts = data.ts ∧
        metadata.file.length = data.file.length ∧ r = mixedReader fileName data metadata := by
  rw [openReader, Snapshot.file, openData_snapshot hdata, Snapshot.Distinct]
  split
  · next hnodup =>
    rw [ok_bind]
    dsimp only
    rw [bind_eq_ok]
    constructor
    · rintro ⟨entryMeta, hload, hreader⟩
      obtain ⟨hepoch, hsize, rfl⟩ := (loadSidecar_eq_ok hjson hraw).mp hload
      exact ⟨hnodup, hepoch, hsize, (Except.ok.inj hreader).symm⟩
    · rintro ⟨-, hepoch, hsize, rfl⟩
      exact ⟨_, (loadSidecar_eq_ok hjson hraw).mpr ⟨hepoch, hsize, rfl⟩, rfl⟩
  · next hnodup => simp [hnodup]

variable [Runtime] {old new : Snapshot}

theorem exists_shown_iff (hdata : Storable data.slots data.ts) (hjson : JsonLaw)
    (hraw : Objects.jsonDumps metadata.document = .ok raw) :
    (∃ r, openReader fileName data.file (some raw) = .ok r ∧
      (r.Shows fileName old ∨ r.Shows fileName new)) ↔ Agree fileName old new data metadata := by
  constructor
  · rintro ⟨r, hopen, hshows⟩
    obtain ⟨hnodup, hepoch, hsize, rfl⟩ := (openReader_mixed hdata hjson hraw).mp hopen
    exact ⟨hnodup, hepoch, hsize, hshows⟩
  · intro h
    exact ⟨_, (openReader_mixed hdata hjson hraw).mpr ⟨h.distinct, h.epoch, h.size, rfl⟩, h.shows⟩

end Pairs

section Steps

variable {old new : Snapshot} {rawOld raw : Bytes} {files : FileName → Option Bytes} {syncs : Bool}
  {steps : Nat}

def keptData (old new : Snapshot) (syncs : Bool) (steps : Nat) : Set (Option Inode) :=
  {inode | ∃ side : Side, side.DataKept syncs steps ∧ inode = some ⟨(side.pick old new).file, true⟩}

theorem kept_path_commit (hpath : files .path = some old.file) :
    ((settled files).commitUpto syncs .shadow .path new.file steps).kept .path =
      keptData old new syncs steps := by
  rw [kept_commitUpto_target (by decide), kept_settled hpath]
  ext inode
  constructor
  · intro h
    split at h
    · exact ⟨.old, .inl (by omega), h⟩
    · split at h
      · next hlt hor =>
        rcases h with rfl | rfl
        · exact ⟨.new, Nat.not_le.mp hlt, rfl⟩
        · exact ⟨.old, hor.imp_left Nat.le_of_eq, rfl⟩
      · next hlt _ => exact ⟨.new, Nat.not_le.mp hlt, h⟩
  · rintro ⟨side, hkept, rfl⟩
    cases side with
    | old =>
      split
      · rfl
      · next hlt =>
        rw [if_pos (hkept.imp_left fun hle => by omega)]
        exact .inr rfl
    | new =>
      rw [if_neg (Nat.not_le.mpr hkept)]
      split
      · exact .inl rfl
      · rfl

theorem kept_path_sidecar (hpath : files .path = some old.file) :
    (((settled files).commitUpto syncs .shadow .path new.file steps).commitUpto syncs .sidecarTmp
      .sidecar raw (steps - 4)).kept .path = keptData old new syncs steps := by
  have hfirst : ((settled files).commitUpto syncs .shadow .path new.file steps).kept .path =
      keptData old new syncs steps := kept_path_commit hpath
  rw [kept_commitUpto_of_ne (by decide) (by decide)]
  split
  · exact hfirst
  · next hnot =>
    -- both directories have been synced, so that only the new file is left
    rw [not_or] at hnot
    have hcurrent : ((settled files).commitUpto syncs .shadow .path new.file steps).Current :=
      (current_settled files).commitUpto
    obtain ⟨side, hside, hfile⟩ := hfirst ▸ hcurrent .path
    have hnew : ∀ side : Side, side.DataKept syncs steps → side = .new := by
      rintro (_ | _) hkept
      · rcases hkept with hle | hfalse
        · omega
        · exact absurd hfalse hnot.2
      · rfl
    rw [hfile]
    ext inode
    constructor
    · rintro rfl
      exact ⟨side, hside, rfl⟩
    · rintro ⟨side', hside', rfl⟩
      rw [hnew side hside, hnew side' hside']
      rfl

theorem kept_sidecar_first (hsidecar : files .sidecar = some rawOld) :
    ((settled files).commitUpto syncs .shadow .path new.file steps).kept .sidecar =
      {some ⟨rawOld, true⟩} := by
  rw [kept_commitUpto_of_ne (by decide) (by decide)]
  split
  · exact kept_settled hsidecar
  · rw [files_settled hsidecar]

theorem kept_sidecar_second (hsidecar : files .sidecar = some rawOld) (inode : Option Inode) :
    inode ∈ (((settled files).commitUpto syncs .shadow .path new.file steps).commitUpto syncs
      .sidecarTmp .sidecar raw (steps - 4)).kept .sidecar ↔
      ∃ side : Side, side.SidecarKept syncs true steps ∧
        inode = some ⟨side.pick rawOld raw, true⟩ := by
  rw [kept_commitUpto_target (by decide), kept_sidecar_first hsidecar]
  constructor
  · intro h
    split at h
    · exact ⟨.old, .inl (by omega), h⟩
    · split at h
      · next hlt hor =>
        rcases h with rfl | rfl
        · exact ⟨.new, ⟨by omega, rfl⟩, rfl⟩
        · exact ⟨.old, hor.imp (fun _ => by omega) .inl, rfl⟩
      · next hlt _ => exact ⟨.new, ⟨by omega, rfl⟩, h⟩
  · rintro ⟨side, hkept, rfl⟩
    cases side with
    | old =>
      split
      · rfl
      · next hlt =>
        have hor : steps - 4 = 3 ∨ syncs = false := by
          rcases hkept with hle | hfalse | htrue
          · exact .inl (by omega)
          · exact .inr hfalse
          · cases htrue
        rw [if_pos hor]
        exact .inr rfl
    | new =>
      rw [if_neg (by have := hkept.1; omega)]
      split
      · exact .inl rfl
      · rfl

end Steps

section Survive

variable [Objects] {new : Snapshot} {syncs : Bool}

theorem write_eq_finalise {tree : Tree} {recurse : Bool} {path : Str} {slots : List SnapshotSlot}
    (hslots : List.Forall₂ Slotted (tree.visits recurse path) slots) (ts : Nat) :
    write tree path recurse ts = finalise (.ofSlots slots) tree.name path ts := by
  have hwalk : tree.walk recurse path .empty = .ok (.ofSlots slots) := by
    rw [walk_eq]
    exact foldlM_add_empty.mpr ⟨_, hslots, rfl⟩
  rw [write, hwalk, Prog.liftM_ok_bind]

theorem after_finalise_ok (h : Storable new.slots new.ts) {raw : Bytes}
    (hraw : Objects.jsonDumps new.document = .ok raw) (steps : Nat) (v : Volume FileName) :
    Prog.after (Volume.exec syncs) steps (finalise (.ofSlots new.slots) new.name new.path new.ts) v =
      (v.commitUpto syncs .shadow .path new.file steps).commitUpto syncs .sidecarTmp .sidecar raw
        (steps - 4) := by
  rw [Snapshot.document] at hraw
  rw [finalise_eq h, hraw]
  match steps with
  | 0 | 1 | 2 | 3 | 4 | 5 | 6 | 7 | 8 => rfl
  | n + 9 => rfl

theorem after_finalise_error (h : Storable new.slots new.ts) {e : PyException}
    (hraw : Objects.jsonDumps new.document = .error e) (steps : Nat) (v : Volume FileName) :
    Prog.after (Volume.exec syncs) steps (finalise (.ofSlots new.slots) new.name new.path new.ts) v =
      v.commitUpto syncs .shadow .path new.file steps := by
  rw [Snapshot.document] at hraw
  rw [finalise_eq h, hraw]
  match steps with
  | 0 | 1 | 2 | 3 | 4 => rfl
  | n + 5 => rfl

end Survive

section Crash

theorem exists_crashesTo {v : Volume FileName} (hcurrent : v.Current) {data metadata : Bytes}
    (hdata : some ⟨data, true⟩ ∈ v.kept .path) (hmetadata : some ⟨metadata, true⟩ ∈ v.kept .sidecar) :
    ∃ v', v.CrashesTo v' ∧ v'.read .path = some data ∧ v'.read .sidecar = some metadata := by
  let found : FileName → Option Inode := fun name => match name with
    | .path => some ⟨data, true⟩
    | .sidecar => some ⟨metadata, true⟩
    | name => v.files name
  refine ⟨⟨found, fun _ => ∅⟩, fun name => ?_, rfl, rfl⟩
  cases name with
  | path => exact .inr ⟨_, hdata, data, rfl, fun _ => rfl⟩
  | sidecar => exact .inr ⟨_, hmetadata, metadata, rfl, fun _ => rfl⟩
  | shadow => exact hcurrent.survives .shadow
  | sidecarTmp => exact hcurrent.survives .sidecarTmp

variable [Runtime] [Objects] {old new : Snapshot} {files : FileName → Option Bytes}

/-- After a crash the path shows the old or the new snapshot just when every pair that may be left does. -/
theorem shows_iff_pairs {v : Volume FileName} (hcurrent : v.Current) {fileName : Str}
    {datas metadatas : Side → Prop} (raws : Side → Bytes)
    (hdata : ∀ inode, inode ∈ v.kept .path ↔
      ∃ side, datas side ∧ inode = some ⟨(side.pick old new).file, true⟩)
    (hmetadata : ∀ inode, inode ∈ v.kept .sidecar ↔
      ∃ side, metadatas side ∧ inode = some ⟨raws side, true⟩)
    (hstorable : ∀ side : Side, Storable (side.pick old new).slots (side.pick old new).ts) (hjson : JsonLaw)
    (hraws : ∀ side, metadatas side → Objects.jsonDumps (side.pick old new).document = .ok (raws side)) :
    (∀ v', v.CrashesTo v' → ∃ r, openVolume fileName v' = .ok r ∧
      (r.Shows fileName old ∨ r.Shows fileName new)) ↔
      ∀ data metadata : Side, datas data → metadatas metadata →
        Agree fileName old new (data.pick old new) (metadata.pick old new) := by
  constructor
  · intro h data metadata hd hm
    obtain ⟨v', hcrash, hpath, hsidecar⟩ := exists_crashesTo hcurrent ((hdata _).mpr ⟨data, hd, rfl⟩)
      ((hmetadata _).mpr ⟨metadata, hm, rfl⟩)
    obtain ⟨r, hopen, hshows⟩ := h v' hcrash
    rw [openVolume, hpath, hsidecar] at hopen
    exact (exists_shown_iff (hstorable data) hjson (hraws metadata hm)).mp ⟨r, hopen, hshows⟩
  · intro h v' hcrash
    have hsynced : ∀ inode ∈ v.kept .path, ∃ found, inode = some ⟨found, true⟩ := by
      intro inode hmem
      obtain ⟨side, -, rfl⟩ := (hdata _).mp hmem
      exact ⟨_, rfl⟩
    have hsynced' : ∀ inode ∈ v.kept .sidecar, ∃ found, inode = some ⟨found, true⟩ := by
      intro inode hmem
      obtain ⟨side, -, rfl⟩ := (hmetadata _).mp hmem
      exact ⟨_, rfl⟩
    obtain ⟨file, hfile, hpath⟩ := (survives_iff_of_synced hsynced).mp (hcrash .path)
    obtain ⟨raw, hraw, hsidecar⟩ := (survives_iff_of_synced hsynced').mp (hcrash .sidecar)
    obtain ⟨data, hd, heq⟩ := (hdata _).mp hfile
    obtain ⟨metadata, hm, heq'⟩ := (hmetadata _).mp hraw
    cases heq
    cases heq'
    rw [openVolume, hpath, hsidecar]
    exact (exists_shown_iff (hstorable data) hjson (hraws metadata hm)).mpr (h data metadata hd hm)

theorem agree_self_iff {fileName : Str} (side : Side) :
    Agree fileName old new (side.pick old new) (side.pick old new) ↔ (side.pick old new).Distinct := by
  refine ⟨Agree.distinct, fun hdistinct => ⟨hdistinct, rfl, rfl, ?_⟩⟩
  cases side with
  | old => exact .inl fun _ => rfl
  | new => exact .inr fun _ => rfl

/-- What is left is the old pair or the new one, if no mixed pair can be. -/
theorem agree_of_different_iff {fileName : Str} {syncs encodes : Bool} {steps : Nat}
    (hdifferent : old.ts ≠ new.ts ∨ old.file.length ≠ new.file.length) :
    (∀ data metadata : Side, data.DataKept syncs steps → metadata.SidecarKept syncs encodes steps →
      Agree fileName old new (data.pick old new) (metadata.pick old new)) ↔
    steps ≤ 2 ∧ old.Distinct ∨ 8 ≤ steps ∧ syncs = true ∧ encodes = true ∧ new.Distinct := by
  have hmixed : ¬ Agree fileName old new new old := fun h => hdifferent.elim (· h.epoch) (· h.size)
  constructor
  · intro h
    by_cases hfirst : steps ≤ 2
    · exact .inl ⟨hfirst, (agree_self_iff .old).mp (h .old .old (.inl (by omega)) (.inl (by omega)))⟩
    · -- the new data file may be left, so the old sidecar may not
      have hdata : Side.new.DataKept syncs steps := by
        rw [Side.DataKept]
        omega
      have hgone : ¬ Side.old.SidecarKept syncs encodes steps := fun hkept =>
        hmixed (h .new .old hdata hkept)
      rw [Side.SidecarKept, not_or, not_or, Bool.not_eq_false, Bool.not_eq_false] at hgone
      obtain ⟨hsteps, hsyncs, hencodes⟩ := hgone
      refine .inr ⟨by omega, hsyncs, hencodes, (agree_self_iff .new).mp (h .new .new hdata ?_)⟩
      exact ⟨by omega, hencodes⟩
  · rintro (⟨hsteps, hdistinct⟩ | ⟨hsteps, rfl, rfl, hdistinct⟩) data metadata hdata hmetadata
    · cases data with
      | new => exact absurd hdata (by simp only [Side.DataKept]; omega)
      | old =>
        cases metadata with
        | new => exact absurd hmetadata.1 (by omega)
        | old => exact (agree_self_iff .old).mpr hdistinct
    · cases metadata with
      | old =>
        rw [Side.SidecarKept, or_self, Bool.true_eq_false, or_false] at hmetadata
        omega
      | new =>
        cases data with
        | old =>
          rw [Side.DataKept, Bool.true_eq_false, or_false] at hdata
          omega
        | new => exact (agree_self_iff .new).mpr hdistinct

omit [Runtime] [Objects] in
theorem Snapshot.SameData.contents (h : old.SameData new) :
    payloads old.slots = payloads new.slots ∧ old.slots.length = new.slots.length ∧
      ∀ cursor, slotRecords cursor old.slots = slotRecords cursor new.slots := by
  obtain ⟨-, hslots⟩ := h
  generalize old.slots = slots, new.slots = slots' at hslots ⊢
  induction hslots with
  | nil => exact ⟨rfl, rfl, fun _ => rfl⟩
  | cons hslot _ ih =>
    obtain ⟨hkey, hpayload, hfmt⟩ := hslot
    obtain ⟨hpayloads, hlength, hrecords⟩ := ih
    refine ⟨?_, congrArg (· + 1) hlength, fun cursor => ?_⟩
    · rw [payloads, payloads, List.flatMap_cons, List.flatMap_cons, hpayload]
      exact congrArg _ hpayloads
    · rw [slotRecords, slotRecords, hpayload, hrecords, SnapshotSlot.record, SnapshotSlot.record, hkey,
        hpayload, hfmt]

/-- Snapshots with the same data have one data file, so that only the sidecar decides what is shown. -/
theorem agree_of_sameData_iff {fileName : Str} {syncs encodes : Bool} {steps : Nat}
    (h : old.SameData new) :
    (∀ data metadata : Side, data.DataKept syncs steps → metadata.SidecarKept syncs encodes steps →
      Agree fileName old new (data.pick old new) (metadata.pick old new)) ↔ old.Distinct := by
  obtain ⟨hpayloads, hlength, hrecords⟩ := h.contents
  have hheader : snapshotHeader old.slots old.ts = snapshotHeader new.slots new.ts := by
    rw [snapshotHeader, snapshotHeader, hpayloads, hlength, h.ts]
  have hfile : old.file = new.file := by
    rw [Snapshot.file, Snapshot.file, snapshotFile, snapshotFile, hheader, hpayloads, hrecords]
  have hdistinct : new.Distinct ↔ old.Distinct := by
    rw [Snapshot.Distinct, Snapshot.Distinct, ← map_name_slotRecords 0, ← hrecords,
      map_name_slotRecords]
  have hmixed : ∀ data metadata : Side,
      mixedReader fileName (data.pick old new) (metadata.pick old new) =
        mixedReader fileName (metadata.pick old new) (metadata.pick old new) := by
    intro data metadata
    cases data <;> cases metadata <;> simp only [Side.pick, mixedReader, hfile, hheader, hrecords]
  have hside : ∀ data metadata : Side,
      Agree fileName old new (data.pick old new) (metadata.pick old new) ↔ old.Distinct := by
    intro data metadata
    have hpick : (data.pick old new).Distinct ↔ old.Distinct := by
      cases data with
      | old => rfl
      | new => exact hdistinct
    refine ⟨fun hagree => hpick.mp hagree.distinct, fun hold => ⟨hpick.mpr hold, ?_, ?_, ?_⟩⟩
    · cases data <;> cases metadata <;> simp only [Side.pick, h.ts]
    · cases data <;> cases metadata <;> simp only [Side.pick, hfile]
    · rw [hmixed]
      exact ((agree_self_iff metadata).mpr (by cases metadata; exacts [hold, hdistinct.mpr hold])).shows
  constructor
  · intro hall
    by_cases hsteps : steps ≤ 3
    · exact (hside .old .old).mp (hall .old .old (.inl hsteps) (.inl (by omega)))
    · have hdata : Side.new.DataKept syncs steps := by
        rw [Side.DataKept]
        omega
      by_cases hkept : Side.old.SidecarKept syncs encodes steps
      · exact (hside .new .old).mp (hall .new .old hdata hkept)
      · rw [Side.SidecarKept, not_or, not_or, Bool.not_eq_false, Bool.not_eq_false] at hkept
        exact (hside .new .new).mp (hall .new .new hdata ⟨by omega, hkept.2.2⟩)
  · exact fun hold data metadata _ _ => (hside data metadata).mpr hold

section Rewrite

variable (hjson : JsonLaw) {rawOld : Bytes} (hold : Storable old.slots old.ts)
  (hraw : Objects.jsonDumps old.document = .ok rawOld) (hpath : files .path = some old.file)
  (hsidecar : files .sidecar = some rawOld) {tree : Tree} {recurse : Bool} (hname : tree.name = new.name)
  (hslots : List.Forall₂ Slotted (tree.visits recurse new.path) new.slots)
  (hnew : Storable new.slots new.ts) (fileName : Str) (syncs : Bool) (steps : Nat)
include hjson hold hraw hpath hsidecar hname hslots hnew

theorem atomicAt_iff_agree : AtomicAt fileName syncs old new tree recurse files steps ↔
    ∀ data metadata : Side, data.DataKept syncs steps →
      metadata.SidecarKept syncs new.document.isEncodable steps →
      Agree fileName old new (data.pick old new) (metadata.pick old new) := by
  have hstorable : ∀ side : Side, Storable (side.pick old new).slots (side.pick old new).ts := by
    rintro (_ | _)
    exacts [hold, hnew]
  rw [AtomicAt, write_eq_finalise hslots, hname]
  cases hdumps : Objects.jsonDumps new.document with
  | ok raw =>
    have hencodes : new.document.isEncodable = true :=
      (hjson.dumps _ document_snapshotSidecar).mp ⟨raw, hdumps⟩
    rw [after_finalise_ok hnew hdumps, hencodes]
    refine shows_iff_pairs (current_settled files).commitUpto.commitUpto (Side.pick rawOld raw)
      (fun inode => ?_) (kept_sidecar_second hsidecar) hstorable hjson ?_
    · rw [kept_path_sidecar hpath]
      rfl
    · rintro (_ | _) -
      exacts [hraw, hdumps]
  | error e =>
    have hencodes : new.document.isEncodable = false := by
      rw [Bool.eq_false_iff]
      intro htrue
      obtain ⟨raw, hok⟩ := (hjson.dumps _ document_snapshotSidecar).mpr htrue
      rw [Snapshot.document, hok] at hdumps
      cases hdumps
    rw [after_finalise_error hnew hdumps, hencodes]
    refine shows_iff_pairs (current_settled files).commitUpto (fun _ => rawOld)
      (fun inode => ?_) (fun inode => ?_) hstorable hjson ?_
    · rw [kept_path_commit hpath]
      rfl
    · rw [kept_sidecar_first hsidecar]
      constructor
      · exact fun h => ⟨.old, .inr (.inr rfl), h⟩
      · rintro ⟨_, -, rfl⟩
        rfl
    · rintro (_ | _) hkept
      · exact hraw
      · cases hkept.2

end Rewrite

end Crash

/-! ## A crash between the two renames -/

section Sample

attribute [local instance] sampleRuntime documentObjects

def sampleSnapshot (text : String) (ts : Nat) : Snapshot :=
  ⟨[slotOf (lit "/root", textEntry "x" text)], ts, lit "root", lit "/root"⟩

def textTree (text : String) : Tree := .node (lit "root") [textEntry "x" text] []

theorem slotted_textTree (text : String) :
    List.Forall₂ Slotted ((textTree text).visits false (lit "/root")) (sampleSnapshot text 8).slots := by
  have hscalar : (slotKey (lit "/root") (lit "x")).all isScalar = true := by decide
  have hslots : ∀ visit ∈ (textTree text).visits false (lit "/root"),
      ∃ payload, serializeEntry visit.2 = .ok payload := by
    intro visit hvisit
    rw [List.mem_singleton.mp hvisit]
    exact (faithful_textEntry "x" text).serializeEntry
  refine (forall₂_slotted_iff hslots).mpr ⟨rfl, fun visit hvisit => ?_⟩
  rw [List.mem_singleton.mp hvisit]
  exact hscalar

def oldFiles (raw : Bytes) : FileName → Option Bytes
  | .path => some (sampleSnapshot "one" 7).file
  | .sidecar => some raw
  | _ => none

theorem sampleSnapshot_fits : ∀ s ∈ [sampleSnapshot "one" 7, sampleSnapshot "two" 8],
    Storable s.slots s.ts ∧ s.document.isEncodable = true := by
  decide +kernel

theorem exists_sampleSidecar {s : Snapshot} (h : s ∈ [sampleSnapshot "one" 7, sampleSnapshot "two" 8]) :
    ∃ raw, Objects.jsonDumps s.document = .ok raw :=
  ((jsonLaw_document rfl rfl : JsonLaw).dumps _ document_snapshotSidecar).mpr (sampleSnapshot_fits s h).2

end Sample

end Persistence
