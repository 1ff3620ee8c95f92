import Tds.Process.Program
import Tds.Python.Text

/-!
# Files that a crash may damage

What is written to a file is safe after `fsync` on the file, and the name of a file is safe after
`fsync` on its directory. Until then a crash may leave anything in the file, and under the name any
file that it has referred to since the directory was last synced. A rename is atomic: a crash leaves
the name as it was before or as it is after it.
-/

namespace Storage

open Python Process

/-- The data of a file, and whether it is on disk. -/
structure Inode where
  data : Bytes
  synced : Bool
deriving DecidableEq

/-- Files under the names `F`. -/
structure Volume (F : Type) where
  /-- What each name refers to. -/
  files : F → Option Inode
  /-- What each name may refer to after a crash. -/
  kept : F → Set (Option Inode)

inductive VolumeOp (F : Type) where
  /-- Open with `O_CREAT | O_TRUNC` and write all of the data. -/
  | write (name : F) (data : Bytes)
  /-- `os.fsync` on an open file. -/
  | sync (name : F)
  /-- `os.replace(source, target)`. -/
  | replace (source target : F)
  /-- `os.fsync` on the directory. -/
  | syncDir

namespace Volume

variable {F : Type} [DecidableEq F]

/-- A volume whose files are all on disk. -/
def settled (files : F → Option Bytes) : Volume F where
  files name := (files name).map fun data => ⟨data, true⟩
  kept name := {(files name).map fun data => ⟨data, true⟩}

def rebind (v : Volume F) (name : F) (inode : Option Inode) : Volume F where
  files := Function.update v.files name inode
  kept := Function.update v.kept name (insert inode (v.kept name))

/-- What a step does, on a platform that syncs directories or on one that ignores it. -/
def exec (syncsDirs : Bool) (op : VolumeOp F) (v : Volume F) : Unit × Volume F :=
  match op with
  | .write name data => ((), v.rebind name (some ⟨data, false⟩))
  | .sync name => ((), v.rebind name ((v.files name).map fun inode => { inode with synced := true }))
  | .replace source target => ((), (v.rebind target (v.files source)).rebind source none)
  | .syncDir => ((), if syncsDirs then { v with kept := fun name => {v.files name} } else v)

def read (v : Volume F) (name : F) : Option Bytes := (v.files name).map Inode.data

/-- The file may have this data after a crash. -/
def Survives (v : Volume F) (name : F) (data : Option Bytes) : Prop :=
  (none ∈ v.kept name ∧ data = none) ∨
    ∃ inode, some inode ∈ v.kept name ∧ ∃ found, data = some found ∧
      (inode.synced = true → found = inode.data)

/-- A state after a crash. -/
def CrashesTo (v v' : Volume F) : Prop := ∀ name, v.Survives name (v'.read name)

/-- The first steps of replacing a file: a temporary file is written and synced, takes the place of the
file, and the directory is synced. -/
def commitUpto (syncsDirs : Bool) (tmp target : F) (data : Bytes) (steps : Nat) (v : Volume F) : Volume F :=
  ([.write tmp data, .sync tmp, .replace tmp target, .syncDir].take steps).foldl
    (fun v op => (exec syncsDirs op v).2) v

end Volume

abbrev VolumeProg (F ε α : Type) := Prog (VolumeOp F) (fun _ => Unit) ε α

/-! ## What a crash leaves of a file that is being replaced

`kept_commitUpto_target`: the old file until the rename, either of the two until the directory is synced,
and then the new one. All other files stay. -/

namespace Volume

variable {F : Type} {v : Volume F} {name : F} {data : Option Bytes}

theorem survives_iff_of_synced (h : ∀ inode ∈ v.kept name, ∃ found, inode = some ⟨found, true⟩) :
    v.Survives name data ↔ ∃ found, some ⟨found, true⟩ ∈ v.kept name ∧ data = some found := by
  constructor
  · rintro (⟨hnone, -⟩ | ⟨inode, hmem, found, rfl, hsafe⟩)
    · obtain ⟨found, heq⟩ := h none hnone
      cases heq
    · obtain ⟨found', heq⟩ := h _ hmem
      cases heq
      rw [hsafe rfl]
      exact ⟨found', hmem, rfl⟩
  · rintro ⟨found, hmem, rfl⟩
    exact .inr ⟨_, hmem, found, rfl, fun _ => rfl⟩

section Settled

variable {files : F → Option Bytes} {contents : Bytes}

theorem files_settled (h : files name = some contents) :
    (settled files).files name = some ⟨contents, true⟩ :=
  congrArg (Option.map fun data => (⟨data, true⟩ : Inode)) h

theorem kept_settled (h : files name = some contents) :
    (settled files).kept name = {some ⟨contents, true⟩} :=
  congrArg (fun inode => ({inode} : Set (Option Inode))) (files_settled h)

end Settled

variable [DecidableEq F] {syncs : Bool}

/-- What a name shows now may survive. -/
def Current (v : Volume F) : Prop := ∀ name, v.files name ∈ v.kept name

omit [DecidableEq F] in
theorem current_settled (files : F → Option Bytes) : (settled files).Current := fun _ => rfl

theorem Current.rebind (h : v.Current) (name : F) (inode : Option Inode) : (v.rebind name inode).Current := by
  intro other
  simp only [Volume.rebind, Function.update_apply]
  split
  · exact Set.mem_insert _ _
  · exact h other

theorem Current.exec (h : v.Current) (op : VolumeOp F) : (Volume.exec syncs op v).2.Current := by
  cases op with
  | write name data => exact h.rebind _ _
  | sync name => exact h.rebind _ _
  | replace source target => exact (h.rebind _ _).rebind _ _
  | syncDir =>
    unfold Volume.exec
    dsimp only
    split
    · exact fun _ => rfl
    · exact h

omit [DecidableEq F] in
theorem Current.survives (h : v.Current) (name : F) : v.Survives name (v.read name) := by
  have hcurrent := h name
  unfold Survives read
  cases hfile : v.files name with
  | none => exact .inl ⟨hfile ▸ hcurrent, rfl⟩
  | some inode => exact .inr ⟨inode, hfile ▸ hcurrent, inode.data, rfl, fun _ => rfl⟩

section Commit

variable {tmp target : F} {new : Bytes} {steps : Nat}

theorem Current.commitUpto (h : v.Current) : (v.commitUpto syncs tmp target new steps).Current := by
  unfold Volume.commitUpto
  generalize [VolumeOp.write tmp new, .sync tmp, .replace tmp target, .syncDir].take steps = ops
  induction ops generalizing v with
  | nil => exact h
  | cons op ops ih => exact ih (h.exec op)

theorem kept_commitUpto_target (h : target ≠ tmp) : (v.commitUpto syncs tmp target new steps).kept target =
    if steps ≤ 2 then v.kept target
    else if steps = 3 ∨ syncs = false then insert (some ⟨new, true⟩) (v.kept target)
    else {some ⟨new, true⟩} := by
  match steps with
  | 0 => rfl
  | 1 => simp [commitUpto, exec, rebind, h]
  | 2 => simp [commitUpto, exec, rebind, h]
  | 3 => simp [commitUpto, exec, rebind, h]
  | n + 4 =>
    cases syncs <;> simp [commitUpto, exec, rebind, h]

theorem kept_commitUpto_of_ne (htmp : name ≠ tmp) (htarget : name ≠ target) :
    (v.commitUpto syncs tmp target new steps).kept name =
      if steps ≤ 3 ∨ syncs = false then v.kept name else {v.files name} := by
  match steps with
  | 0 => rfl
  | 1 => simp [commitUpto, exec, rebind, htmp]
  | 2 => simp [commitUpto, exec, rebind, htmp]
  | 3 => simp [commitUpto, exec, rebind, htmp, htarget]
  | n + 4 =>
    cases syncs <;> simp [commitUpto, exec, rebind, htmp, htarget]

end Commit

end Volume

end Storage
