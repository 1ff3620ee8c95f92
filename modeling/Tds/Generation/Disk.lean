import Tds.Generation.Contract
import Tds.Process.Program

/-!
# What the stores of one root directory share

Several `AtomicGenerationStore` instances, in any number of processes, work on one directory. They
share its files and its advisory locks; each has its own memory. An operation is one atomic step on
that state. Files under a fresh private name (temporaries, staging directories) are values of the
program that writes them: what is shared changes when such a file is linked or renamed into place.
A write and the `fsync` after it are one step, since only processes die here, never the machine; only
the append to a publication log is visible in parts.
-/

namespace Generation

open Python Process

abbrev StoreId := Nat

/-! ## Candidates and leases -/

section Values

variable [Runtime]

/-- The order check of `GenerationCandidate.__post_init__`. -/
def checkCandidateOrder : List (Str × Bytes) → Check Unit
  | [] => .ok ()
  | [_] => .ok ()
  | previous :: item :: items =>
    if item.1 < previous.1 then .error (contractError "candidate payloads must be sorted")
    else checkCandidateOrder (item :: items)

/-- The identity check of `GenerationCandidate.__post_init__`. -/
def checkCandidateIdentities : List (GenerationPayload × Str × Bytes) → Check Unit
  | [] => .ok ()
  | (identity, _, data) :: items =>
    if identity.size.val ≠ data.length ∨ identity.contentRoot ≠ bytesRoot data then
      .error (.contract (lit "candidate payload identity mismatch: " ++ identity.name.val)
        .identityMismatch)
    else checkCandidateIdentities items

/-- `GenerationCandidate.__post_init__`. -/
def checkCandidate (manifest : GenerationManifest) (payloads : List (Str × Bytes)) : Check Unit := do
  checkCandidateOrder payloads
  raiseIf (payloads.map Prod.fst ≠ manifest.payloads.map fun item => item.name.val)
    (contractFault "candidate payload names do not match manifest" .identityMismatch)
  checkCandidateIdentities (manifest.payloads.zip payloads)

/-- What is to be published, with its payloads. -/
structure GenerationCandidate where
  manifest : GenerationManifest
  payloads : List (Str × Bytes)
  /-- The candidate was validated when it was built. -/
  valid : checkCandidate manifest payloads = .ok ()

/-- `GenerationLease`; its `generation_root` is the root of its manifest. -/
structure GenerationLease where
  nameSpace : Str
  manifest : GenerationManifest
  publicationSequence : Nat
  pinFd : Nat
  closed : Bool

/-- The calls of the store that change something. A lease is named by its place among the leases its
store has given out. -/
inductive Call where
  | publish (candidate : GenerationCandidate) (expectedHeadRoot : Option Str)
  | rollback (nameSpace targetGenerationRoot expectedHeadRoot : Str)
  | recover (nameSpace : Str)
  | pin (nameSpace : Str) (generationRoot : Option Str)
  | close (lease : Nat)
  | retire (nameSpace generationRoot : Str)

end Values

/-! ## Files and locks -/

/-- A file that stores share. A generation directory appears by one rename with its manifest in it,
so it exists exactly when the manifest does. -/
inductive Path where
  /-- `objects/<hex>`. -/
  | object (root : Root)
  /-- `generations/<hex>/manifest.json`. -/
  | manifest (generation : Root)
  /-- `generations/<hex>/receipts/<sequence>-<state>.json`. -/
  | receipt (generation : Root) (state : GenerationState)
  /-- `namespaces/<key>/publication.jsonl`. -/
  | log (key : Digest)
  /-- `namespaces/<key>/CURRENT`. -/
  | current (key : Digest)
deriving DecidableEq

inductive LockFile where
  /-- `namespaces/<key>/LOCK`. -/
  | nameSpace (key : Digest)
  /-- `pins/<hex>`. -/
  | pin (generation : Root)
deriving DecidableEq

/-- A descriptor that holds a lock. -/
structure Holder where
  store : StoreId
  fd : Nat
  shared : Bool
deriving DecidableEq

/-- The name of a receipt file: `f"{sequence:03d}-{state}.json"`. -/
def receiptName (state : GenerationState) : Str :=
  lit "00" ++ printNat state.index ++ lit "-" ++ state.value ++ lit ".json"

def Path.text : Path → Str
  | object root => lit "objects/" ++ root.hex
  | manifest generation => lit "generations/" ++ generation.hex ++ lit "/manifest.json"
  | receipt generation state =>
    lit "generations/" ++ generation.hex ++ lit "/receipts/" ++ receiptName state
  | log key => lit "namespaces/" ++ key.hex ++ lit "/publication.jsonl"
  | current key => lit "namespaces/" ++ key.hex ++ lit "/CURRENT"

def LockFile.text : LockFile → Str
  | nameSpace key => lit "namespaces/" ++ key.hex ++ lit "/LOCK"
  | pin generation => lit "pins/" ++ generation.hex

/-- The places where a `failure_injector` is called. -/
inductive FailureBoundary where
  | beforeTemporaryWrite
  | duringPayloadWrite
  | afterPayloadWrite
  | beforeFileFsync
  | afterFileFsync
  | beforeDirectoryFsync
  | beforeManifestPublication
  | afterManifestPublication
  | beforeCurrentHeadCas
  | afterCurrentHeadCas
  | duringRecovery
deriving DecidableEq

/-- The parameters of a store. -/
structure StoreConfig where
  /-- `root`. -/
  root : Str
  limits : QualifiedGenerationLimits
  lockAttempts : Nat
  /-- What `failure_injector` may raise at a boundary; nothing when there is no injector. -/
  failureInjector : FailureBoundary → Set Error

def StoreConfig.pathText (config : StoreConfig) (below : Str) : Str :=
  config.root ++ lit "/" ++ below

/-! ## The shared state -/

section State

variable [Runtime]

/-- The attributes of a store that its calls change: `_pins`, `_pin_locks` and the leases it has
given out. -/
structure StoreMemory where
  pins : AList fun _ : Root => Nat
  /-- The descriptor that holds the shared lock, and the number of leases that use it. -/
  pinLocks : AList fun _ : Root => Nat × Nat
  leases : List GenerationLease

def StoreMemory.empty : StoreMemory := ⟨∅, ∅, []⟩

/-- Everything that steps act on. The last three fields are a record of what happened; no program
reads them. -/
structure World where
  disk : Path → Option Bytes
  locks : LockFile → List Holder
  memory : StoreId → StoreMemory
  /-- Every call ever made, with the store that made it. -/
  history : List (StoreId × Call)
  /-- The call a store is executing, by its place in the history. -/
  running : StoreId → Option Nat
  /-- For each publication log the calls that completed its records, in order. -/
  commits : Digest → List Nat

/-- Nothing is stored yet. -/
def World.initial : World :=
  ⟨fun _ => none, fun _ => [], fun _ => .empty, [], fun _ => none, fun _ => []⟩

namespace World

def write (w : World) (path : Path) (data : Bytes) : World :=
  { w with disk := Function.update w.disk path (some data) }

def remove (w : World) (path : Path) : World :=
  { w with disk := Function.update w.disk path none }

/-- The directory of a generation appears as a whole. -/
def addGeneration (w : World) (generation : Root) (manifest : Bytes)
    (receipts : GenerationState → Option Bytes) : World :=
  { w with
    disk := fun path => match path with
      | .manifest g => if g = generation then some manifest else w.disk path
      | .receipt g state => if g = generation then receipts state else w.disk path
      | _ => w.disk path }

def lock (w : World) (file : LockFile) (holder : Holder) : World :=
  { w with locks := Function.update w.locks file (holder :: w.locks file) }

def unlock (w : World) (file : LockFile) (p : StoreId) (fd : Nat) : World :=
  { w with
    locks := Function.update w.locks file
      ((w.locks file).filter fun h => !(h.store == p && h.fd == fd)) }

def setMemory (w : World) (p : StoreId) (memory : StoreMemory) : World :=
  { w with memory := Function.update w.memory p memory }

/-- Bytes are appended to a publication log. The call that writes the line break completes a
record. -/
def append (w : World) (p : StoreId) (key : Digest) (data : Bytes) : World :=
  { w with
    disk := Function.update w.disk (.log key) (some ((w.disk (.log key)).getD [] ++ data))
    commits :=
      if (10 : UInt8) ∈ data then
        Function.update w.commits key (w.commits key ++ (w.running p).toList)
      else w.commits }

/-- Some descriptor of the store has this number and holds a lock. -/
def FdInUse (w : World) (p : StoreId) (fd : Nat) : Prop :=
  ∃ file, ∃ h ∈ w.locks file, h.store = p ∧ h.fd = fd

/-- `flock` succeeds at once: a shared lock beside shared locks, an exclusive one alone. -/
def CanLock (w : World) (file : LockFile) (shared : Bool) : Prop :=
  if shared then ∀ h ∈ w.locks file, h.shared = true else w.locks file = []

instance (w : World) (file : LockFile) (shared : Bool) : Decidable (w.CanLock file shared) := by
  unfold CanLock
  infer_instance

end World

/-! ## Operations -/

/-- What a store asks of the file system and of its own memory. -/
inductive Op where
  /-- Read a whole file, or find that it does not exist. -/
  | read (path : Path)
  /-- `os.link(temporary, object)`. -/
  | link (root : Root) (data : Bytes)
  /-- `os.replace(stage_dir, generation_dir)`. -/
  | rename (generation : Root) (manifest : Bytes) (receipts : GenerationState → Option Bytes)
  /-- Open a publication log with `O_CREAT`. -/
  | create (key : Digest)
  /-- `os.write(fd, view)` on a publication log. -/
  | append (key : Digest) (view : Bytes)
  /-- `os.replace(temporary, path)`. -/
  | replace (path : Path) (data : Bytes)
  /-- `path.unlink()`. -/
  | unlink (path : Path)
  /-- `flock` without waiting, on a new descriptor. -/
  | flock (file : LockFile) (shared : Bool)
  /-- Unlock and close a descriptor. -/
  | unlock (file : LockFile) (fd : Nat)
  /-- Read the store's own attributes. -/
  | memory
  /-- Set the store's own attributes. -/
  | setMemory (memory : StoreMemory)
  /-- Call the failure injector. -/
  | hit (boundary : FailureBoundary)

@[reducible] def Op.Answer : Op → Type
  | read _ => Option Bytes
  | link _ _ => Bool
  | rename _ _ _ => Bool
  | create _ => Unit
  | append _ _ => Nat
  | replace _ _ => Unit
  | unlink _ => Bool
  | flock _ _ => Option Nat
  | unlock _ _ => Unit
  | memory => StoreMemory
  | setMemory _ => Unit
  | hit _ => Option Error

/-- One step of the store `p`, opened with `config`. -/
def exec (config : StoreConfig) (p : StoreId) : (o : Op) → World → o.Answer → World → Prop
  | .read path, w, a, w' => a = w.disk path ∧ w' = w
  | .link root data, w, a, w' =>
    if w.disk (.object root) = none then a = true ∧ w' = w.write (.object root) data
    else a = false ∧ w' = w
  | .rename generation manifest receipts, w, a, w' =>
    if w.disk (.manifest generation) = none then
      a = true ∧ w' = w.addGeneration generation manifest receipts
    else a = false ∧ w' = w
  | .create key, w, _, w' =>
    if w.disk (.log key) = none then w' = w.write (.log key) [] else w' = w
  -- the system may write less than it is asked to
  | .append key view, w, n, w' =>
    (1 ≤ n ∨ view = []) ∧ n ≤ view.length ∧ w' = w.append p key (view.take n)
  | .replace path data, w, _, w' => w' = w.write path data
  | .unlink path, w, a, w' =>
    if w.disk path = none then a = false ∧ w' = w else a = true ∧ w' = w.remove path
  | .flock file shared, w, a, w' =>
    if w.CanLock file shared then
      ∃ fd, ¬ w.FdInUse p fd ∧ a = some fd ∧ w' = w.lock file ⟨p, fd, shared⟩
    else a = none ∧ w' = w
  | .unlock file fd, w, _, w' => w' = w.unlock file p fd
  | .memory, w, a, w' => a = w.memory p ∧ w' = w
  | .setMemory memory, w, _, w' => w' = w.setMemory p memory
  | .hit boundary, w, a, w' =>
    w' = w ∧ (a = none ∨ ∃ e ∈ config.failureInjector boundary, a = some e)

abbrev Proc (α : Type) := Prog Op Op.Answer Error α

def readFile (path : Path) : Proc (Option Bytes) := Prog.call (Op.read path)

/-- Whether the object was linked; it was not if the name was taken. -/
def linkObject (root : Root) (data : Bytes) : Proc Bool := Prog.call (Op.link root data)

/-- Whether the directory was renamed; it was not if the generation exists. -/
def renameGeneration (generation : Root) (manifest : Bytes)
    (receipts : GenerationState → Option Bytes) : Proc Bool :=
  Prog.call (Op.rename generation manifest receipts)

def createLog (key : Digest) : Proc Unit := Prog.call (Op.create key)

def writeLog (key : Digest) (view : Bytes) : Proc Nat := Prog.call (Op.append key view)

def replaceFile (path : Path) (data : Bytes) : Proc Unit := Prog.call (Op.replace path data)

def unlinkFile (path : Path) : Proc Bool := Prog.call (Op.unlink path)

def flock (file : LockFile) (shared : Bool) : Proc (Option Nat) := Prog.call (Op.flock file shared)

def releaseAdvisoryLock (file : LockFile) (fd : Nat) : Proc Unit := Prog.call (Op.unlock file fd)

def getMemory : Proc StoreMemory := Prog.call Op.memory

def setMemory (memory : StoreMemory) : Proc Unit := Prog.call (Op.setMemory memory)

/-- `self._hit(boundary)`. -/
def hit (boundary : FailureBoundary) : Proc Unit := do
  let raised : Option Error ← Prog.call (Op.hit boundary)
  match raised with
  | some e => throw e
  | none => return ()

end State

end Generation
