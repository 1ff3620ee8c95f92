import Tds.Generation.Proofs.Reader

/-!
# What stores owe each other

`Inv` holds between any two operations of any stores. `Rely` is what a store may rely on while the
others work: nobody touches its memory and its locks, files that are written once stay, a namespace
whose lock it holds stays as it is, and a generation cannot be retired under a lock that protects it.
-/

namespace Generation

open Python Process

section Discipline

variable [Runtime]

namespace World

/-- The store has the lock. -/
def Holds (w : World) (p : StoreId) (file : LockFile) : Prop :=
  ∃ h ∈ w.locks file, h.store = p

def Has (w : World) (m : GenerationManifest) : Prop :=
  w.disk (.manifest m.generationRoot) = some m.encode

/-- Some call of `publish` was given these bytes as a payload. -/
def Supplied (w : World) (data : Bytes) : Prop :=
  ∃ p candidate expected name, (p, Call.publish candidate expected) ∈ w.history ∧
    (name, data) ∈ candidate.payloads

/-- The store is executing `close` on this lease. -/
def Closing (w : World) (p : StoreId) (lease : Nat) : Prop :=
  ∃ id, w.running p = some id ∧ w.history[id]? = some (p, .close lease)

/-- The store holds the lock of the namespace that the generation belongs to. -/
def Guards (w : World) (p : StoreId) (m : GenerationManifest) : Prop :=
  ∃ key, namespaceKey m.nameSpace.val = .ok key ∧ w.Holds p (.nameSpace key)

end World

/-- The file is never replaced or removed. -/
def Path.Permanent : Path → Prop
  | object _ | manifest _ | receipt _ _ => True
  | log _ | current _ => False

/-- The call is about the namespace of this key, and names this root as the head that it expects. -/
def Call.Expects (key : Digest) (root : Option Root) : Call → Prop
  | publish candidate expected => namespaceKey candidate.manifest.nameSpace.val = .ok key ∧
    requireOptionalRoot "expected_head_root" (strJson expected) = .ok root
  | rollback nameSpace _ expected => namespaceKey nameSpace = .ok key ∧
    ∃ r, requireRoot "expected_head_root" (.str expected) = .ok r ∧ root = some r
  | _ => False

/-! ## The invariant -/

variable (config : StoreId → StoreConfig)

/-- A supplied and accepted manifest whose files are all stored. -/
structure Complete (w : World) (m : GenerationManifest) : Prop where
  receipt : ∀ state ∈ GenerationState.publishedStates,
    w.disk (.receipt m.generationRoot state) = some (m.receipt state).encode
  object : ∀ payload ∈ m.payloads, ∃ data, w.disk (.object payload.contentRoot) = some data ∧
    data.length = payload.size.val
  supplied : ∃ p candidate expected, (p, Call.publish candidate expected) ∈ w.history ∧
    candidate.manifest = m
  accepted : ∃ p, Accepts (config p) m

/-- What holds of the log of a namespace and of its `CURRENT`. -/
structure LogOk (w : World) (key : Digest) : Prop where
  holds : ∃ tail, LogHolds (w.disk (.log key)) (w.records key) tail
  chain : ValidChain (w.records key)
  lineage : Lineage [] (w.records key)
  binds : ∀ r ∈ w.records key, namespaceKey r.nameSpace.val = .ok key ∧ ∃ m, Binds m r ∧ w.Has m
  limit : w.records key ≠ [] →
    ∃ p, (w.records key).length ≤ (config p).limits.maxPublicationRecords.val
  current : ∀ data, w.disk (.current key) = some data →
    ∃ r ∈ w.records key, data = headEnvelope (headOf r)
  commits : (w.commits key).length = (w.records key).length
  expects : ∀ i id, (w.commits key)[i]? = some id → ∃ p, ∃ call : Call,
    w.history[id]? = some (p, call) ∧
      call.Expects key ((impliedHead ((w.records key).take i)).map (·.headRoot))

/-- Neither the last record nor `CURRENT` names the generation. -/
structure Dispensable (w : World) (key : Digest) (generation : Root) : Prop where
  last : ∀ r, (w.records key).getLast? = some r → r.generationRoot ≠ generation
  current : ∀ r ∈ w.records key, w.disk (.current key) = some (headEnvelope (headOf r)) →
    r.generationRoot ≠ generation

/-- Holds between any two operations. The last field is for systems in which no retired generation is
published again. -/
structure Inv (strict : Prop) (w : World) : Prop where
  objects : ∀ root data, w.disk (.object root) = some data → bytesRoot data = root ∧ w.Supplied data
  generations : ∀ g data, w.disk (.manifest g) = some data →
    ∃ m, m.generationRoot = g ∧ data = m.encode ∧ Complete config w m
  receipts : ∀ g state data, w.disk (.receipt g state) = some data →
    ∃ m, m.generationRoot = g ∧ data = (m.receipt state).encode ∧ w.Has m
  logs : ∀ key, LogOk config w key
  nodup : ∀ key, (w.commits key).Nodup
  unique : ∀ key key' id, id ∈ w.commits key → id ∈ w.commits key' → key = key'
  running : ∀ p id, w.running p = some id → ∃ call, w.history[id]? = some (p, call)
  exclusive : ∀ file h, h ∈ w.locks file → h.shared = false → ∀ h' ∈ w.locks file, h' = h
  nameSpaceLocks : ∀ key h, h ∈ w.locks (.nameSpace key) → h.shared = false
  descriptors : ∃ bound, ∀ file, ∀ h ∈ w.locks file, h.fd < bound
  leases : ∀ p i l, (w.memory p).leases[i]? = some l → l.closed = false → ¬ w.Closing p i →
    ⟨p, l.pinFd, true⟩ ∈ w.locks (.pin l.manifest.generationRoot) ∧
      ¬ w.Retired l.manifest.generationRoot
  alive : strict → ∀ key g, w.Retired g → Dispensable w key g

/-! ## Rely and guarantee -/

/-- The logs and the commits only get longer. -/
structure Grows (w w' : World) : Prop where
  records : ∀ key, w.records key <+: w'.records key
  commits : ∀ key, w.commits key <+: w'.commits key

/-- The store's own part of the state stays as it is, and files that are written once stay. -/
structure Stays (p : StoreId) (w w' : World) : Prop extends Grows w w' where
  memory : w'.memory p = w.memory p
  locks : ∀ file h, h.store = p → (h ∈ w'.locks file ↔ h ∈ w.locks file)
  running : w'.running p = w.running p
  history : w.history <+: w'.history
  kept : ∀ path : Path, path.Permanent → ∀ data, w.disk path = some data → w'.disk path = some data

/-- Besides, the store's call completes no record, and no generation is retired that the store
protects by a lock. -/
structure Quiet (p : StoreId) (w w' : World) : Prop extends Stays p w w' where
  committed : ∀ key id, w.running p = some id → id ∈ w'.commits key → id ∈ w.commits key
  retired : ∀ m, w.Has m → w.Holds p (.pin m.generationRoot) ∨ w.Guards p m →
    w'.Retired m.generationRoot → w.Retired m.generationRoot

/-- What the store `p` may rely on while other stores work. -/
structure Rely (p : StoreId) (w w' : World) : Prop extends Quiet p w w' where
  nameSpace : ∀ key, w.Holds p (.nameSpace key) → w'.disk (.log key) = w.disk (.log key) ∧
    w'.disk (.current key) = w.disk (.current key) ∧ w'.commits key = w.commits key

theorem Grows.refl (w : World) : Grows w w :=
  ⟨fun _ => List.prefix_refl _, fun _ => List.prefix_refl _⟩

theorem Grows.trans {w₁ w₂ w₃ : World} (h : Grows w₁ w₂) (h' : Grows w₂ w₃) : Grows w₁ w₃ :=
  ⟨fun key => (h.records key).trans (h'.records key),
    fun key => (h.commits key).trans (h'.commits key)⟩

section

variable {p : StoreId} {w w' w₁ w₂ w₃ : World}

namespace Stays

theorem holds (h : Stays p w w') (file : LockFile) : w'.Holds p file ↔ w.Holds p file :=
  exists_congr fun x => and_congr_left fun hx => h.locks file x hx

theorem has (h : Stays p w w') {m : GenerationManifest} (hm : w.Has m) : w'.Has m :=
  h.kept (.manifest m.generationRoot) trivial _ hm

theorem guards (h : Stays p w w') (m : GenerationManifest) : w'.Guards p m ↔ w.Guards p m :=
  exists_congr fun _ => and_congr_right fun _ => h.holds _

theorem refl (p : StoreId) (w : World) : Stays p w w where
  toGrows := .refl w
  memory := rfl
  locks _ _ _ := Iff.rfl
  running := rfl
  history := List.prefix_refl _
  kept _ _ _ h := h

theorem trans (h : Stays p w₁ w₂) (h' : Stays p w₂ w₃) : Stays p w₁ w₃ where
  toGrows := h.toGrows.trans h'.toGrows
  memory := h'.memory.trans h.memory
  locks file x hx := (h'.locks file x hx).trans (h.locks file x hx)
  running := h'.running.trans h.running
  history := h.history.trans h'.history
  kept path hp data hd := h'.kept path hp data (h.kept path hp data hd)

end Stays

namespace Quiet

theorem refl (p : StoreId) (w : World) : Quiet p w w :=
  ⟨.refl p w, fun _ _ _ h => h, fun _ _ _ h => h⟩

theorem trans (h : Quiet p w₁ w₂) (h' : Quiet p w₂ w₃) : Quiet p w₁ w₃ where
  toStays := h.toStays.trans h'.toStays
  committed key id hid hc := h.committed key id hid (h'.committed key id (h.running ▸ hid) hc)
  retired m hm hp hr := by
    refine h.retired m hm hp (h'.retired m (h.has hm) ?_ hr)
    exact hp.imp (h.holds _).mpr (h.guards m).mpr

end Quiet

namespace Rely

theorem refl (p : StoreId) (w : World) : Rely p w w := ⟨.refl p w, fun _ _ => ⟨rfl, rfl, rfl⟩⟩

theorem trans (h : Rely p w₁ w₂) (h' : Rely p w₂ w₃) : Rely p w₁ w₃ where
  toQuiet := h.toQuiet.trans h'.toQuiet
  nameSpace key hk := by
    obtain ⟨h1, h2, h3⟩ := h.nameSpace key hk
    obtain ⟨h1', h2', h3'⟩ := h'.nameSpace key ((h.holds _).mpr hk)
    exact ⟨h1'.trans h1, h2'.trans h2, h3'.trans h3⟩

end Rely

end

def discipline (strict : Prop) : Discipline StoreId Op Op.Answer World where
  exec p := exec (config p) p
  allowed w w' := strict → LivePublication w w'
  inv := Inv config strict
  rely := Rely
  guar := Grows
  rely_refl := Rely.refl
  rely_trans _ _ _ _ h h' := h.trans h'
  guar_refl := .refl
  guar_trans _ _ _ h h' := h.trans h'

/-! ## The memory of a store between two calls -/

def StoreMemory.pinReferences (memory : StoreMemory) (generation : Root) : Nat :=
  match memory.pinLocks.lookup generation with
  | some (_, references) => references
  | none => 0

def GenerationLease.IsOpen (generation : Root) (lease : GenerationLease) : Bool :=
  !lease.closed && lease.manifest.generationRoot == generation

def World.pinHolders (w : World) (generation : Root) : Set Holder :=
  {h | h ∈ w.locks (.pin generation)}

/-- Pins, references to pin locks, pin locks and open leases agree. -/
structure Pinned (p : StoreId) (memory : StoreMemory) (holders : Root → Set Holder) : Prop where
  count : ∀ g, memory.pinCount g = memory.pinReferences g
  leases : ∀ g, memory.pinReferences g = memory.leases.countP (·.IsOpen g)
  locked : ∀ g fd references, memory.pinLocks.lookup g = some (fd, references) →
    0 < references ∧ ⟨p, fd, true⟩ ∈ holders g
  recorded : ∀ g, ∀ h ∈ holders g, h.store = p →
    h.shared = true ∧ ∃ references, memory.pinLocks.lookup g = some (h.fd, references)
  descriptor : ∀ l ∈ memory.leases, l.closed = false →
    ∃ references, memory.pinLocks.lookup l.manifest.generationRoot = some (l.pinFd, references)

end Discipline

end Generation
