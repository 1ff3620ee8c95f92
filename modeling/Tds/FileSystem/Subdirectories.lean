import Tds.FileSystem.Value
import Tds.Process.Pool
import Tds.Tries.Radix

/-!
# Subdirectories

The children of a directory are kept twice: in a dictionary, which `in` asks, and in a radix tree,
which lookups go through. `mkdir` asks whether the name is taken in one lock-protected section and
adds the child in another one; the child is built in between. A child is known by the number of the call
that builds it.
-/

namespace FileSystem

open Python Process Tries

/-- A tree of names, beside a `dict`. -/
structure RadixDirectoryRouter (α : Type) where
  items : PyDict Str α
  root : RadixNode Nat α

namespace RadixDirectoryRouter

variable {α : Type}

def init : RadixDirectoryRouter α := ⟨[], .empty⟩

/-- `key in router`. -/
def contains (router : RadixDirectoryRouter α) (key : Str) : Bool := (router.items.get key).isSome

/-- `router.get(key)`. -/
def get (router : RadixDirectoryRouter α) (key : Str) : Option α := router.root.lookup key

def put (router : RadixDirectoryRouter α) (key : Str) (value : α) : RadixDirectoryRouter α :=
  ⟨router.items.set key value, router.root.insert value key⟩

/-- `router.insert(key, value)`. -/
def insert (router : RadixDirectoryRouter α) (key : Str) (value : α) :
    Check (RadixDirectoryRouter α) := do
  raiseIf (key = []) .valueError (lit "radix key must be non-empty")
  return router.put key value

/-- The last part of `router.delete(key)`: all items go into a new tree. -/
def rebuild (items : PyDict Str α) : Check (RadixDirectoryRouter α) :=
  items.foldlM (fun router item => router.insert item.1 item.2) init

/-- `router.delete(key)`. -/
def delete (router : RadixDirectoryRouter α) (key : Str) :
    Check (Option α × RadixDirectoryRouter α) :=
  match router.items.get key with
  | none => return (none, router)
  | some removed => do
    let rebuilt ← rebuild (router.items.pop key)
    return (some removed, rebuilt)

/-- A change of a router. Values are never `None`. -/
inductive Change (α : Type) where
  | insert (key : Str) (value : α)
  | delete (key : Str)

def Change.key : Change α → Str
  | insert key _ | delete key => key

def Change.apply (router : RadixDirectoryRouter α) : Change α → Check (RadixDirectoryRouter α)
  | insert key value => router.insert key value
  | delete key => Prod.snd <$> router.delete key

def applyAll (router : RadixDirectoryRouter α) (changes : List (Change α)) :
    Check (RadixDirectoryRouter α) :=
  changes.foldlM Change.apply router

/-- The tree finds what the `dict` has. -/
def Agrees (router : RadixDirectoryRouter α) : Prop :=
  ∀ key ≠ [], router.get key = router.items.get key

end RadixDirectoryRouter

/-! ## `mkdir` -/

/-- `DirFlags.ENCRYPTED` in the flags of a directory. -/
def isEncrypted (flags : Nat) : Bool := flags.testBit 1

/-- The arguments of `mkdir` that decide about its outcome. -/
structure MkdirArgs where
  name : Str
  allowReserved : Bool
  flags : Nat

/-- The exceptions of `mkdir`. -/
inductive MkdirError where
  | valueError (message : Str)
  | fileExistsError (message : Str)
  | notImplementedError (message : Str)
deriving DecidableEq

/-- What does not change of the directory in which children are made. -/
structure Parent where
  name : Str
  /-- `reserved_namespaces.directory_names`. -/
  reserved : List Str

def cleanName (name : Str) : Str :=
  (((strip name).dropWhile (· = 47)).reverse.dropWhile (· = 47)).reverse

def Parent.isReservedNamespace (self : Parent) (name : Str) : Bool :=
  decide (cleanName name ∈ self.reserved)

/-- The names that `mkdir` refuses in any case. -/
def isInvalidName (name : Str) : Bool :=
  name.isEmpty || name = lit "." || name = lit ".." || name.contains 47 || name.contains 92 ||
    name.contains 0

/-- The sections of `mkdir`. -/
inductive ChildOp where
  /-- `name in self._children`, under the lock. -/
  | contains (name : Str)
  /-- `self._children[name] = child`, under the lock. -/
  | setChild (name : Str) (child : Nat)

abbrev ChildOp.Answer : ChildOp → Type
  | contains _ => Bool
  | setChild _ _ => Check Unit

def ChildOp.exec (op : ChildOp) (router : RadixDirectoryRouter Nat) :
    op.Answer × RadixDirectoryRouter Nat :=
  match op with
  | contains name => (router.contains name, router)
  | setChild name child =>
    match router.insert name child with
    | .ok router' => (.ok (), router')
    | .error e => (.error e, router)

abbrev MkdirProg := Prog ChildOp ChildOp.Answer MkdirError Nat

section Mkdir

variable [Objects]

/-- The end of a call whose child was added, or refused by the router. -/
def afterInsert (child : Nat) : Check Unit → MkdirProg
  | .ok () => return child
  | .error e => throw (.valueError e.message)

/-- The rest of a call that has asked whether the name is taken. -/
def afterCheck (self : Parent) (args : MkdirArgs) (child : Nat) (found : Bool) : MkdirProg :=
  if found then
    throw (.fileExistsError (lit "Sub-directory " ++ Objects.reprOf (.str args.name) ++
      lit " already exists in " ++ Objects.reprOf (.str self.name)))
  else if isEncrypted args.flags then
    throw (.notImplementedError
      (lit "At-rest encryption is not implemented; ENCRYPTED directories are rejected fail-closed."))
  else do
    let added ← Prog.call (.setChild args.name child)
    afterInsert child added

def mkdir (self : Parent) (args : MkdirArgs) (child : Nat) : MkdirProg :=
  if isInvalidName args.name then
    throw (.valueError (lit "Invalid directory name: " ++ Objects.reprOf (.str args.name)))
  else if self.isReservedNamespace args.name && !args.allowReserved then
    throw (.valueError (lit "Directory name " ++ Objects.reprOf (.str args.name) ++
      lit " is reserved by manifest policy"))
  else do
    let found ← Prog.call (.contains args.name)
    afterCheck self args child found

/-- The subdirectory of a name. -/
def cd (self : Parent) (router : RadixDirectoryRouter Nat) (name : Str) : Check Nat :=
  match router.get name with
  | some child => .ok child
  | none => raise .keyError (lit "Sub-directory '" ++ name ++ lit "' not found in " ++
      Objects.reprOf (.str self.name))

/-! ## Concurrent calls -/

/-- A directory and the calls of `mkdir` on it. -/
abbrev MkdirCalls := Pool Nat ChildOp ChildOp.Answer MkdirError Nat (RadixDirectoryRouter Nat)

namespace MkdirCalls

/-- Callers that all have yet to begin, each on its own thread. -/
def start (self : Parent) (router : RadixDirectoryRouter Nat) (callers : Nat → Option MkdirArgs) :
    MkdirCalls :=
  ⟨router, fun t => (callers t).map fun args => mkdir self args t⟩

def Returned (s : MkdirCalls) (t child : Nat) : Prop := s.threads t = some (.done (.ok child))

/-- A thread has found the name free and has yet to add its child. -/
def Inserting (s : MkdirCalls) (name : Str) (t : Nat) : Prop :=
  ∃ next, s.threads t = some (.step (.setChild name t) next)

/-- No two threads are about to insert one name. -/
def Alone (s : MkdirCalls) (name : Str) : Prop :=
  ∀ t u, s.Inserting name t → s.Inserting name u → t = u

/-- At most one call has succeeded, and lookups find the child that it has returned. -/
def OneWinner (s : MkdirCalls) (self : Parent) (name : Str) : Prop :=
  (∀ t u child child', s.Returned t child → s.Returned u child' → t = u) ∧
    ∀ t child, s.Returned t child → cd self s.shared name = .ok child

def Ended (s : MkdirCalls) : Prop := ∀ t program, s.threads t = some program → ∃ r, program = .done r

end MkdirCalls

end Mkdir

end FileSystem
