import Tds.FileSystem.Contents
import Tds.Process.Pool

/-!
# Calls of a directory

Writes, reads and deletes, one after the other on one directory, and the plain map that they are
compared with.
-/

namespace FileSystem

open Python Process

inductive Call where
  | write (config : RuntimeConfig) (args : WriteArgs)
  | read (name : Str)
  | delete (name : Str)

inductive Reply where
  | wrote (entry : Entry)
  | value (value : Value)
  | deleted

section Calls

variable [Runtime] [Objects]

def Call.method (self : Self) : Call → Method Reply
  | write config args => return .wrote (← writeEntry config args)
  | read name => return .value (← readValue self name)
  | delete name => do
    deleteEntry name
    return .deleted

/-- The calls of a sequential run and what each of them returned or raised. -/
def history [Scores] (self : Self) : List Call → Directory → List (Call × Check Reply)
  | [], _ => []
  | call :: calls, d =>
    let (reply, d') := (call.method self).run Directory.exec d
    (call, reply) :: history self calls d'

/-- What a write stores: the value after it went through the codec of its format. -/
def storedValue (args : WriteArgs) : Check Value := do
  let raw ← serializePayload args.value (baseFmt args.fmtId)
  freeze raw (baseFmt args.fmtId)

/-- What a directory is for: values by their names. -/
abbrev PlainMap := Str → Option Value

namespace PlainMap

/-- A read: the value under the name, or a `KeyError`. No name without UTF-8 encoding gets that far. -/
def read (m : PlainMap) (self : Self) (name : Str) : Check Reply := do
  let _ ← keyOf name
  match m name with
  | some value => return .value value
  | none => .error (missing self name)

/-- The replies are those of a map that starts as `m`: an acknowledged write sets the name to the
value that was written, an acknowledged delete removes the name, and a read returns what is there. -/
def Serves (self : Self) : PlainMap → List (Call × Check Reply) → Prop
  | _, [] => True
  | m, (.write _ args, .ok (.wrote _)) :: rest =>
    ∃ value, storedValue args = .ok value ∧ Serves self (Function.update m args.name (some value)) rest
  | m, (.write _ _, .error _) :: rest => Serves self m rest
  | m, (.read name, reply) :: rest => reply = m.read self name ∧ Serves self m rest
  | m, (.delete name, .ok .deleted) :: rest => Serves self (Function.update m name none) rest
  | m, (.delete _, .error _) :: rest => Serves self m rest
  | _, _ :: _ => False

end PlainMap

end Calls

/-! ## Concurrent calls

The calls of any number of threads are interleaved section by section. The index and the cache are
changed in different sections, so that between them the cache may hold an entry that is not the indexed
one. -/

/-- Threads that share a directory. -/
abbrev Threads := Pool Nat Op Op.Answer PyException Reply Directory

abbrev ThreadEvent := Event Nat Op Op.Answer PyException Reply

/-- The event starts a call, or goes on with one. -/
def IsCall [Runtime] [Objects] (self : Self) : ThreadEvent → Prop
  | .start _ program => ∃ call : Call, program = call.method self
  | _ => True

/-- The next section of a call sets the cache right for a name: it caches the indexed entry, or it
removes the cached one. -/
def Repairs (d : Directory) (key : Key) : Method Reply → Prop
  | .step (.cachePut key' entry) _ => key' = key ∧ d.entries.get key = some entry
  | .step (.cacheRemove key') _ => key' = key
  | _ => False

namespace Threads

def start (self : Self) (config : RuntimeConfig) (clock : Nat → Nat)
    (schemas : PyDict Str EntrySchema) : Threads :=
  ⟨{ Directory.init self.name self.path config clock with schemas := schemas }, fun _ => none⟩

/-- A thread other than `t` is about to set the cache right for a name. -/
def RepairedBeside (s : Threads) (t : Nat) (key : Key) : Prop :=
  ∃ t' ≠ t, ∃ program, s.threads t' = some program ∧ Repairs s.shared key program

/-- An entry is put into the cache only while it is the indexed one, or while another call is about
to set the cache right for its name. -/
def Orderly (s : Threads) : ThreadEvent → Prop
  | .step t =>
    match s.threads t with
    | some (.step (.cachePut key entry) _) =>
      s.shared.entries.get key = some entry ∨ s.RepairedBeside t key
    | _ => True
  | _ => True

/-- The cache agrees with the index for a name, or a call in progress is about to see to it. -/
def SettledAt (s : Threads) (key : Key) : Prop :=
  s.shared.AgreesAt key ∨ ∃ t program, s.threads t = some program ∧ Repairs s.shared key program

def Settled (s : Threads) : Prop := ∀ key, s.SettledAt key

end Threads

end FileSystem
