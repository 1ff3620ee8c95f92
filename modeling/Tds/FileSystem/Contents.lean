import Tds.FileSystem.Proofs.Index
import Tds.FileSystem.Proofs.Registry
import Tds.FileSystem.Directory
import Tds.Process.Simulation

/-!
# What a directory is for

A directory is a map from names to entries. The Bloom filter and the cache are there to find an entry
sooner, and a directory whose cache agrees with its index answers as the map alone would.
-/

namespace FileSystem

open Python Process

/-- What a directory holds, without index and cache. -/
structure Contents where
  entries : Key → Option Entry
  schemas : PyDict Str EntrySchema
  compressionPolicy : CompressionPolicy
  policyGeneration : Nat
  lockvars : PyDict Str Bool
  stalkvars : PyDict Str StalkState

namespace Contents

/-- Takes over the policy of a new configuration. -/
def renew (c : Contents) (config : RuntimeConfig) : Contents :=
  if config.generation = c.policyGeneration then c
  else { c with compressionPolicy := config.policy, policyGeneration := config.generation }

def put (c : Contents) (key : Key) (entry : Entry) : Contents :=
  { c with entries := Function.update c.entries key (some entry) }

def delete (c : Contents) (key : Key) : Contents :=
  { c with entries := Function.update c.entries key none }

/-- The sections on the map alone: the filter lets every name pass, and nothing is cached. -/
def exec (op : Op) (c : Contents) : op.Answer × Contents :=
  match op with
  | .schema name => (c.schemas.get name, c)
  | .policy config => ((c.renew config).compressionPolicy, c.renew config)
  | .bloomContains _ => (true, c)
  | .cacheGet _ => (none, c)
  | .cachePut _ _ => ((), c)
  | .cacheRemove _ => ((), c)
  | .indexGet key => (c.entries key, c)
  | .indexPut key entry => ((), c.put key entry)
  | .indexPop key => ((), c.delete key)
  | .indexContains key => ((c.entries key).isSome, c)
  | .lockGet name => ((c.lockvars.get name).getD false, c)
  | .lockSet name locked => ((), { c with lockvars := c.lockvars.set name locked })
  | .lockPop name => ((), { c with lockvars := c.lockvars.pop name })
  | .stalkGet base => (c.stalkvars.get base, c)
  | .stalkSet base state => ((), { c with stalkvars := c.stalkvars.set base state })
  | .stalkPop base => ((), { c with stalkvars := c.stalkvars.pop base })

section Methods

variable [Runtime] [Objects]

/-- The value of a name, or a `KeyError`. -/
def read (c : Contents) (self : Self) (name : Str) : Check Value := do
  let key ← keyOf name
  match c.entries key with
  | some entry => return entry.data
  | none => .error (missing self name)

/-- What `_validate` makes of a value. -/
def validate (c : Contents) (name : Str) (value : Value) : Check Unit :=
  match c.schemas.get name with
  | some schema => schema.validate value name
  | none => .ok ()

def prepare (c : Contents) (config : RuntimeConfig) (args : WriteArgs) : Check (Key × Entry) := do
  let entry ← makeEntry config (c.renew config).compressionPolicy args
  let key ← keyOf args.name
  return (key, entry)

end Methods

end Contents

namespace Directory

/-- What the index of a directory holds. -/
def contents (d : Directory) : Contents where
  entries := d.entries.get
  schemas := d.schemas
  compressionPolicy := d.compressionPolicy
  policyGeneration := d.policyGeneration
  lockvars := d.lockvars
  stalkvars := d.stalkvars

/-- The parts of a directory are in order, whatever the cache holds. -/
structure WellFormed (d : Directory) : Prop where
  index : d.entries.WellFormed
  registry : d.registry.WellFormed
  capacity : d.registry.slots ≠ []
  bloom : ∀ key entry, d.entries.get key = some entry → d.bloom.contains key = true

/-- The cached entry of the name, if there is one, is the entry of the index. -/
def AgreesAt (d : Directory) (key : Key) : Prop :=
  ∀ entry, d.registry.lookup key = some entry → d.entries.get key = some entry

/-- The cache shows nothing but what is indexed. -/
structure Coherent (d : Directory) : Prop extends d.WellFormed where
  cache : ∀ key, d.AgreesAt key

/-- A directory whose cache agrees with its index, as its contents. -/
def abstraction [Scores] : Abstraction Op Op.Answer Directory Contents where
  exec := exec
  inv := Coherent
  abs := contents
  execAbs := Contents.exec

end Directory

end FileSystem
