import Tds.FileSystem.Index
import Tds.FileSystem.Registry
import Tds.FileSystem.Value
import Tds.Process.Program

/-!
# One directory

The entries of a `TDSDirectory` are found through a Bloom filter, a bounded cache and the entry
index, which are updated in separate lock-protected sections. A method is a program whose operations
are these sections; code between them touches nothing that is shared. Timestamps, telemetry and error
counters are left out.
-/

namespace FileSystem

open Python Process

/-- `TDSEntry`. -/
structure Entry where
  name : Str
  fmtId : Nat
  data : Value
  codec : Str
  payloadKind : Str
  contentHash : Str
  rawSize : Nat
  storedSize : Nat

/-- The chain of values under a name. -/
structure StalkState where
  active : Bool
  latestIndex : Nat
  latestName : Str
  chainNames : List Str
deriving DecidableEq

/-- A `TDSDirectory` with its `VariableControl`. -/
structure Directory where
  name : Str
  path : Str
  entries : EntryIndex Entry
  bloom : BloomFilter
  registry : HybridRegistry Key Entry
  schemas : PyDict Str EntrySchema
  compressionPolicy : CompressionPolicy
  policyGeneration : Nat
  lockvars : PyDict Str Bool
  stalkvars : PyDict Str StalkState
  /-- What `time.monotonic()` is going to return. -/
  clock : Nat → Nat

def Directory.init (name path : Str) (config : RuntimeConfig) (clock : Nat → Nat) : Directory where
  name := name
  path := path
  entries := .init
  bloom := .init
  registry := .init 2048
  schemas := []
  compressionPolicy := config.policy
  policyGeneration := config.generation
  lockvars := []
  stalkvars := []
  clock := clock

/-- The sections of the methods that take a lock. -/
inductive Op where
  /-- `self._schemas.get(name)`. -/
  | schema (name : Str)
  /-- The policy, renewed when the active configuration is of another generation. -/
  | policy (config : RuntimeConfig)
  /-- `name in self._bloom`, without a lock. -/
  | bloomContains (key : Key)
  /-- `self._registry.get(name)`, under the lock of the registry. -/
  | cacheGet (key : Key)
  /-- `self._registry.put(name, entry)`, under the lock of the registry. -/
  | cachePut (key : Key) (entry : Entry)
  /-- `self._registry.remove(name)`, under the lock of the registry. -/
  | cacheRemove (key : Key)
  /-- `self._entries.get(name)`, under the lock of the directory. -/
  | indexGet (key : Key)
  /-- `self._entries.put(name, entry)` and `self._bloom.add(name)`, under the lock of the directory. -/
  | indexPut (key : Key) (entry : Entry)
  /-- `self._entries.pop(name, None)`, under the lock of the directory. -/
  | indexPop (key : Key)
  /-- `name in self._entries`. -/
  | indexContains (key : Key)
  /-- `self.lockvars.get(name, False)`. -/
  | lockGet (name : Str)
  /-- `self.lockvars[name] = locked`. -/
  | lockSet (name : Str) (locked : Bool)
  /-- `self.lockvars.pop(name, None)`. -/
  | lockPop (name : Str)
  /-- `self.stalkvars.get(base)`. -/
  | stalkGet (base : Str)
  /-- `self.stalkvars[base] = state`, and any update of the state that is stored there. -/
  | stalkSet (base : Str) (state : StalkState)
  /-- `self.stalkvars.pop(base, None)`. -/
  | stalkPop (base : Str)

abbrev Op.Answer : Op → Type
  | schema _ => Option EntrySchema
  | policy _ => CompressionPolicy
  | bloomContains _ => Bool
  | cacheGet _ => Option Entry
  | indexGet _ => Option Entry
  | indexContains _ => Bool
  | lockGet _ => Bool
  | stalkGet _ => Option StalkState
  | _ => Unit

namespace Directory

variable [Scores]

def exec (op : Op) (d : Directory) : op.Answer × Directory :=
  match op with
  | .schema name => (d.schemas.get name, d)
  | .policy config =>
    if config.generation = d.policyGeneration then (d.compressionPolicy, d)
    else (config.policy,
      { d with compressionPolicy := config.policy, policyGeneration := config.generation })
  | .bloomContains key => (d.bloom.contains key, d)
  | .cacheGet key =>
    let (cached, registry) := d.registry.get key (d.clock 0)
    (cached, { d with registry := registry, clock := fun i => d.clock (i + 1) })
  | .cachePut key entry =>
    ((), { d with
      registry := d.registry.put key entry (d.clock 0) (d.clock 1)
      clock := fun i => d.clock (i + 2) })
  | .cacheRemove key => ((), { d with registry := d.registry.remove key })
  | .indexGet key => (d.entries.get key, d)
  | .indexPut key entry =>
    ((), { d with entries := d.entries.put key entry, bloom := d.bloom.add key })
  | .indexPop key => ((), { d with entries := d.entries.pop key })
  | .indexContains key => (d.entries.contains key, d)
  | .lockGet name => ((d.lockvars.get name).getD false, d)
  | .lockSet name locked => ((), { d with lockvars := d.lockvars.set name locked })
  | .lockPop name => ((), { d with lockvars := d.lockvars.pop name })
  | .stalkGet base => (d.stalkvars.get base, d)
  | .stalkSet base state => ((), { d with stalkvars := d.stalkvars.set base state })
  | .stalkPop base => ((), { d with stalkvars := d.stalkvars.pop base })

end Directory

abbrev Method := Prog Op Op.Answer PyException

def ask (op : Op) : Method op.Answer := Prog.call op

/-- The name and the path of a directory, which never change. -/
structure Self where
  name : Str
  path : Str

/-- A name that can be encoded. -/
def keyOf (name : Str) : Check Key :=
  if h : name.all isScalar = true then .ok ⟨name, h⟩
  else raise .unicodeEncodeError (lit "surrogates not allowed")

/-! ## Writing, reading and deleting an entry -/

section Core

variable [Runtime] [Objects]

/-- `_serialize_payload` of a format without the compression flag. -/
def serializePayload (value : Value) (fmt : Nat) : Check Bytes := serialize value (baseFmt fmt)

/-- `_deserialize_payload` of a format without the compression flag, and what `_write_entry` makes of
a failure. -/
def freeze (raw : Bytes) (fmt : Nat) : Check Value :=
  match deserialize raw fmt with
  | .ok value => .ok value
  | .error _ => raise .valueError (lit "Payload could not be deserialized.")

/-- The arguments of `_write_entry`. -/
structure WriteArgs where
  name : Str
  value : Value
  fmtId : Nat := pickleObj
  compress : Option Bool := some false
  codec : Str := []

/-- The entry that `_write_entry` makes of its arguments. -/
def makeEntry (config : RuntimeConfig) (policy : CompressionPolicy) (args : WriteArgs) :
    Check Entry := do
  let rawFmt := baseFmt args.fmtId
  let codec := if args.codec = [] then config.compression else args.codec
  let raw ← serializePayload args.value rawFmt
  let doCompress := policy.shouldCompress raw.length args.compress
  let stored ← if doCompress then Objects.compress codec raw else pure raw
  let frozen ← freeze raw rawFmt
  return {
    name := args.name
    fmtId := if doCompress then rawFmt + compressed else rawFmt
    data := frozen
    codec := codec
    payloadKind := kindName rawFmt
    contentHash := (sha256 raw).hex
    rawSize := raw.length
    storedSize := stored.length }

/-- The schema of a name, if there is one. -/
def validate (name : Str) (value : Value) : Method Unit := do
  match ← ask (.schema name) with
  | some schema => schema.validate value name
  | none => pure ()

/-- Indexes a new entry, then caches it. -/
def writeEntry (config : RuntimeConfig) (args : WriteArgs) : Method Entry := do
  validate args.name args.value
  let policy ← ask (.policy config)
  let entry ← makeEntry config policy args
  let key ← keyOf args.name
  ask (.indexPut key entry)
  ask (.cachePut key entry)
  return entry

/-- `KeyError(f"No entry '{name}' in {self.name!r}")`. -/
def missing (self : Self) (name : Str) : PyException :=
  ⟨.keyError, lit "No entry '" ++ name ++ lit "' in " ++ Objects.reprOf (.str self.name)⟩

/-- Looks into the cache, then into the index. -/
def readValue (self : Self) (name : Str) : Method Value := do
  let key ← keyOf name
  if ← ask (.bloomContains key) then
    match ← ask (.cacheGet key) with
    | some cached => return cached.data
    | none =>
      match ← ask (.indexGet key) with
      | none => throw (missing self name)
      | some entry =>
        ask (.cachePut key entry)
        return entry.data
  else throw (missing self name)

/-- Removes an entry from the index, then from the cache. -/
def deleteEntry (name : Str) : Method Unit := do
  let key ← keyOf name
  ask (.indexPop key)
  ask (.cacheRemove key)

/-- `name in self._entries`. -/
def exists? (name : Str) : Method Bool := do
  let key ← keyOf name
  ask (.indexContains key)

end Core

end FileSystem
