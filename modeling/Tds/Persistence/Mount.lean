import Tds.Persistence.Reader
import Tds.Persistence.Writer

/-!
# Flushing and loading a directory

`flush_node` writes the entries of one directory, `load_node` makes a directory of them again. Its
entries are read from the file when they are first used.
-/

namespace Persistence

open Python FileSystem Storage

/-- An entry whose value is read when asked for. -/
structure LazyEntry where
  name : Str
  slotKey : Str
  fmtId : Nat
  payloadKind : Str
  contentHash : Str
  rawSize : Int
  storedSize : Int
  codec : Str

/-- A directory that was loaded. -/
structure LoadedNode where
  name : Str
  entries : EntryIndex LazyEntry
  bloom : BloomFilter
  reader : Reader

section Mount

variable [Objects]

/-- `flush_node`, for the directory with this name and path. -/
def flushNode (d : Directory) (parallel : Bool) (ts : Nat) : Writing Nat :=
  if parallel then writeParallel d.name d.entries.allValues d.path ts
  else write (.node d.name d.entries.allValues []) d.path false ts

/-- The names of the entries by their slots. -/
def slotToName (entryMeta : Items) : PyDict Str Str :=
  entryMeta.foldl (fun names item => match item.2 with
    | .dict fields =>
      match itemAt fields (lit "slot_key") with
      | some key => if key.truthy then names.set (pyStr key) (pyStr item.1) else names
      | none => names
    | _ => names) []

/-- `str(fields.get(key, ''))`. -/
def textAt (fields : Items) (key : String) : Str :=
  match itemAt fields (lit key) with
  | some value => pyStr value
  | none => []

/-- `int(fields.get(key, 0) or 0)`. -/
def numberAt (fields : Items) (key : String) : Check Int :=
  match itemAt fields (lit key) with
  | some value => if value.truthy then pyInt value else .ok 0
  | none => .ok 0

/-- The entry of a record; `entry_meta` is looked up under the short name. -/
def lazyEntry (entryMeta : Items) (record : SlotRecord) : Check LazyEntry :=
  let shortName := ((slotToName entryMeta).get record.name).getD (shortNameOf record.name)
  match itemAt entryMeta shortName with
  | some (.dict (field :: fields)) => do
    let em := field :: fields
    let rawSize ← numberAt em "raw_size"
    let storedSize ← numberAt em "stored_size"
    return ⟨shortName, record.name, record.fmtId, textAt em "payload_kind", textAt em "content_hash",
      rawSize, storedSize, textAt em "codec"⟩
  | some value =>
    if value.truthy then raise .attributeError (value.typeName ++ lit " object has no attribute 'get'")
    else return ⟨shortName, record.name, record.fmtId, [], [], 0, 0, []⟩
  | none => return ⟨shortName, record.name, record.fmtId, [], [], 0, 0, []⟩

/-- The loop of `load_node`. -/
def putRecords (entryMeta : Items) :
    List SlotRecord → EntryIndex LazyEntry × BloomFilter → Check (EntryIndex LazyEntry × BloomFilter)
  | [], node => return node
  | record :: records, (entries, bloom) => do
    let entry ← lazyEntry entryMeta record
    let key ← keyOf entry.name
    putRecords entryMeta records (entries.put key entry, bloom.add key)

/-- The sidecar, if it is an object. -/
def sidecarItems (sidecar : Option Bytes) : Items :=
  match sidecar with
  | some raw =>
    match Objects.jsonLoads raw with
    | .ok (.dict fields) => fields
    | _ => []
  | none => []

/-- `entry_meta`. A `fmt_id` that is no integer ends the reading of the sidecar before its entries. -/
def entryMeta (fields : Items) : Check Items :=
  if (itemAt fields (lit "fmt_id")).any (fun value => (asInt value).isNone) then return []
  else match entriesOf fields with
    | some items => return items
    | none => raise .attributeError (((itemAt fields (lit "entries")).map Value.typeName).getD [] ++
        lit " object has no attribute 'items'")

/-- `load_node` without a directory to load into. `stem` is the name that the file stands for; it is used
when the sidecar has none. The flags, the format, the id, the telemetry and the variables of the directory
are left out. -/
def loadNode (fileName stem : Str) (file : Bytes) (sidecar : Option Bytes) : Checked LoadedNode := do
  let reader ← openReader fileName file sidecar
  let fields := sidecarItems sidecar
  let name := match itemAt fields (lit "node_name") with
    | some value => pyStr value
    | none => stem
  let known ← plainly (entryMeta fields)
  let (entries, bloom) ← plainly (putRecords known reader.records (.init, .init))
  return ⟨name, entries, bloom, reader⟩

/-- `entry.data`, which `_LazyEntry` reads from the file. -/
def LoadedNode.data [Runtime] (node : LoadedNode) (entry : LazyEntry) : Checked Reading :=
  node.reader.read entry.slotKey (some entry.codec) (some entry.contentHash)

end Mount

/-! ## The names of files

`_node_path_to_filename` makes one file name of the components of a node's path. Components are joined
with two underscores; two underscores in a component are escaped. -/

/-- `text.replace(old, new)` after `skip` more characters of an occurrence. -/
def replaceFrom (old new : Str) : Nat → Str → Str
  | _, [] => []
  | skip + 1, _ :: text => replaceFrom old new skip text
  | 0, c :: text =>
    if old.isPrefixOf (c :: text) then new ++ replaceFrom old new (old.length - 1) text
    else c :: replaceFrom old new 0 text

/-- `text.replace(old, new)`. -/
def replace (text old new : Str) : Str := replaceFrom old new 0 text

def encodeComponent (component : Str) : Str :=
  replace (replace component (lit "%") (lit "%25")) (lit "__") (lit "%5F%5F")

/-- `node_path.strip('/')`. -/
def stripSlashes (path : Str) : Str := (path.dropWhile (· = 47)).rdropWhile (· = 47)

/-- `_node_path_to_filename`, without the directory of the mount. -/
def nodePathToFilename (nodePath : Str) : Str :=
  let parts := ((splitOn 47 (stripSlashes nodePath)).filter (· ≠ [])).map encodeComponent
  (lit "__").intercalate parts ++ lit ".tds"

/-- `path()` of the node with these names from the root on. -/
def nodePath (components : List Str) : Str := lit "/" ++ (lit "/").intercalate components

/-- One step of a path. -/
def IsComponent (component : Str) : Prop := component ≠ [] ∧ 47 ∉ component

/-- Between `c` and `d` only components of one underscore stand, and an underscore may be moved from the
end of `c` to the start of `d`, or back, with no change to the name of the file. -/
def Shifts (c d : Str) : Prop :=
  ((encodeComponent c).getLast? = some 95 ∧ d.head? ≠ some 95) ∨
    ((encodeComponent c).getLast? ≠ some 95 ∧ (encodeComponent d).head? = some 95)

/-- An underscore can be moved over some boundary. -/
def Ambiguous (components : List Str) : Prop :=
  ∃ left c, ∃ k : Nat, ∃ d right,
    components = left ++ c :: (List.replicate k (lit "_") ++ d :: right) ∧ c ≠ lit "_" ∧ d ≠ lit "_" ∧
      Shifts c d

end Persistence
