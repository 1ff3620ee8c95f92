import Tds.FileSystem.Contents
import Tds.FileSystem.Text

/-!
# Which entries a chunked text depends on

A text is read from the entry of its name and, if that is a manifest, from the chunks that it lists.
A chunked write stores chunks and a manifest, and deletes the chunks of the manifest that it replaces.
-/

namespace FileSystem

open Python Process

/-- The chunks that are deleted when their manifest is replaced: those before the first that is not a
name. -/
def deletable : List Value → List Key
  | .str name :: chunks =>
    match keyOf name with
    | .ok key => key :: deletable chunks
    | .error _ => []
  | _ => []

namespace Contents

def value (c : Contents) (key : Key) : Option Value := (c.entries key).map Entry.data

variable [Objects]

/-- A text passes the schema of the name. -/
def AcceptsText (c : Contents) (name : Str) : Prop := c.validate name (.str []) = .ok ()

/-- The schema of a name, if there is one, lets a `dict` pass. -/
def AcceptsDict (c : Contents) (name : Str) : Prop := c.validate name (.dict []) = .ok ()

/-- The key has a manifest of these chunks. -/
def Lists (c : Contents) (key : Key) (chunks : List Value) : Prop :=
  ∃ items, c.value key = some (.dict items) ∧ isChunkManifest items = true ∧
    listedChunks items = .ok chunks

/-- `read_text(a)` reads the entry under `n`. -/
def Reads (c : Contents) (a n : Key) : Prop :=
  n = a ∨ ∃ chunks, c.Lists a chunks ∧ Value.str n.val ∈ chunks

/-- `write_text_chunked(b)` can store an entry under `n`, or delete it. -/
inductive Touches (c : Contents) (b n : Key) : Prop
  /-- It is the name of a chunk, and all chunks up to this one can be stored. -/
  | chunk (i : Nat) (name : n.val = chunkName b i)
      (accepts : ∀ j ≤ i, c.AcceptsText (chunkName b j))
  /-- It is the name of the manifest, which comes after the first chunk. -/
  | manifest (name : n = b) (text : c.AcceptsText (chunkName b 0)) (dict : c.AcceptsDict b.val)
  /-- It is a chunk of the text that is there already. -/
  | prior (chunks : List Value) (lists : c.Lists b chunks) (mem : n ∈ deletable chunks)

/-- `read_text(a)` reads no entry that `write_text_chunked(b)` can touch. A name that has no UTF-8
encoding is not the name of an entry, and neither of the two gets past it. -/
def Apart (c : Contents) (a b : Str) : Prop :=
  ∀ key key' n : Key, key.val = a → key'.val = b → c.Reads key n → ¬ c.Touches key' n

/-- The values of the chunks in their order. -/
def readParts (c : Contents) (self : Self) : List Value → Check (List Value)
  | [] => .ok []
  | chunk :: chunks => do
    let name ← nameOf chunk
    let part ← c.read self name
    let parts ← c.readParts self chunks
    return part :: parts

/-- The text that `read_text` makes of a value. -/
def textOf [Runtime] (c : Contents) (self : Self) (name : Str) : Value → Check Str
  | .dict items =>
    if isChunkManifest items then do
      let chunks ← listedChunks items
      let parts ← c.readParts self chunks
      assemble name items parts
    else .error (notText name)
  | .str s => .ok s
  | _ => .error (notText name)

/-- What `read_text` returns. -/
def readText [Runtime] (c : Contents) (self : Self) (name : Str) : Check Str := do
  let value ← c.read self name
  c.textOf self name value

end Contents

end FileSystem
