import Tds.Python.Text
import Tds.Python.PyDict

/-!
# The entry index and its Bloom filter

`PythonEntryIndexBackend` spreads the names over shards and keeps the entries behind handles.
`BloomFilter` answers for certain that a name was never added.
-/

namespace FileSystem

open Python

/-- A name that has a UTF-8 encoding. Any other one raises a `UnicodeEncodeError` wherever a name is
hashed. -/
abbrev Key := { name : Str // name.all isScalar = true }

/-- `name.encode("utf-8")`. -/
def Key.bytes (key : Key) : Bytes := key.val.flatMap encodeUtf8Char

/-! ## The index -/

/-- `PythonEntryIndexBackend` over the type of the entries. -/
structure EntryIndex (α : Type) where
  /-- `_maps`: the handles of the names of each shard. -/
  maps : List (PyDict Key Nat)
  /-- `_values`: the entries behind the handles. -/
  values : PyDict Nat α
  nextHandle : Nat
  size : Nat

namespace EntryIndex

variable {α : Type}

/-- `EntryIndex(shards=64)`. -/
def init : EntryIndex α := ⟨List.replicate 64 [], [], 1, 0⟩

/-- `_shard_id`; the number of shards is a power of two, so that the mask is a remainder. -/
def shardId (index : EntryIndex α) (key : Key) : Nat := adler32 key.bytes % index.maps.length

def shard (index : EntryIndex α) (key : Key) : PyDict Key Nat :=
  (index.maps[index.shardId key]?).getD []

def setShard (index : EntryIndex α) (key : Key) (map : PyDict Key Nat) : EntryIndex α :=
  { index with maps := index.maps.set (index.shardId key) map }

/-- A new key gets a new handle. -/
def put (index : EntryIndex α) (key : Key) (entry : α) : EntryIndex α :=
  match (index.shard key).get key with
  | some handle => { index with values := index.values.set handle entry }
  | none =>
    { index.setShard key ((index.shard key).set key index.nextHandle) with
      values := index.values.set index.nextHandle entry
      nextHandle := index.nextHandle + 1
      size := index.size + 1 }

def get (index : EntryIndex α) (key : Key) : Option α :=
  match (index.shard key).get key with
  | some handle => index.values.get handle
  | none => none

def contains (index : EntryIndex α) (key : Key) : Bool := ((index.shard key).get key).isSome

/-- The handle of a removed key is not used again. -/
def pop (index : EntryIndex α) (key : Key) : EntryIndex α :=
  match (index.shard key).get key with
  | some handle =>
    { index.setShard key ((index.shard key).pop key) with
      values := index.values.pop handle
      size := index.size - 1 }
  | none => index

/-- `keys()`: shard by shard. -/
def keys (index : EntryIndex α) : List Key := index.maps.flatMap PyDict.keys

/-- `values()`: the entries of the handles of all shards. -/
def allValues (index : EntryIndex α) : List α :=
  (index.maps.flatMap fun map => map.map Prod.snd).filterMap index.values.get

end EntryIndex

/-! ## The Bloom filter -/

/-- `BloomFilter`: `k` bits for each name in a table of `m` bits. -/
structure BloomFilter where
  m : Nat
  k : Nat
  /-- `_bits`: the octets of the table. -/
  bits : Nat → Nat

namespace BloomFilter

/-- `BloomFilter(capacity=8192)`: `m` and `k` follow from the capacity and an error rate of 0.01. -/
def init : BloomFilter := ⟨78520, 6, fun _ => 0⟩

/-- The place of the `i`-th bit of a name, in the arithmetic of `np.uint64`. -/
def place (filter : BloomFilter) (key : Key) (i : Nat) : Nat :=
  (adler32 key.bytes + i * (crc32 key.bytes).toNat) % 2 ^ 64 % filter.m

/-- `bits[bit >> 3] |= 1 << (bit & 7)`. -/
def setBit (bits : Nat → Nat) (bit : Nat) : Nat → Nat :=
  Function.update bits (bit / 8) (bits (bit / 8) ||| 2 ^ (bit % 8))

/-- `(bits[bit >> 3] >> (bit & 7)) & 1`. -/
def getBit (bits : Nat → Nat) (bit : Nat) : Bool := (bits (bit / 8)).testBit (bit % 8)

/-- `add`, by `_bloom_bits_add`. -/
def add (filter : BloomFilter) (key : Key) : BloomFilter :=
  let bits := (List.range filter.k).foldl (fun bits i => setBit bits (filter.place key i)) filter.bits
  { filter with bits := bits }

/-- `key in filter`, by `_bloom_bits_query`. -/
def contains (filter : BloomFilter) (key : Key) : Bool :=
  (List.range filter.k).all fun i => getBit filter.bits (filter.place key i)

end BloomFilter

end FileSystem
