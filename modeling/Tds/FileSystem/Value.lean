import Tds.Python.Json
import Tds.Python.PyDict

/-!
# Python values and the Serialization Manager

The directory stores arbitrary Python values. `Value` opens them up as far as the source looks into
them; an object of any other type is a number, and what Python does with it is taken as given, as are
the codecs of JSON, NumPy and pickle.
-/

namespace FileSystem

open Python

inductive Value where
  | none
  | bool (b : Bool)
  | int (i : Int)
  | float (f : PyFloat)
  | str (s : Str)
  | bytes (b : Bytes)
  | list (items : List Value)
  | tuple (items : List Value)
  | dict (items : List (Value × Value))
  /-- An object of another type. -/
  | object (id : Nat)

/-- The classes of the exceptions that the source raises or lets through. -/
inductive ExceptionType where
  | keyError
  | valueError
  | typeError
  | attributeError
  | unicodeEncodeError
  | unicodeDecodeError
  | checksumAlgorithmError
  | recursionError
  /-- Any class that a codec may raise. -/
  | other (id : Nat)
deriving DecidableEq

structure PyException where
  type : ExceptionType
  message : Str
deriving DecidableEq

abbrev Check := Except PyException

/-- `raise type(message)`. -/
def raise {α : Type} (type : ExceptionType) (message : Str) : Check α := .error ⟨type, message⟩

/-- `if condition: raise type(message)`. -/
def raiseIf (condition : Prop) [Decidable condition] (type : ExceptionType) (message : Str) :
    Check Unit :=
  if condition then raise type message else .ok ()

/-! ## Formats -/

/-- The members of `FmtID` that the source names. -/
def rawBinary : Nat := 0
def numpyMatrix : Nat := 1
def pickleObj : Nat := 2
def textUtf8 : Nat := 3
def jsonUtf8 : Nat := 5
def compressed : Nat := 0x80

/-- `fmt_id & FmtID.COMPRESSED`. -/
def isCompressed (fmt : Nat) : Bool := fmt.testBit 7

/-- `fmt_id & ~FmtID.COMPRESSED`: the complement of the flag has the seven bits below it. -/
def baseFmt (fmt : Nat) : Nat := fmt % compressed

def kindName (fmt : Nat) : Str :=
  if fmt = rawBinary then lit "RAW_BINARY"
  else if fmt = numpyMatrix then lit "NUMPY_ARRAY"
  else if fmt = pickleObj then lit "PICKLE_OBJ"
  else if fmt = textUtf8 then lit "TEXT_UTF8"
  else if fmt = jsonUtf8 then lit "JSON_UTF8"
  else lit "UNKNOWN"

/-! ## What is taken as given -/

/-- What Python makes of values, and the codecs that are not text. -/
class Objects where
  /-- `type(value).__name__` of an object. -/
  typeName : Nat → Str
  /-- `bool(value)` of an object. -/
  truthy : Nat → Bool
  /-- Whether the literal of a finite float is that of zero. -/
  isZero : Str → Bool
  /-- `list(value)` of an object; `none` when it cannot be iterated. -/
  items : Nat → Option (List Value)
  /-- The `dtype` and the `shape` of an object that is an `np.ndarray`. -/
  array : Nat → Option (Str × List Nat)
  /-- The octets of an object that is a `bytearray` or a `memoryview`. -/
  buffer : Nat → Option Bytes
  /-- `str(value)`. -/
  strOf : Value → Str
  /-- `int(value)`. -/
  intOf : Value → Check Int
  /-- `repr(value)`. -/
  reprOf : Value → Str
  /-- `previous + new_data` for two numbers. -/
  addNumbers : Value → Value → Check Value
  /-- Whether two values are the same key of a `dict`. -/
  sameKey : Value → Value → Bool
  /-- `complex`, the numbers that are neither `int` nor `float`. -/
  isComplex : Nat → Bool
  /-- `json_dumps_fast`, without the name of the backend. -/
  jsonDumps : Value → Check Bytes
  /-- `json_loads_fast`, without the name of the backend. -/
  jsonLoads : Bytes → Check Value
  /-- `np.save` into a buffer. -/
  numpyDumps : Value → Check Bytes
  /-- `np.load` from a buffer. -/
  numpyLoads : Bytes → Check Value
  /-- `dumps_pickle`. -/
  pickleDumps : Value → Check Bytes
  /-- `loads_pickle`. -/
  pickleLoads : Bytes → Check Value
  /-- `CompressorRegistry.compress(data, codec)`. -/
  compress : Str → Bytes → Check Bytes
  /-- `CompressorRegistry.decompress(data, codec)`. -/
  decompress : Str → Bytes → Check Bytes

namespace Value

/-- A `dict` with string keys. -/
def record (fields : List (Str × Value)) : Value := dict (fields.map fun f => (str f.1, f.2))

variable [Objects]

/-- `type(value).__name__`. -/
def typeName : Value → Str
  | none => lit "NoneType"
  | bool _ => lit "bool"
  | int _ => lit "int"
  | float _ => lit "float"
  | str _ => lit "str"
  | bytes _ => lit "bytes"
  | list _ => lit "list"
  | tuple _ => lit "tuple"
  | dict _ => lit "dict"
  | object id => Objects.typeName id

/-- `bool(value)`. -/
def truthy : Value → Bool
  | none => false
  | bool b => b
  | int i => i ≠ 0
  | float (.finite literal) => !Objects.isZero literal
  | float _ => true
  | str s => !s.isEmpty
  | bytes b => !b.isEmpty
  | list items => !items.isEmpty
  | tuple items => !items.isEmpty
  | dict items => !items.isEmpty
  | object id => Objects.truthy id

/-- `list(value)`. -/
def items (value : Value) : Check (List Value) :=
  match value with
  | list items => .ok items
  | tuple items => .ok items
  | str s => .ok (s.map fun c => str [c])
  | bytes b => .ok (b.map fun octet => int octet.toNat)
  | dict items => .ok (items.map Prod.fst)
  | object id =>
    match Objects.items id with
    | some items => .ok items
    | .none => raise .typeError (Objects.typeName id ++ lit " object is not iterable")
  | value => raise .typeError (value.typeName ++ lit " object is not iterable")

/-- `value.get(key)` of a `dict`, for a string key. -/
def getItem (items : List (Value × Value)) (key : String) : Option Value :=
  match items with
  | [] => .none
  | (str k, v) :: rest => if k = lit key then some v else getItem rest key
  | _ :: rest => getItem rest key

end Value

section Codecs

variable [Objects]

def dumpsText (value : Value) : Check Bytes :=
  match value with
  | .str s =>
    match encodeUtf8 s with
    | some raw => .ok raw
    | none => raise .unicodeEncodeError (lit "surrogates not allowed")
  | value => raise .typeError (lit "TEXT_UTF8 entries require str, got " ++ value.typeName)

def loadsText (raw : Bytes) : Check Value :=
  match decodeUtf8 raw with
  | some s => .ok (.str s)
  | none => raise .unicodeDecodeError (lit "invalid UTF-8")

def dumpsRawBinary (value : Value) : Check Bytes :=
  let refuse := raise .typeError (lit "RAW_BINARY entries require bytes-like data, got " ++
    value.typeName)
  match value with
  | .bytes b => .ok b
  | .object id => match Objects.buffer id with
    | some b => .ok b
    | none => refuse
  | _ => refuse

/-- `SerializationManager.serialize(value, fmt_id).raw` with the default registry; a format that no
codec is registered for goes to the restricted pickle codec. -/
def serialize (value : Value) (fmt : Nat) : Check Bytes :=
  if fmt = rawBinary then dumpsRawBinary value
  else if fmt = numpyMatrix then Objects.numpyDumps value
  else if fmt = textUtf8 then dumpsText value
  else if fmt = jsonUtf8 then Objects.jsonDumps value
  else Objects.pickleDumps value

/-- The value in the octets, by their format. -/
def deserialize (raw : Bytes) (fmt : Nat) : Check Value :=
  if fmt = rawBinary then .ok (.bytes raw)
  else if fmt = numpyMatrix then Objects.numpyLoads raw
  else if fmt = textUtf8 then loadsText raw
  else if fmt = jsonUtf8 then Objects.jsonLoads raw
  else Objects.pickleLoads raw

mutual

/-- `is_json_safe_value`. -/
def isJsonSafe : Value → Bool
  | .none => true
  | .bool _ => true
  | .int _ => true
  | .float _ => true
  | .str _ => true
  | .list items => itemsJsonSafe items
  | .dict items => fieldsJsonSafe items
  | _ => false

def itemsJsonSafe : List Value → Bool
  | [] => true
  | v :: vs => isJsonSafe v && itemsJsonSafe vs

/-- All items of a `dict`, with string keys. -/
def fieldsJsonSafe : List (Value × Value) → Bool
  | [] => true
  | (k, v) :: rest => (match k with | .str _ => true | _ => false) && isJsonSafe v &&
      fieldsJsonSafe rest

end

/-- `choose_fmt_id`: the first codec of the default registry that can handle the value. -/
def chooseFmtId (value : Value) : Nat :=
  match value with
  | .bytes _ => rawBinary
  | .str _ => textUtf8
  | .object id =>
    if (Objects.buffer id).isSome then rawBinary
    else if (Objects.array id).isSome then numpyMatrix
    else pickleObj
  | value => if isJsonSafe value then jsonUtf8 else pickleObj

end Codecs

/-! ## Schemas -/

/-- A class that a schema names, by the values that are its instances: `has` looks at the type of
the value only. -/
structure PyType where
  name : Str
  has : Str → Bool

structure EntrySchema where
  dtype : Option Str
  shape : Option (List Nat)
  pythonType : Option PyType

/-- `str(shape)`. -/
def printShape (shape : List Nat) : Str :=
  match shape with
  | [] => lit "()"
  | [n] => lit "(" ++ printNat n ++ lit ",)"
  | n :: rest => lit "(" ++ printNat n ++ rest.flatMap (fun k => lit ", " ++ printNat k) ++ lit ")"

def EntrySchema.validate [Objects] (schema : EntrySchema) (value : Value) (name : Str) :
    Check Unit := do
  let violation := lit "Schema violation for '" ++ name ++ lit "': "
  match schema.pythonType with
  | some type =>
    if type.has value.typeName = false then
      raise .typeError (violation ++ lit "expected " ++ type.name ++ lit ", got " ++ value.typeName)
  | none => pure ()
  match schema.dtype with
  | none => pure ()
  | some dtype =>
    let refuse := raise .typeError (violation ++ lit "expected ndarray, got " ++ value.typeName)
    match value with
    | .object id =>
      match Objects.array id with
      | none => refuse
      | some (found, shape) =>
        if found ≠ dtype then
          raise .typeError (violation ++ lit "dtype mismatch — expected " ++ dtype ++ lit ", got " ++
            found)
        match schema.shape with
        | some expected =>
          if shape ≠ expected then
            raise .valueError (violation ++ lit "shape mismatch — expected " ++ printShape expected ++
              lit ", got " ++ printShape shape)
        | none => pure ()
    | _ => refuse

/-! ## Compression -/

/-- The fields of `RuntimeConfig` that a write reads. -/
structure RuntimeConfig where
  compression : Str
  compressionEnabled : Bool
  compressionThresholdBytes : Nat
  generation : Nat

/-- Which payloads are compressed. -/
structure CompressionPolicy where
  enabled : Bool
  codec : Str
  thresholdBytes : Nat

def RuntimeConfig.policy (config : RuntimeConfig) : CompressionPolicy :=
  ⟨config.compressionEnabled, config.compression, config.compressionThresholdBytes⟩

def CompressionPolicy.shouldCompress (policy : CompressionPolicy) (rawLen : Nat)
    (force : Option Bool) : Bool :=
  match force with
  | some b => b
  | none => policy.enabled && policy.thresholdBytes ≤ rawLen

end FileSystem
