import Tds.Python.Text

/-!
# The `json` module

`Json` is what `json.loads` returns. `Json.print` is `json.dumps` with sorted keys, no blanks and
`ensure_ascii`; `loads` is the reader of the standard library with its default arguments.
-/

namespace Python

/-- What is taken from the interpreter as given. -/
class Runtime where
  /-- `hashlib.sha256(data).digest()`. -/
  sha256 : Bytes → Digest
  /-- `repr(float(literal))` for the literal of a finite float. -/
  floatRepr : Str → Str
  /-- How deep `json.loads` may nest containers before it raises `RecursionError`. -/
  recursionLimit : Nat
  /-- The limit leaves room for the documents of a few levels that programs exchange. -/
  le_recursionLimit : 16 ≤ recursionLimit

export Runtime (sha256 floatRepr recursionLimit)

theorem sixteen_le : 16 ≤ 1000 := by decide

/-- A Python `float`, as far as `json` tells floats apart. -/
inductive PyFloat where
  | finite (literal : Str)
  | nan
  | infinity
  | negInfinity
deriving DecidableEq

/-- A value that `json.loads` returns. An object keeps its keys in insertion order. -/
inductive Json where
  | null
  | bool (b : Bool)
  | int (i : Int)
  | float (f : PyFloat)
  | str (s : Str)
  | arr (items : List Json)
  | obj (fields : List (Str × Json))

/-! ## Writing -/

/-- The escape `\uXXXX` of a UTF-16 code unit. -/
def escapeUnit (n : Nat) : Str :=
  [92, 117, hexDigit (n / 4096 % 16), hexDigit (n / 256 % 16), hexDigit (n / 16 % 16),
    hexDigit (n % 16)]

/-- One code point inside a string literal, under `ensure_ascii`. -/
def escapeChar (c : Nat) : Str :=
  if c = 34 then [92, 34]
  else if c = 92 then [92, 92]
  else if c = 10 then [92, 110]
  else if c = 13 then [92, 114]
  else if c = 9 then [92, 116]
  else if c = 12 then [92, 102]
  else if c = 8 then [92, 98]
  else if 32 ≤ c && c ≤ 126 then [c]
  else if c < 0x10000 then escapeUnit c
  else escapeUnit (0xD800 + (c - 0x10000) / 1024) ++ escapeUnit (0xDC00 + (c - 0x10000) % 1024)

def quote (s : Str) : Str := 34 :: s.flatMap escapeChar ++ [34]

def printNat (n : Nat) : Str :=
  if n = 0 then [48] else (Nat.digits 10 n).reverse.map (48 + ·)

/-- `repr` of an `int`. -/
def printInt : Int → Str
  | .ofNat n => printNat n
  | .negSucc n => 45 :: printNat (n + 1)

def joinComma : List Str → Str
  | [] => []
  | [x] => x
  | x :: y :: xs => x ++ 44 :: joinComma (y :: xs)

/-- The items of a `dict` in the order of their keys. -/
def sortByKey {α : Type} (fields : List (Str × α)) : List (Str × α) :=
  fields.insertionSort fun a b => a.1 ≤ b.1

def printField (field : Str × Str) : Str := quote field.1 ++ 58 :: field.2

section Print

variable [Runtime]

/-- `repr` of a `float`. -/
def printFloat : PyFloat → Str
  | .finite literal => floatRepr literal
  | .nan => lit "NaN"
  | .infinity => lit "Infinity"
  | .negInfinity => lit "-Infinity"

mutual

/-- `json.dumps(value, sort_keys=True, separators=(",", ":"), ensure_ascii=True)`. -/
def Json.print : Json → Str
  | .null => lit "null"
  | .bool true => lit "true"
  | .bool false => lit "false"
  | .int i => printInt i
  | .float f => printFloat f
  | .str s => quote s
  | .arr items => 91 :: joinComma (printItems items) ++ [93]
  | .obj fields => 123 :: joinComma ((sortByKey (printFields fields)).map printField) ++ [125]

def printItems : List Json → List Str
  | [] => []
  | v :: vs => v.print :: printItems vs

def printFields : List (Str × Json) → List (Str × Str)
  | [] => []
  | (k, v) :: fields => (k, v.print) :: printFields fields

end

end Print

mutual

/-- No float of the value is `NaN` or infinite, which `allow_nan=False` refuses to write. -/
def Json.isFinite : Json → Bool
  | .float (.finite _) => true
  | .float _ => false
  | .arr items => itemsFinite items
  | .obj fields => fieldsFinite fields
  | _ => true

def itemsFinite : List Json → Bool
  | [] => true
  | v :: vs => v.isFinite && itemsFinite vs

def fieldsFinite : List (Str × Json) → Bool
  | [] => true
  | (_, v) :: fields => v.isFinite && fieldsFinite fields

end

/-! ## Reading -/

/-- Why `json.loads` fails. -/
inductive LoadsError where
  /-- `JSONDecodeError`: the text is not JSON. -/
  | decode
  /-- `ValueError`: an integer literal has more digits than `int` converts. -/
  | digits
  /-- `RecursionError`: containers are nested too deeply. -/
  | recursion
deriving DecidableEq

/-- The state of the reader after a value: the value and the text that is left. -/
abbrev Parse (α : Type) := Except LoadsError (α × Str)

def isBlank (c : Nat) : Bool := c == 32 || c == 9 || c == 10 || c == 13

def skipBlanks : Str → Str
  | [] => []
  | c :: t => if isBlank c then skipBlanks t else c :: t

def hex4 (a b c d : Nat) : Option Nat := do
  let a ← hexVal a
  let b ← hexVal b
  let c ← hexVal c
  let d ← hexVal d
  return ((a * 16 + b) * 16 + c) * 16 + d

def simpleEscape (c : Nat) : Option Nat :=
  if c = 34 then some 34
  else if c = 92 then some 92
  else if c = 47 then some 47
  else if c = 98 then some 8
  else if c = 102 then some 12
  else if c = 110 then some 10
  else if c = 114 then some 13
  else if c = 116 then some 9
  else none

/-- The body of a string literal up to its closing quote, every `\uXXXX` escape read as one unit. -/
def parseUnits : Str → Parse Str
  | [] => .error .decode
  | c :: t =>
    if c = 34 then .ok ([], t)
    else if c = 92 then
      match t with
      | [] => .error .decode
      | e :: t1 =>
        if e = 117 then
          match t1 with
          | a :: b :: c :: d :: t2 =>
            match hex4 a b c d with
            | some u => (parseUnits t2).map fun (units, rest) => (u :: units, rest)
            | none => .error .decode
          | _ => .error .decode
        else match simpleEscape e with
          | some u => (parseUnits t1).map fun (units, rest) => (u :: units, rest)
          | none => .error .decode
    else if c < 32 then .error .decode
    else (parseUnits t).map fun (units, rest) => (c :: units, rest)

/-- Surrogate pairs become the code points they stand for; a lone surrogate is kept. -/
def joinSurrogates : Str → Str
  | [] => []
  | [u] => [u]
  | u :: v :: t =>
    if 0xD800 ≤ u && u ≤ 0xDBFF && 0xDC00 ≤ v && v ≤ 0xDFFF then
      (0x10000 + (u - 0xD800) * 1024 + (v - 0xDC00)) :: joinSurrogates t
    else u :: joinSurrogates (v :: t)

def parseString (s : Str) : Parse Str :=
  (parseUnits s).map fun (units, rest) => (joinSurrogates units, rest)

def spanDigits : Str → Str × Str
  | [] => ([], [])
  | c :: t => if isDigit c then let (ds, rest) := spanDigits t; (c :: ds, rest) else ([], c :: t)

def digitsVal (ds : Str) : Nat := ds.foldl (fun n c => 10 * n + (c - 48)) 0

/-- The digits of an integer part: a zero, or digits that do not start with one. -/
def parseIntPart : Str → Parse Str
  | [] => .error .decode
  | c :: t =>
    if c = 48 then .ok ([48], t)
    else if isDigit c then let (ds, rest) := spanDigits t; .ok (c :: ds, rest)
    else .error .decode

/-- The fraction `.ddd`, empty when there is none. -/
def parseFraction : Str → Str × Str
  | 46 :: t =>
    match spanDigits t with
    | ([], _) => ([], 46 :: t)
    | (ds, rest) => (46 :: ds, rest)
  | s => ([], s)

/-- The exponent `e+ddd`, empty when there is none. -/
def parseExponent : Str → Str × Str
  | [] => ([], [])
  | e :: t =>
    if e = 101 || e = 69 then
      let (sign, t1) := match t with
        | 43 :: t1 => ([43], t1)
        | 45 :: t1 => ([45], t1)
        | t1 => ([], t1)
      match spanDigits t1 with
      | ([], _) => ([], e :: t)
      | (ds, rest) => (e :: sign ++ ds, rest)
    else ([], e :: t)

/-- `sys.get_int_max_str_digits()`. -/
def intMaxStrDigits : Nat := 4300

/-- The value of an exponent with its `e` and its sign. -/
def exponentVal : Str → Int
  | _ :: 45 :: ds => -(digitsVal ds : Int)
  | _ :: 43 :: ds => digitsVal ds
  | _ :: ds => digitsVal ds
  | [] => 0

/-- Halfway from the largest `float` to `2 ^ 1024`. -/
def floatLimit : Nat := (2 ^ 54 - 1) * 2 ^ 970

/-- `float` of a literal, given its digits, its fraction and its exponent, is infinite. No power of ten
above the limit or beyond the digits of the literal needs to be computed. -/
def floatOverflows (ds fraction exponent : Str) : Bool :=
  let digits := ds ++ fraction.tail
  let scale := exponentVal exponent - fraction.tail.length
  if 0 ≤ scale then floatLimit ≤ digitsVal digits * 10 ^ min scale.toNat 310
  else floatLimit * 10 ^ min (-scale).toNat digits.length ≤ digitsVal digits

/-- `float(literal)` for the literal of a number with a fraction or an exponent. -/
def floatOf (negative : Bool) (ds fraction exponent : Str) : PyFloat :=
  if floatOverflows ds fraction exponent then if negative then .negInfinity else .infinity
  else .finite ((if negative then [45] else []) ++ ds ++ fraction ++ exponent)

def parseUnsigned (negative : Bool) (s : Str) : Except LoadsError (Json × Str) := do
  let (ds, rest) ← parseIntPart s
  let (fraction, rest) := parseFraction rest
  let (exponent, rest) := parseExponent rest
  if fraction.isEmpty && exponent.isEmpty then
    if intMaxStrDigits < ds.length then throw .digits
    return (.int (if negative then -(digitsVal ds : Int) else digitsVal ds), rest)
  else
    return (.float (floatOf negative ds fraction exponent), rest)

def stripWord : Str → Str → Option Str
  | [], s => some s
  | _ :: _, [] => none
  | w :: ws, c :: t => if w = c then stripWord ws t else none

def parseScalar (s : Str) : Parse Json :=
  match stripWord (lit "null") s with
  | some rest => .ok (.null, rest)
  | none =>
  match stripWord (lit "true") s with
  | some rest => .ok (.bool true, rest)
  | none =>
  match stripWord (lit "false") s with
  | some rest => .ok (.bool false, rest)
  | none =>
  match stripWord (lit "NaN") s with
  | some rest => .ok (.float .nan, rest)
  | none =>
  match stripWord (lit "Infinity") s with
  | some rest => .ok (.float .infinity, rest)
  | none =>
  match stripWord (lit "-Infinity") s with
  | some rest => .ok (.float .negInfinity, rest)
  | none =>
  match s with
  | 45 :: t => parseUnsigned true t
  | _ => parseUnsigned false s

/-- The items of an array from its first item on. Every item consumes text, so the length of the
text is enough `fuel`. -/
def parseItems (value : Str → Parse Json) : Nat → Str → Except LoadsError (List Json × Str)
  | 0, _ => .error .decode
  | fuel + 1, s => do
    let (v, rest) ← value s
    match skipBlanks rest with
    | 44 :: t =>
      let (vs, rest) ← parseItems value fuel (skipBlanks t)
      return (v :: vs, rest)
    | 93 :: t => return ([v], t)
    | _ => throw .decode

/-- The fields of an object, from after the opening quote of the first key on. -/
def parseFields (value : Str → Parse Json) :
    Nat → Str → Except LoadsError (List (Str × Json) × Str)
  | 0, _ => .error .decode
  | fuel + 1, s => do
    let (k, rest) ← parseString s
    match skipBlanks rest with
    | 58 :: t =>
      let (v, rest) ← value (skipBlanks t)
      match skipBlanks rest with
      | 44 :: t =>
        match skipBlanks t with
        | 34 :: t =>
          let (fields, rest) ← parseFields value fuel t
          return ((k, v) :: fields, rest)
        | _ => throw .decode
      | 125 :: t => return ([(k, v)], t)
      | _ => throw .decode
    | _ => throw .decode

/-- `d[k] = v`: a key that is present keeps its place. -/
def dictSet {α : Type} : List (Str × α) → Str → α → List (Str × α)
  | [], k, v => [(k, v)]
  | (k', v') :: fields, k, v =>
    if k' = k then (k, v) :: fields else (k', v') :: dictSet fields k v

/-- The `dict` of the fields read: of equal keys the last one counts. -/
def dictOf {α : Type} (fields : List (Str × α)) : List (Str × α) :=
  fields.foldl (fun d kv => dictSet d kv.1 kv.2) []

def parseArray (value : Str → Parse Json) (t : Str) : Parse Json :=
  match skipBlanks t with
  | 93 :: rest => .ok (.arr [], rest)
  | s => (parseItems value (s.length + 1) s).map fun (vs, rest) => (.arr vs, rest)

def parseObject (value : Str → Parse Json) (t : Str) : Parse Json :=
  match skipBlanks t with
  | 125 :: rest => .ok (.obj [], rest)
  | 34 :: s => (parseFields value (s.length + 1) s).map fun (kvs, rest) => (.obj (dictOf kvs), rest)
  | _ => .error .decode

/-- A value, `inner` being the reader for the values inside a container; it is absent where the
nesting limit is reached. -/
def parseWith (inner : Option (Str → Parse Json)) : Str → Parse Json
  | 34 :: t => (parseString t).map fun (s, rest) => (.str s, rest)
  | 123 :: t => match inner with
    | some value => parseObject value t
    | none => .error .recursion
  | 91 :: t => match inner with
    | some value => parseArray value t
    | none => .error .recursion
  | s => parseScalar s

/-- A value whose containers are nested at most `depth` deep. -/
def parseValue : Nat → Str → Parse Json
  | 0 => parseWith none
  | depth + 1 => parseWith (some (parseValue depth))

/-- `json.loads(text)`. -/
def loads [Runtime] (text : Str) : Except LoadsError Json := do
  if text.head? = some 0xFEFF then throw .decode
  let (v, rest) ← parseValue recursionLimit (skipBlanks text)
  if (skipBlanks rest).isEmpty then return v else throw .decode

/-! ## Reading without constants -/

/-- The text starts with a constant that is not JSON: `NaN`, `Infinity` or `-Infinity`. -/
def startsConstant (s : Str) : Bool :=
  (stripWord (lit "NaN") s).isSome || (stripWord (lit "Infinity") s).isSome ||
    (stripWord (lit "-Infinity") s).isSome

/-- `parseValue` under a `parse_constant` that raises a `ValueError`. A `JSONDecodeError` is one too, and
the two are not told apart. -/
def parseFiniteValue : Nat → Str → Parse Json
  | 0, s => if startsConstant s then .error .decode else parseWith none s
  | depth + 1, s =>
    if startsConstant s then .error .decode else parseWith (some (parseFiniteValue depth)) s

/-- `json.loads(text, parse_constant=...)` for a function that raises a `ValueError`. -/
def loadsFinite [Runtime] (text : Str) : Except LoadsError Json := do
  if text.head? = some 0xFEFF then throw .decode
  let (v, rest) ← parseFiniteValue recursionLimit (skipBlanks text)
  if (skipBlanks rest).isEmpty then return v else throw .decode

/-- `value.get(key)` for a `dict`. -/
def dictGet {α : Type} : List (Str × α) → Str → Option α
  | [], _ => none
  | (k', v) :: fields, k => if k' = k then some v else dictGet fields k

end Python
