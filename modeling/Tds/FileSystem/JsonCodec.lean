import Tds.FileSystem.Directory
import Tds.Python.Proofs.Json
import Tds.Python.Proofs.Sha256
import Tds.Python.Raise

/-!
# Values as JSON

The JSON codec of the standard library on values, in ASCII. `Objects` takes the codec as given; this
is one that it can be.
-/

namespace FileSystem

open Python

mutual

/-- What `json.dumps` makes of a value. A key that is not a string is refused, as is a number with
more digits than `int` converts. -/
def Value.toJson : Value → Check Json
  | .none => .ok .null
  | .bool b => .ok (.bool b)
  | .int i =>
    if (printNat i.natAbs).length ≤ intMaxStrDigits then .ok (.int i)
    else raise .valueError (lit "Exceeds the limit for integer string conversion")
  | .float f => .ok (.float f)
  | .str s => .ok (.str s)
  | .list items => return .arr (← itemsToJson items)
  | .tuple items => return .arr (← itemsToJson items)
  | .dict items => return .obj (← fieldsToJson items)
  | _ => raise .typeError (lit "Object is not JSON serializable")

def itemsToJson : List Value → Check (List Json)
  | [] => return []
  | value :: values => return (← value.toJson) :: (← itemsToJson values)

def fieldsToJson : List (Value × Value) → Check (List (Str × Json))
  | [] => return []
  | (.str key, value) :: fields => return (key, ← value.toJson) :: (← fieldsToJson fields)
  | (_, _) :: _ => raise .typeError (lit "keys must be str")

end

mutual

/-- What `json.loads` returns. -/
def Value.ofJson : Json → Value
  | .null => .none
  | .bool b => .bool b
  | .int i => .int i
  | .float f => .float f
  | .str s => .str s
  | .arr items => .list (itemsOfJson items)
  | .obj fields => .dict (fieldsOfJson fields)

/-- The items of a `list`. -/
def itemsOfJson : List Json → List Value
  | [] => []
  | json :: rest => Value.ofJson json :: itemsOfJson rest

/-- The items of a `dict`. -/
def fieldsOfJson : List (Str × Json) → List (Value × Value)
  | [] => []
  | (key, json) :: rest => (.str key, Value.ofJson json) :: fieldsOfJson rest

end

section Codec

variable [Runtime]

/-- `json.dumps(value, separators=(",", ":"), sort_keys=True).encode("utf-8")`. -/
def dumpsJson (value : Value) : Check Bytes := do
  let json ← value.toJson
  return encodeAscii json.print

/-- `json.loads(raw.decode("utf-8"))`. -/
def loadsJson (raw : Bytes) : Check Value :=
  match decodeUtf8 raw with
  | none => raise .unicodeDecodeError (lit "invalid UTF-8")
  | some text =>
    match loads text with
    | .ok json => .ok (.ofJson json)
    | .error _ => raise .valueError (lit "invalid JSON")

end Codec

/-! ## A small interpreter -/

@[reducible] def sampleRuntime : Runtime := ⟨Sha256.sha256, id, 1000, sixteen_le⟩

theorem sampleRuntime_eq_strict : sampleRuntime = ⟨Sha256.strictSha256, id, 1000, by decide⟩ := by
  rw [Sha256.strictSha256_eq]

@[reducible] def sampleObjects : Objects where
  typeName _ := lit "object"
  truthy _ := true
  isZero _ := false
  items _ := none
  array _ := none
  buffer _ := none
  strOf _ := []
  intOf _ := .ok 0
  reprOf _ := []
  addNumbers v _ := .ok v
  sameKey _ _ := false
  isComplex _ := false
  jsonDumps _ := raise .typeError []
  jsonLoads _ := raise .valueError []
  numpyDumps _ := raise .typeError []
  numpyLoads _ := raise .valueError []
  pickleDumps _ := raise .typeError []
  pickleLoads _ := raise .valueError []
  compress _ data := .ok data
  decompress _ data := .ok data

@[reducible] def sampleScores : Scores := ⟨fun _ _ => 0, fun _ _ h => List.length_pos_of_ne_nil h⟩

@[reducible] def jsonObjects : Objects := { sampleObjects with
  strOf := fun value => match value with
    | .str s => s
    | _ => []
  intOf := fun value => match value with
    | .int i => .ok i
    | _ => raise .typeError []
  reprOf := fun value => match value with
    | .str s => lit "'" ++ s ++ lit "'"
    | _ => []
  jsonDumps := @dumpsJson sampleRuntime
  jsonLoads := @loadsJson sampleRuntime }

def sampleSelf : Self := ⟨lit "root", lit "/root"⟩

def sampleConfig : RuntimeConfig := ⟨lit "zlib", false, 0, 0⟩

def emptySample : Directory :=
  { Directory.init (lit "root") (lit "/root") sampleConfig id with schemas := [] }

/-! ## Documents

What JSON makes of a value that is built of integers, strings and `dict`s with string keys: a value
that cannot be encoded is refused, and any other one is read back with the keys of its `dict`s in order.
Then the same of all that JSON has, where a float is a fraction like `0.92`. -/

mutual

/-- The value that is read back. -/
def Value.canonical : Value → Value
  | .list items => .list (itemsCanonical items)
  | .tuple items => .list (itemsCanonical items)
  | .dict items => .record (sortByKey (fieldsCanonical items))
  | value => value

/-- The items of a `list`. -/
def itemsCanonical : List Value → List Value
  | [] => []
  | value :: values => value.canonical :: itemsCanonical values

/-- The items of a `dict`. -/
def fieldsCanonical : List (Value × Value) → List (Str × Value)
  | [] => []
  | (.str key, value) :: fields => (key, value.canonical) :: fieldsCanonical fields
  | (_, _) :: fields => fieldsCanonical fields

end

mutual

/-- The document of the value can be written. -/
def Value.isEncodable : Value → Bool
  | .none => true
  | .bool _ => true
  | .int i => (printNat i.natAbs).length ≤ intMaxStrDigits
  | .float _ => true
  | .str s => s.all isScalar
  | .list items => itemsEncodable items
  | .tuple items => itemsEncodable items
  | .dict items => fieldsEncodable items
  | _ => false

/-- All items of a `list`. -/
def itemsEncodable : List Value → Bool
  | [] => true
  | value :: values => value.isEncodable && itemsEncodable values

/-- All items of a `dict`. -/
def fieldsEncodable : List (Value × Value) → Bool
  | [] => true
  | (.str key, value) :: fields => key.all isScalar && value.isEncodable && fieldsEncodable fields
  | (_, _) :: _ => false

end

/-- The value is built of integers, strings and `dict`s with distinct string keys, nested at most
`depth` times. -/
inductive Value.Document : Nat → Value → Prop
  | int (depth : Nat) (i : Int) : Document depth (.int i)
  | str (depth : Nat) (s : Str) : Document depth (.str s)
  | record (depth : Nat) (fields : List (Str × Value)) (hnodup : (fields.map Prod.fst).Nodup)
      (h : ∀ f ∈ fields, Document depth f.2) : Document (depth + 1) (.record fields)

/-- What the JSON codec is for documents that are nested at most three times. -/
structure JsonLaw [Objects] : Prop where
  dumps : ∀ value : Value, value.Document 3 →
    ((∃ raw, Objects.jsonDumps value = .ok raw) ↔ value.isEncodable = true)
  loads : ∀ (value : Value) (raw : Bytes), value.Document 3 → Objects.jsonDumps value = .ok raw →
    Objects.jsonLoads raw = .ok value.canonical

/-! ## Records -/

variable (fields : List (Str × Value))

theorem fieldsCanonical_eq :
    fieldsCanonical (fields.map fun f => (.str f.1, f.2)) = fields.map fun f => (f.1, f.2.canonical) := by
  induction fields with
  | nil => rfl
  | cons f fields ih => rw [List.map_cons, fieldsCanonical, ih, List.map_cons]

theorem canonical_record :
    (Value.record fields).canonical = .record (sortByKey (fields.map fun f => (f.1, f.2.canonical))) := by
  rw [Value.record, Value.canonical, fieldsCanonical_eq]

theorem isEncodable_record : (Value.record fields).isEncodable = true ↔
    ∀ f ∈ fields, f.1.all isScalar = true ∧ f.2.isEncodable = true := by
  rw [Value.record, Value.isEncodable]
  induction fields with
  | nil => simp [fieldsEncodable]
  | cons f fields ih =>
    rw [List.map_cons, fieldsEncodable, List.forall_mem_cons, ← ih]
    simp only [Bool.and_eq_true]

/-! ## The codec of the standard library -/

theorem fieldsOfJson_eq (fields : List (Str × Json)) :
    fieldsOfJson fields = fields.map fun kv => (.str kv.1, Value.ofJson kv.2) := by
  induction fields with
  | nil => rfl
  | cons kv fields ih => rw [fieldsOfJson, ih, List.map_cons]

section Codec

variable [Runtime]

/-- `_stdlib_dumps`: text that has no UTF-8 encoding is refused. Any other text is written in ASCII
here, which is read back alike. -/
def dumpsDocument (value : Value) : Check Bytes :=
  if value.isEncodable then dumpsJson value
  else raise .unicodeEncodeError (lit "surrogates not allowed")

end Codec

@[reducible] def documentObjects : Objects := { jsonObjects with
  jsonDumps := @dumpsDocument sampleRuntime }

/-! ## Lists and fractions -/

open List Value

section Regular

variable [Runtime]

/-- The value is built of `None`, truth values, integers, fractions, strings, lists and `dict`s with
distinct string keys, nested at most `depth` times. -/
inductive Value.Regular : Nat → Value → Prop
  | none (depth : Nat) : Regular depth .none
  | bool (depth : Nat) (b : Bool) : Regular depth (.bool b)
  | int (depth : Nat) (i : Int) : Regular depth (.int i)
  | float (depth : Nat) (literal : Str) (h : IsFraction literal)
      (hrepr : floatRepr literal = literal) : Regular depth (.float (.finite literal))
  | str (depth : Nat) (s : Str) : Regular depth (.str s)
  | list (depth : Nat) (items : List Value) (h : ∀ v ∈ items, Regular depth v) :
      Regular (depth + 1) (.list items)
  | record (depth : Nat) (fields : List (Str × Value)) (hnodup : (fields.map Prod.fst).Nodup)
      (h : ∀ f ∈ fields, Regular depth f.2) : Regular (depth + 1) (.record fields)

/-- What the JSON codec is for documents that are nested at most eight times. -/
structure RecordLaw [Objects] : Prop where
  dumps : ∀ value : Value, value.Regular 8 →
    ((∃ raw, Objects.jsonDumps value = .ok raw) ↔ value.isEncodable = true)
  loads : ∀ (value : Value) (raw : Bytes), value.Regular 8 → Objects.jsonDumps value = .ok raw →
    Objects.jsonLoads raw = .ok value.canonical

/-! ## Lists -/

variable (items : List Value)

omit [Runtime] in
theorem itemsCanonical_eq : itemsCanonical items = items.map canonical := by
  induction items with
  | nil => rfl
  | cons v items ih => rw [itemsCanonical, ih, map_cons]

omit [Runtime] in
theorem canonical_list :
    (list items).canonical = .list (items.map canonical) := by
  rw [canonical, itemsCanonical_eq]

omit [Runtime] in
theorem isEncodable_list :
    (list items).isEncodable = true ↔ ∀ v ∈ items, v.isEncodable = true := by
  rw [isEncodable]
  induction items with
  | nil => simp [itemsEncodable]
  | cons v items ih => rw [itemsEncodable, Bool.and_eq_true, ih, forall_mem_cons]

omit [Runtime] in
theorem itemsOfJson_eq (jsons : List Json) : itemsOfJson jsons = jsons.map ofJson := by
  induction jsons with
  | nil => rfl
  | cons json jsons ih => rw [itemsOfJson, ih, map_cons]

/-! ## The codec of the standard library -/

/-- Where a document can be encoded, its JSON is regular and stands for its canonical form. -/
theorem Value.Regular.toJson {depth : Nat} {value : Value} (h : value.Regular depth)
    (hencodable : value.isEncodable = true) : ∃ json, value.toJson = .ok json ∧
      json.Regular depth ∧ ofJson json.sorted = value.canonical := by
  induction h with
  | none depth => exact ⟨.null, rfl, .null depth, by simp [Json.sorted, ofJson, canonical]⟩
  | bool depth b =>
    exact ⟨.bool b, rfl, .bool depth b, by simp [Json.sorted, ofJson, canonical]⟩
  | int depth i =>
    have hlen : (printNat i.natAbs).length ≤ intMaxStrDigits := by
      simpa [isEncodable] using hencodable
    exact ⟨.int i, by rw [Value.toJson, if_pos hlen], .int depth i hlen,
      by simp [Json.sorted, ofJson, canonical]⟩
  | float depth literal h hrepr =>
    exact ⟨.float (.finite literal), rfl, .float depth literal h hrepr,
      by simp [Json.sorted, ofJson, canonical]⟩
  | str depth s =>
    have hs : s.all isScalar = true := by simpa [isEncodable] using hencodable
    exact ⟨.str s, rfl, .str depth s fun c hc => all_eq_true.mp hs c hc,
      by simp [Json.sorted, ofJson, canonical]⟩
  | list depth items h ih =>
    rw [isEncodable_list] at hencodable
    have hjsons : ∃ jsons : List Json, itemsToJson items = .ok jsons ∧
        (∀ json ∈ jsons, json.Regular depth) ∧
        jsons.map (fun json => ofJson json.sorted) = items.map canonical := by
      clear h
      induction items with
      | nil => exact ⟨[], rfl, by simp, rfl⟩
      | cons v items ihv =>
        obtain ⟨json, hjson, hregular, hcanonical⟩ :=
          ih v mem_cons_self (hencodable v mem_cons_self)
        obtain ⟨jsons, hjsons, hregulars, hcanonicals⟩ :=
          ihv (fun w hw => ih w (mem_cons_of_mem _ hw))
            fun w hw => hencodable w (mem_cons_of_mem _ hw)
        refine ⟨json :: jsons, ?_, forall_mem_cons.mpr ⟨hregular, hregulars⟩, ?_⟩
        · rw [itemsToJson, hjson, hjsons]
          rfl
        · rw [map_cons, map_cons, hcanonical, hcanonicals]
    obtain ⟨jsons, hjsons, hregulars, hcanonicals⟩ := hjsons
    refine ⟨.arr jsons, ?_, .arr depth jsons hregulars, ?_⟩
    · rw [Value.toJson, hjsons]
      rfl
    · rw [canonical_list, ← hcanonicals, sorted_arr, ofJson, itemsOfJson_eq, map_map]
      rfl
  | record depth fields hnodup h ih =>
    rw [isEncodable_record] at hencodable
    have hjsons : ∃ jsons : List (Str × Json),
        fieldsToJson (fields.map fun f => (.str f.1, f.2)) = .ok jsons ∧
        jsons.map Prod.fst = fields.map Prod.fst ∧ (∀ kv ∈ jsons, kv.2.Regular depth) ∧
        jsons.map (fun kv => (kv.1, ofJson kv.2.sorted)) =
          fields.map fun f => (f.1, f.2.canonical) := by
      clear h hnodup
      induction fields with
      | nil => exact ⟨[], rfl, rfl, by simp, rfl⟩
      | cons f fields ihf =>
        obtain ⟨json, hjson, hregular, hcanonical⟩ :=
          ih f mem_cons_self (hencodable f mem_cons_self).2
        obtain ⟨jsons, hjsons, hkeys, hregulars, hcanonicals⟩ :=
          ihf (fun g hg => ih g (mem_cons_of_mem _ hg))
            fun g hg => hencodable g (mem_cons_of_mem _ hg)
        refine ⟨(f.1, json) :: jsons, ?_, ?_, forall_mem_cons.mpr ⟨hregular, hregulars⟩, ?_⟩
        · rw [map_cons, fieldsToJson, hjson, hjsons]
          rfl
        · rw [map_cons, map_cons, hkeys]
        · rw [map_cons, map_cons, hcanonical, hcanonicals]
    obtain ⟨jsons, hjsons, hkeys, hregulars, hcanonicals⟩ := hjsons
    have hscalar : ∀ kv ∈ jsons, ∀ c ∈ kv.1, isScalar c = true := by
      intro kv hkv
      have hmem : kv.1 ∈ fields.map Prod.fst := hkeys ▸ mem_map_of_mem hkv
      obtain ⟨f, hf, heq⟩ := mem_map.mp hmem
      rw [← heq]
      exact all_eq_true.mp (hencodable f hf).1
    refine ⟨.obj jsons, ?_, .obj depth jsons (by rwa [hkeys]) hscalar hregulars, ?_⟩
    · rw [Value.record, Value.toJson, hjsons]
      rfl
    · rw [canonical_record, ← hcanonicals, sorted_obj, ofJson, fieldsOfJson_eq,
        sortByKey_map fun json : Json => Value.ofJson json.sorted, Value.record, map_map,
        map_map]
      rfl

theorem loadsJson_print {json : Json} {depth : Nat} (h : json.Regular depth)
    (hdepth : depth ≤ 16) : loadsJson (encodeAscii json.print) = .ok (.ofJson json.sorted) := by
  rw [loadsJson, decodeUtf8_encodeAscii h.printable]
  dsimp only
  rw [h.loads_print hdepth]

variable {depth : Nat} {value : Value}

theorem exists_dumpsDocument_iff (h : value.Regular depth) :
    (∃ raw, dumpsDocument value = .ok raw) ↔ value.isEncodable = true := by
  rw [dumpsDocument]
  split
  · next hencodable =>
    obtain ⟨json, hjson, -, -⟩ := h.toJson hencodable
    exact iff_of_true ⟨encodeAscii json.print, by rw [dumpsJson, hjson]; rfl⟩ hencodable
  · next hencodable => simp [hencodable, raise]

theorem loadsJson_dumpsJson {raw : Bytes} (h : value.Regular depth) (hdepth : depth ≤ 16)
    (hencodable : value.isEncodable = true) (hraw : dumpsJson value = .ok raw) :
    loadsJson raw = .ok value.canonical := by
  obtain ⟨json, hjson, hregular, hcanonical⟩ := h.toJson hencodable
  rw [dumpsJson, hjson] at hraw
  cases hraw
  rw [loadsJson_print hregular hdepth, hcanonical]

theorem loadsJson_dumpsDocument {raw : Bytes} (h : value.Regular depth) (hdepth : depth ≤ 16)
    (hraw : dumpsDocument value = .ok raw) : loadsJson raw = .ok value.canonical := by
  have hencodable := (exists_dumpsDocument_iff h).mp ⟨raw, hraw⟩
  rw [dumpsDocument, if_pos hencodable] at hraw
  exact loadsJson_dumpsJson h hdepth hencodable hraw

theorem Value.Document.regular (h : value.Document depth) : value.Regular depth := by
  induction h with
  | int depth i => exact .int depth i
  | str depth s => exact .str depth s
  | record depth fields hnodup _ ih => exact .record depth fields hnodup ih

variable [Objects] (hdumps : Objects.jsonDumps = dumpsDocument) (hloads : Objects.jsonLoads = loadsJson)
include hdumps hloads

theorem jsonLaw_document : JsonLaw where
  dumps value h := by
    rw [hdumps]
    exact exists_dumpsDocument_iff h.regular
  loads value raw h hraw := by
    rw [hdumps] at hraw
    rw [hloads]
    exact loadsJson_dumpsDocument h.regular (by decide) hraw

theorem recordLaw_document : RecordLaw where
  dumps value h := by
    rw [hdumps]
    exact exists_dumpsDocument_iff h
  loads value raw h hraw := by
    rw [hdumps] at hraw
    rw [hloads]
    exact loadsJson_dumpsDocument h (by decide) hraw

end Regular

end FileSystem
