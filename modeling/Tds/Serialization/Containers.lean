import Tds.FileSystem.Value
import Tds.Python.Proofs.Text

/-!
# Containers and the codec they go through

`is_json_safe_value` asks `isinstance(value, dict)`, so that a subclass of `dict` with string keys goes
through JSON, from which it comes back as a `dict`.
-/

namespace Serialization

open Python
open FileSystem (textUtf8 jsonUtf8 pickleObj)

inductive SequenceType where
  | list
  | tuple
  | set

/-- `dict` and the subclasses of it that the restricted unpickler admits. -/
inductive DictType where
  | dict
  | orderedDict
  | counter

inductive Value where
  | none
  | bool (b : Bool)
  | int (i : Int)
  | str (s : Str)
  | sequence (type : SequenceType) (items : List Value)
  | mapping (type : DictType) (fields : List (Value × Value))

mutual

/-- `is_json_safe_value`. -/
def isJsonSafe : Value → Bool
  | .none | .bool _ | .int _ | .str _ => true
  | .sequence .list items => itemsJsonSafe items
  | .mapping _ fields => fieldsJsonSafe fields
  | _ => false

def itemsJsonSafe : List Value → Bool
  | [] => true
  | v :: vs => isJsonSafe v && itemsJsonSafe vs

def fieldsJsonSafe : List (Value × Value) → Bool
  | [] => true
  | (k, v) :: rest => (match k with | .str _ => true | _ => false) && isJsonSafe v && fieldsJsonSafe rest

end

mutual

/-- What JSON makes of a value: every mapping comes back as a `dict`. -/
def jsonCopy : Value → Value
  | .sequence type items => .sequence type (copyItems items)
  | .mapping _ fields => .mapping .dict (copyFields fields)
  | v => v

def copyItems : List Value → List Value
  | [] => []
  | v :: vs => jsonCopy v :: copyItems vs

def copyFields : List (Value × Value) → List (Value × Value)
  | [] => []
  | (k, v) :: rest => (k, jsonCopy v) :: copyFields rest

end

mutual

/-- No mapping at any level is of a subclass of `dict`. -/
def Plain : Value → Prop
  | .sequence _ items => PlainItems items
  | .mapping type fields => type = .dict ∧ PlainFields fields
  | _ => True

def PlainItems : List Value → Prop
  | [] => True
  | v :: vs => Plain v ∧ PlainItems vs

def PlainFields : List (Value × Value) → Prop
  | [] => True
  | (_, v) :: rest => Plain v ∧ PlainFields rest

end

mutual

theorem jsonCopy_eq_self_iff : ∀ v, jsonCopy v = v ↔ Plain v
  | .none | .bool _ | .int _ | .str _ => by simp [jsonCopy, Plain]
  | .sequence _ items => by simp [jsonCopy, Plain, copyItems_eq_self_iff items]
  | .mapping type fields => by
    rw [jsonCopy, Plain, Value.mapping.injEq, copyFields_eq_self_iff fields, @eq_comm _ _ type]

theorem copyItems_eq_self_iff : ∀ items, copyItems items = items ↔ PlainItems items
  | [] => by simp [copyItems, PlainItems]
  | v :: vs => by simp [copyItems, PlainItems, jsonCopy_eq_self_iff v, copyItems_eq_self_iff vs]

theorem copyFields_eq_self_iff : ∀ fields, copyFields fields = fields ↔ PlainFields fields
  | [] => by simp [copyFields, PlainFields]
  | (_, v) :: rest => by
    simp [copyFields, PlainFields, jsonCopy_eq_self_iff v, copyFields_eq_self_iff rest]

end

/-- The codecs that are taken as given, as `dump_fn` and `load_fn`. -/
structure Backends (Raw : Type) where
  jsonDumps : Value → Option Raw
  jsonLoads : Raw → Option Value
  pickleDumps : Value → Option Raw
  pickleLoads : Raw → Option Value
  /-- Whether JSON has the integers and strings of a value. -/
  InRange : Value → Prop
  json : ∀ v, isJsonSafe v = true → InRange v → (jsonDumps v).bind jsonLoads = some (jsonCopy v)
  pickle : ∀ v, (pickleDumps v).bind pickleLoads = some v

namespace Backends

variable {Raw : Type} (backends : Backends Raw)

/-- `serialize`: the first codec of the default registry that takes the value decides. -/
def serialize : Value → Option (Nat × (Bytes ⊕ Raw))
  | .str s => (encodeUtf8 s).map fun raw => (textUtf8, .inl raw)
  | v =>
    if isJsonSafe v then (backends.jsonDumps v).map fun raw => (jsonUtf8, .inr raw)
    else (backends.pickleDumps v).map fun raw => (pickleObj, .inr raw)

/-- `deserialize`: the format decides which codec reads; no other codec reads the octets of a text. -/
def deserialize : Nat × (Bytes ⊕ Raw) → Option Value
  | (fmt, .inl raw) => if fmt = textUtf8 then (decodeUtf8 raw).map .str else none
  | (fmt, .inr raw) => if fmt = jsonUtf8 then backends.jsonLoads raw else backends.pickleLoads raw

def roundTrip (v : Value) : Option Value := (backends.serialize v).bind backends.deserialize

variable {backends}

theorem roundTrip_str (s : Str) : backends.roundTrip (.str s) = (encodeUtf8 s).map fun _ => .str s := by
  rw [roundTrip, serialize]
  cases h : encodeUtf8 s with
  | none => rfl
  | some raw => simp [deserialize, decodeUtf8_of_encodeUtf8 h]

theorem roundTrip_of_ne_str {v : Value} (hv : ∀ s, v ≠ .str s)
    (hrange : isJsonSafe v = true → (∀ s, v ≠ .str s) → backends.InRange v) :
    backends.roundTrip v = some (if isJsonSafe v then jsonCopy v else v) := by
  rw [roundTrip, serialize.eq_2 _ _ fun s h => hv s h]
  split
  · next hsafe =>
    rw [Option.bind_map, ← backends.json v hsafe (hrange hsafe hv)]
    rfl
  · rw [Option.bind_map, ← backends.pickle v]
    rfl

/-- **Types of containers.** A value comes back as it was if and only if it is a text that can be encoded,
or no subclass of `dict` in it went through JSON. -/
theorem roundTrip_eq_self_iff (backends : Backends Raw) (v : Value)
    (hrange : isJsonSafe v = true → (∀ s, v ≠ .str s) → backends.InRange v) :
    backends.roundTrip v = some v ↔ (∀ s, v = .str s → s.all isScalar = true) ∧
      ((∀ s, v ≠ .str s) → isJsonSafe v = true → Plain v) := by
  by_cases hv : ∃ s, v = .str s
  · obtain ⟨s, rfl⟩ := hv
    rw [roundTrip_str, encodeUtf8]
    split
    · next hs => exact iff_of_true rfl ⟨fun _ h => Value.str.inj h ▸ hs, fun h => absurd rfl (h s)⟩
    · next hs => exact iff_of_false nofun fun h => hs (h.1 s rfl)
  · have hv : ∀ s, v ≠ .str s := fun s h => hv ⟨s, h⟩
    rw [roundTrip_of_ne_str hv hrange]
    by_cases hsafe : isJsonSafe v = true
    · simp [hsafe, hv, jsonCopy_eq_self_iff]
    · simp [hsafe, hv]

end Backends

/-- Codecs whose raw data are the values themselves. -/
def sampleBackends : Backends Value where
  jsonDumps v := some (jsonCopy v)
  jsonLoads := some
  pickleDumps := some
  pickleLoads := some
  InRange _ := True
  json _ _ _ := rfl
  pickle _ := rfl

/-- A `list` in a `dict`, with an inner `dict`. -/
def nestedSample : Value :=
  .mapping .dict [(.str (lit "a"), .sequence .list [.int 1, .mapping .dict [(.str (lit "b"), .none)]])]

/-- The nested value goes through JSON and comes back as it was. -/
theorem roundTrip_sample : isJsonSafe nestedSample = true ∧ sampleBackends.InRange nestedSample ∧
    sampleBackends.roundTrip nestedSample = some nestedSample :=
  ⟨rfl, trivial, (sampleBackends.roundTrip_eq_self_iff nestedSample fun _ _ => trivial).mpr
    (by simp [nestedSample, Plain, PlainItems, PlainFields])⟩

/-- An `OrderedDict` comes back as a `dict`. -/
theorem orderedDict_sample :
    sampleBackends.roundTrip (.mapping .orderedDict []) = some (.mapping .dict []) ∧
      (.mapping .orderedDict [] : Value) ≠ .mapping .dict [] :=
  ⟨rfl, nofun⟩

end Serialization
