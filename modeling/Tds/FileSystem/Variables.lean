import Tds.FileSystem.Text

/-!
# Variables

`VariableControl`: variables that can be locked, and chains of increments that are derived from a
variable. Values are stored as entries of the directory, so the methods of the directory reach them as
well.
-/

namespace FileSystem

open Python Process

section Merge

variable [Objects]

/-- The octets of a `bytes` or a `bytearray`. -/
def bytesOf : Value → Option Bytes
  | .bytes b => some b
  | .object id => if Objects.typeName id = lit "memoryview" then none else Objects.buffer id
  | _ => none

/-- `isinstance(value, (int, float, complex))`. -/
def isNumber : Value → Bool
  | .bool _ => true
  | .int _ => true
  | .float _ => true
  | .object id => Objects.isComplex id
  | _ => false

/-- `d[key] = value`. -/
def setItem : List (Value × Value) → Value → Value → List (Value × Value)
  | [], key, value => [(key, value)]
  | (k, v) :: items, key, value =>
    if Objects.sameKey k key then (k, value) :: items else (k, v) :: setItem items key value

/-- What two values are merged into. -/
def mergeValues (previous newData : Value) : Check Value :=
  match previous, newData with
  | .none, newData => .ok newData
  | previous, .none => .ok previous
  | .dict old, .dict new => .ok (.dict (new.foldl (fun items item => setItem items item.1 item.2) old))
  | .list old, .list new => .ok (.list (old ++ new))
  | .tuple old, .tuple new => .ok (.tuple (old ++ new))
  | .str old, .str new => .ok (.str (old ++ new))
  | previous, newData =>
    match bytesOf previous, bytesOf newData with
    | some old, some new => .ok (.bytes (old ++ new))
    | _, _ =>
      if isNumber previous && isNumber newData then Objects.addNumbers previous newData
      else .ok (.list [previous, newData])

end Merge

section Methods

variable [Runtime] [Objects]

/-! ## Entries -/

/-- A variable is an entry in the format of its value. -/
def writeVariable (config : RuntimeConfig) (name : Str) (value : Value) (compress : Option Bool := none)
    (codec : Str := []) : Method Entry :=
  writeEntry config ⟨name, value, chooseFmtId value, compress, codec⟩

/-- `read_result`, which is also `read`. -/
def readResult (self : Self) (name : Str) : Method Result := do
  match ← tryExcept (readValue self name) with
  | .ok value => return .success self .readOk "Entry read." name value
  | .error e =>
    return .fromException self (if e.type = .keyError then .readMissing else .readError) e name

/-- `write_result`, which is also `write`. -/
def writeResult (self : Self) (config : RuntimeConfig) (args : WriteArgs) : Method Result := do
  if ← ask (.lockGet args.name) then
    return .fail self .varLocked "Variable is locked." args.name
  else
    match ← tryExcept (writeEntry config args) with
    | .ok _ => return .success self .writeOk "Entry written." args.name args.value
    | .error e => return .fromException self .writeError e args.name

/-- The part of `delete_result` that may raise; whether there was an entry. -/
def deleteUnlocked (name : Str) : Method Bool := do
  let existed ← exists? name
  deleteEntry name
  ask (.lockPop name)
  return existed

/-- `delete_result`, which is also `delete`. -/
def deleteResult (self : Self) (name : Str) : Method Result := do
  if ← ask (.lockGet name) then return .fail self .varLocked "Variable is locked." name
  else
    match ← tryExcept (deleteUnlocked name) with
    | .ok true => return .success self .deleteOk "Delete completed." name
    | .ok false => return .success self .deleteMissing "Entry was already absent." name
    | .error e => return .fromException self .deleteError e name

/-! ## Variables -/

def addvar (self : Self) (config : RuntimeConfig) (name : Str) (data : Value) : Method Result := do
  if ← exists? name then
    return .fail self .varExists "Variable already exists; use editvar() to replace." name
  else
    let _ ← writeVariable config name data
    return .success self .varAdded "Variable added." name data

/-- Creates a variable or replaces it, unless it is locked. -/
def editvar (self : Self) (config : RuntimeConfig) (name : Str) (data : Value) (overwrite : Bool) :
    Method Result := do
  if ← ask (.lockGet name) then return .fail self .varLocked "Variable is locked." name
  else if ← exists? name then
    if overwrite then
      let _ ← writeVariable config name data
      return .success self .varEdited "Variable edited." name data
    else return .fail self .varExists "Variable already exists." name
  else
    let _ ← writeVariable config name data
    return .success self .varCreated "Variable did not exist and was created." name data

def lockvar (self : Self) (name : Str) (locked : Bool) : Method Result := do
  if ← exists? name then
    ask (.lockSet name locked)
    return .success self (if locked then .varLocked else .varUnlocked)
      "Variable lock state updated." name
  else return .fail self .varMissing "Variable does not exist." name

def unlockvar (self : Self) (name : Str) : Method Result := lockvar self name false

def findvar (self : Self) (name : Str) : Method Result := do
  if ← exists? name then
    let value ← readValue self name
    return .success self .varFound "Variable found." name value
  else return .fail self .varMissing "Variable does not exist." name

def loadvar (self : Self) (name : Str) : Method Value := readValue self name

/-! ## Chains -/

/-- The entries of a chain are deleted, as far as they exist; those that were. -/
def deleteNames : List Str → Method (List Str)
  | [] => pure []
  | name :: names => do
    if ← exists? name then
      deleteEntry name
      let removed ← deleteNames names
      return name :: removed
    else deleteNames names

/-- Removes the values that were chained. -/
def clearChain (base : Str) : Method (List Str) := do
  match ← ask (.stalkGet base) with
  | none => return []
  | some state =>
    let removed ← deleteNames state.chainNames
    ask (.stalkPop base)
    return removed

/-- `f"{base}_{index:04d}"`. -/
def incrementName (base : Str) (index : Nat) : Str :=
  base ++ lit "_" ++ List.replicate (4 - (printNat index).length) 48 ++ printNat index

def StalkState.new (base : Str) : StalkState := ⟨true, 0, base, []⟩

/-- The state of the chain of a variable, which begins here if there is none. -/
def chainState (base : Str) : Method StalkState := do
  match ← ask (.stalkGet base) with
  | some state => return state
  | none =>
    ask (.stalkSet base (.new base))
    return .new base

/-- `stalkvar` of a name that begins with a tilde, once the base is known to exist. -/
def extendChain (self : Self) (config : RuntimeConfig) (base : Str) (data : Value) : Method Result := do
  let state ← chainState base
  let previous ← readValue self state.latestName
  let combined ← mergeValues previous data
  let index := state.latestIndex + 1
  let next := incrementName base index
  let found ← exists? next
  if found && !state.chainNames.contains next then
    return .fail self .varChainCollision
      "Next stalk increment name already exists outside the tracked chain." next
  else
    let _ ← writeVariable config next combined
    ask (.stalkSet base ⟨state.active, index, next, state.chainNames ++ [next]⟩)
    return .success self .varStalked "Stalk increment created." next combined

/-- `stalkvar` of a name that begins with a tilde. -/
def stalkIncrement (self : Self) (config : RuntimeConfig) (base : Str) (data : Value) :
    Method Result := do
  if ← ask (.lockGet base) then return .fail self .varLocked "Base variable is locked." base
  else if ← exists? base then extendChain self config base data
  else return .fail self .varMissing "Base variable does not exist." base

def replaceBase (self : Self) (config : RuntimeConfig) (base : Str) (data : Value) (hadChain : Bool) :
    Method Result := do
  if ← exists? base then
    let _ ← writeVariable config base data
    return .success self .varEdited
      (if hadChain then "Variable edited and stalk chain cleared." else "Variable edited.") base data
  else
    let _ ← writeVariable config base data
    return .success self .varCreated "Variable created." base data

/-- `stalkvar` of any other name. -/
def stalkClear (self : Self) (config : RuntimeConfig) (base : Str) (data : Value) :
    Method Result := do
  if ← ask (.lockGet base) then return .fail self .varLocked "Variable is locked." base
  else
    let state ← ask (.stalkGet base)
    let _ ← clearChain base
    match data with
    | .none =>
      if state.isSome then
        return .success self .varStalkCleared "Stalk chain cleared; base retained." base
      else return .success self .varNoop "No stalk chain active; base retained." base
    | data => replaceBase self config base data state.isSome

def stalkvar (self : Self) (config : RuntimeConfig) (name : Str) (data : Value) : Method Result :=
  match name with
  | 126 :: base =>
    if base = [] then
      return .fail self .varInvalidName "Stalk variable name cannot be empty." name
    else stalkIncrement self config base data
  | base => stalkClear self config base data

end Methods

end FileSystem
