import Tds.FileSystem.Footprint
import Tds.FileSystem.Variables

/-!
# Locked variables

The public operations of a directory, and which of them go past the lock of a variable: the lock is
looked up by `write`, `delete`, `editvar` and `stalkvar` under the name they are called with, and
nowhere else.
-/

namespace FileSystem

open Python Process

/-- A public operation on the entries and variables of a directory. -/
inductive Operation where
  | writeEntry (config : RuntimeConfig) (args : WriteArgs)
  | write (config : RuntimeConfig) (args : WriteArgs)
  | writeVariable (config : RuntimeConfig) (name : Str) (value : Value) (compress : Option Bool)
      (codec : Str)
  | writeJson (config : RuntimeConfig) (name : Str) (value : Value) (overwrite : Bool)
      (compress : Option Bool) (codec : Str)
  | writeText (config : RuntimeConfig) (name : Str) (text : Value) (overwrite : Bool)
      (compress : Option Bool) (codec : Str)
  | writeTextChunked (config : RuntimeConfig) (args : ChunkedArgs)
  | readValue (name : Str)
  | read (name : Str)
  | readText (name : Str)
  | readTextResult (name : Str)
  | deleteEntry (name : Str)
  | delete (name : Str)
  | addvar (config : RuntimeConfig) (name : Str) (data : Value)
  | editvar (config : RuntimeConfig) (name : Str) (data : Value) (overwrite : Bool)
  | lockvar (name : Str) (locked : Bool)
  | unlockvar (name : Str)
  | stalkvar (config : RuntimeConfig) (name : Str) (data : Value)
  | findvar (name : Str)
  | loadvar (name : Str)

inductive Outcome where
  | entry (entry : Entry)
  | result (result : Result)
  | value (value : Value)
  | text (text : Str)
  | none

namespace Operation

section Methods

variable [Runtime] [Objects]

def method (self : Self) : Operation → Method Outcome
  | writeEntry config args => return .entry (← FileSystem.writeEntry config args)
  | write config args => return .result (← writeResult self config args)
  | writeVariable config name value compress codec =>
    return .entry (← FileSystem.writeVariable config name value compress codec)
  | writeJson config name value overwrite compress codec =>
    return .result (← FileSystem.writeJson self config name value overwrite compress codec)
  | writeText config name text overwrite compress codec =>
    return .result (← FileSystem.writeText self config name text overwrite compress codec)
  | writeTextChunked config args =>
    return .result (← FileSystem.writeTextChunked self config args)
  | readValue name => return .value (← FileSystem.readValue self name)
  | read name => return .result (← readResult self name)
  | readText name => return .text (← FileSystem.readText self name)
  | readTextResult name => return .result (← FileSystem.readTextResult self name)
  | deleteEntry name => do
    FileSystem.deleteEntry name
    return .none
  | delete name => return .result (← deleteResult self name)
  | addvar config name data => return .result (← FileSystem.addvar self config name data)
  | editvar config name data overwrite =>
    return .result (← FileSystem.editvar self config name data overwrite)
  | lockvar name locked => return .result (← FileSystem.lockvar self name locked)
  | unlockvar name => return .result (← FileSystem.unlockvar self name)
  | stalkvar config name data => return .result (← FileSystem.stalkvar self config name data)
  | findvar name => return .result (← FileSystem.findvar self name)
  | loadvar name => return .value (← FileSystem.loadvar self name)

end Methods

/-- The operation opens the lock of a name. -/
def Unlocks (n : Key) : Operation → Prop
  | lockvar name locked => name = n.val ∧ locked = false
  | unlockvar name => name = n.val
  | _ => False

/-- The name of the variable whose chain an operation changes. -/
def stalkBase : Str → Str
  | 126 :: base => base
  | base => base

/-- The operation respects the lock of `n`: it neither stores nor deletes under the name by a method
that does not look at the lock, and changes no chain that the name is in, unless the variable that the
chain belongs to is locked as well. -/
def Spares [Objects] (c : Contents) (n : Key) : Operation → Prop
  | writeEntry _ args => args.name ≠ n.val
  | writeVariable _ name _ _ _ => name ≠ n.val
  | writeJson _ name _ overwrite _ _ => name = n.val → overwrite = false
  | writeText _ name _ overwrite _ _ => name = n.val → overwrite = false
  | writeTextChunked _ args => ∀ b : Key, b.val = args.name → c.Touches b n →
      args.overwrite = false ∧ (c.entries b).isSome = true
  | deleteEntry name => name ≠ n.val
  | stalkvar _ name _ => ∀ state, c.stalkvars.get (stalkBase name) = some state →
      n.val ∈ state.chainNames → c.lockvars.get (stalkBase name) = some true
  | _ => True

end Operation

/-- The name is locked, and has this value. -/
def Contents.Holds (c : Contents) (n : Key) (v : Value) : Prop :=
  c.lockvars.get n.val = some true ∧ c.value n = some v

section Runs

variable [Runtime] [Objects] [Scores]

def Directory.perform (d : Directory) (self : Self) (operation : Operation) : Directory :=
  ((operation.method self).run exec d).2

def Directory.performAll (d : Directory) (self : Self) (operations : List Operation) : Directory :=
  operations.foldl (fun d operation => d.perform self operation) d

/-- Every operation of the sequence respects the lock of `n` and leaves it in place, in the state that it
is called in. -/
def Directory.SparedBy (d : Directory) (self : Self) (n : Key) : List Operation → Prop
  | [] => True
  | operation :: operations => operation.Spares d.contents n ∧ ¬ operation.Unlocks n ∧
      (d.perform self operation).SparedBy self n operations

end Runs

end FileSystem
