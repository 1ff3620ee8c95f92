import Tds.Generation.Store

/-!
# Stores at work

Any number of stores on one directory, each running one call at a time. Between two operations of a
call any other store may run, and a store's process may die: its memory and its locks are gone, the
files stay as they are. A loss of power, which keeps only what was synced, is not modelled.
-/

namespace Generation

open Python Process

section System

variable [Runtime]

inductive Outcome where
  | published (result : PublicationResult)
  | recovered (result : RecoveryResult)
  | pinned (lease : Nat)
  | closed
  | retired (receipt : GenerationLifecycleReceipt)

def Call.program (config : StoreConfig) : Call → Proc Outcome
  | publish candidate expectedHeadRoot =>
    return .published (← Generation.publish config candidate expectedHeadRoot)
  | rollback nameSpace target expectedHeadRoot =>
    return .published (← Generation.rollback config nameSpace target expectedHeadRoot)
  | recover nameSpace => return .recovered (← Generation.recover config nameSpace)
  | pin nameSpace generationRoot => return .pinned (← Generation.pin config nameSpace generationRoot)
  | close lease => do
    Generation.close lease
    return .closed
  | retire nameSpace generationRoot =>
    return .retired (← Generation.retire config nameSpace generationRoot)

/-- The stores at work on one disk. -/
structure System where
  world : World
  /-- What is left to run of the call that a store is executing. -/
  programs : StoreId → Option (Proc Outcome)
  /-- The calls that came back, by their place in the history. -/
  returned : List (Nat × Except Error Outcome)

def System.initial : System := ⟨.initial, fun _ => none, []⟩

namespace World

/-- The store `p` starts a call. -/
def invoke (w : World) (p : StoreId) (call : Call) : World :=
  { w with
    history := w.history ++ [(p, call)]
    running := Function.update w.running p (some w.history.length) }

/-- The store `p` is idle again. -/
def finish (w : World) (p : StoreId) : World :=
  { w with running := Function.update w.running p none }

/-- The process of the store `p` dies, with its memory and its locks. The machine goes on, so that the
files keep what was written, synced or not. -/
def crash (w : World) (p : StoreId) : World :=
  { w with
    locks := fun file => (w.locks file).filter fun h => !(h.store == p)
    memory := Function.update w.memory p .empty
    running := Function.update w.running p none }

end World

namespace System

/-- The store `p` starts a call. -/
def invoke (s : System) (config : StoreConfig) (p : StoreId) (call : Call) : System :=
  ⟨s.world.invoke p call, Function.update s.programs p (some (call.program config)), s.returned⟩

/-- The call that the store `p` was executing is gone. -/
def crash (s : System) (p : StoreId) : System :=
  ⟨s.world.crash p, Function.update s.programs p none, s.returned⟩

end System

inductive Step (config : StoreId → StoreConfig) : System → System → Prop where
  /-- An idle store starts a call. -/
  | invoke (s : System) (p : StoreId) (call : Call) (h : s.programs p = none) :
      Step config s (s.invoke (config p) p call)
  /-- A store performs the next operation of its call. -/
  | run (s : System) (p : StoreId) (o : Op) (k : o.Answer → Proc Outcome) (a : o.Answer) (w : World)
      (h : s.programs p = some (.step o k)) (he : exec (config p) p o s.world a w) :
      Step config s ⟨w, Function.update s.programs p (some (k a)), s.returned⟩
  /-- A call comes back. -/
  | finish (s : System) (p : StoreId) (r : Except Error Outcome) (id : Nat)
      (h : s.programs p = some (.done r)) (hid : s.world.running p = some id) :
      Step config s ⟨s.world.finish p, Function.update s.programs p none,
        s.returned ++ [(id, r)]⟩
  /-- A store crashes, in a call or not. -/
  | crash (s : System) (p : StoreId) : Step config s (s.crash p)

/-- The states that a run of the system reaches, the steps being restricted by `allowed`. -/
inductive ReachableBy (config : StoreId → StoreConfig) (allowed : System → System → Prop) :
    System → Prop where
  | initial : ReachableBy config allowed .initial
  | step {s s' : System} (h : ReachableBy config allowed s) (hs : Step config s s')
      (ha : allowed s s') : ReachableBy config allowed s'

abbrev Reachable (config : StoreId → StoreConfig) : System → Prop :=
  ReachableBy config fun _ _ => True

end System

end Generation
