import Tds.Generation.System

/-!
# What a publication log says

The vocabulary in which the store is specified: the complete records of a log, the chain they must
form, the head they imply, and when a generation is retired. None of it is code of the store.
-/

namespace Generation

open Python Process

/-- The complete lines of a log, without their line breaks, and what follows the last line break. -/
def logLines : Bytes → List Bytes × Bytes
  | [] => ([], [])
  | b :: data =>
    let (lines, tail) := logLines data
    if b = 10 then ([] :: lines, tail)
    else match lines with
      | [] => ([], b :: tail)
      | line :: lines => ((b :: line) :: lines, tail)

/-- The chain that the records of a namespace form: numbered from one without gaps, each record
naming the record before it and the generation that was current then. -/
structure ValidChain [Runtime] (records : List GenerationPublicationRecord) : Prop where
  sequence : ∀ i r, records[i]? = some r → r.publicationSequence.val = i + 1
  first : ∀ r, records[0]? = some r →
    r.predecessorRecordRoot = none ∧ r.previousGenerationRoot = none
  next : ∀ i r r', records[i]? = some r → records[i + 1]? = some r' →
    r'.predecessorRecordRoot = some r.recordRoot ∧
      r'.previousGenerationRoot = some r.generationRoot ∧ r'.nameSpace = r.nameSpace

section Histories

variable [Runtime]

def completeRecords (data : Bytes) : Check (List GenerationPublicationRecord) :=
  (logLines data).1.mapM publicationRecordFromJson

/-- The head that a record installs. -/
def headOf (record : GenerationPublicationRecord) : GenerationHead :=
  ⟨record.nameSpace, record.publicationSequence, record.generationRoot, record.manifestRoot,
    record.recordRoot⟩

/-- The head that the records of a log imply: that of the last one. -/
def impliedHead (records : List GenerationPublicationRecord) : Option GenerationHead :=
  records.getLast?.map headOf

namespace World

/-- The contents of a publication log; a log that does not exist is empty. -/
def log (w : World) (key : Digest) : Bytes := (w.disk (.log key)).getD []

/-- The records of a namespace, none if the log is damaged. -/
def records (w : World) (key : Digest) : List GenerationPublicationRecord :=
  match completeRecords (w.log key) with
  | .ok records => records
  | .error _ => []

/-- What is hashed for the roots of the heads that the logs imply. -/
def headPreimages (w : World) : Set Bytes :=
  {bytes | ∃ key, ∃ r ∈ w.records key, bytes = rootPreimage "current-head" (headOf r).encode}

/-- The generation has a receipt of its retirement. -/
def Retired (w : World) (generation : Root) : Prop :=
  w.disk (.receipt generation .retired) ≠ none

instance (w : World) (generation : Root) : Decidable (w.Retired generation) := by
  unfold Retired
  infer_instance

end World

/-- No namespace has a retired generation as its head: neither the one that `CURRENT` names nor the
one that its log implies. -/
def HeadLive (w : World) : Prop :=
  ∀ key head, w.disk (.current key) = some (headEnvelope head) ∨
    impliedHead (w.records key) = some head → ¬ w.Retired head.generationRoot

/-- No record of `publish` is completed for a generation that is marked retired. -/
def LivePublication (w w' : World) : Prop :=
  ∀ key r, w'.records key = w.records key ++ [r] → r.action = .publish →
    ¬ w.Retired r.generationRoot

/-- The call is about this namespace and names this root, or no head at all, as the head that it
expects. -/
def Call.NamesHead (nameSpace : Str) (root : Option Root) : Call → Prop
  | publish candidate expected => candidate.manifest.nameSpace.val = nameSpace ∧
    requireOptionalRoot "expected_head_root" (strJson expected) = .ok root
  | rollback name _ expected => name = nameSpace ∧
    requireOptionalRoot "expected_head_root" (.str expected) = .ok root
  | _ => False

/-- The call came back with a new head, or completed its record before it was cut off. -/
def System.Succeeded (s : System) (id : Nat) : Prop :=
  (∃ x, (id, .ok (.published x)) ∈ s.returned) ∨ ∃ key, id ∈ s.world.commits key

end Histories

end Generation
