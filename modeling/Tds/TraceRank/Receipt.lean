import Tds.Generation.Contract

/-!
# Path receipts

`TraceRankPathReceipt` of `trace_rank/planner.py` and the records it is made of, with the validators of
their constructors and the canonical bytes, and the faults that `trace_rank/contract.py` defines for
them.
-/

namespace TraceRank

open Python
open Generation (Root Bounded Dict rootText parseRoot rootJson natJson canonicalBytes sameKeys)

/-! ## Faults and exceptions -/

/-- What a planner decides. -/
inductive TraceRankDecision where
  | ranked
  | fallback
  | abstain
deriving DecidableEq

/-- Why a planner does not rank. -/
inductive TraceRankFault where
  | none
  | invalidInput
  | boundExceeded
  | epochMismatch
  | policyRejected
  | integrityFailure
  | rankerUnavailable
  | timeout
deriving DecidableEq

namespace TraceRankDecision

def value : TraceRankDecision → Str
  | .ranked => lit "ranked"
  | .fallback => lit "fallback"
  | .abstain => lit "abstain"

/-- `TraceRankDecision(value)`. -/
def ofValue (s : Str) : Option TraceRankDecision :=
  [.ranked, .fallback, .abstain].find? fun decision => decision.value = s

end TraceRankDecision

namespace TraceRankFault

def value : TraceRankFault → Str
  | .none => lit "none"
  | .invalidInput => lit "invalid_input"
  | .boundExceeded => lit "bound_exceeded"
  | .epochMismatch => lit "epoch_mismatch"
  | .policyRejected => lit "policy_rejected"
  | .integrityFailure => lit "integrity_failure"
  | .rankerUnavailable => lit "ranker_unavailable"
  | .timeout => lit "timeout"

/-- `TraceRankFault(value)`. -/
def ofValue (s : Str) : Option TraceRankFault :=
  [.none, .invalidInput, .boundExceeded, .epochMismatch, .policyRejected, .integrityFailure,
    .rankerUnavailable, .timeout].find? fun fault => fault.value = s

end TraceRankFault

inductive BuiltinError where
  | valueError
  | typeError
  | keyError
  | recursionError
deriving DecidableEq

inductive Error where
  /-- `TraceRankPlannerError`. -/
  | planner (message : Str) (fault : TraceRankFault)
  /-- An exception of the interpreter. -/
  | builtin (error : BuiltinError)
deriving DecidableEq

abbrev Check := Except Error

/-- `if condition: raise error`. -/
def raiseIf (condition : Prop) [Decidable condition] (error : Error) : Check Unit :=
  if condition then .error error else .ok ()

/-- `TraceRankPlannerError(message)`. -/
def plannerError (message : String) : Error := .planner (lit message) .invalidInput

/-- `TraceRankPlannerError(message, fault=fault)`. -/
def plannerFault (message : String) (fault : TraceRankFault) : Error := .planner (lit message) fault

/-! ## Machine integers -/

def uint16Max : Nat := 2 ^ 16 - 1

def uint32Max : Nat := 2 ^ 32 - 1

def uint64Max : Nat := 2 ^ 64 - 1

abbrev UInt16Value := Bounded 0 uint16Max

abbrev UInt32Value := Bounded 0 uint32Max

abbrev UInt64Value := Bounded 0 uint64Max

/-! ## Validators -/

theorem toNat_bounds {minimum maximum : Nat} {i : Int} (h : (minimum : Int) ≤ i ∧ i ≤ maximum) :
    minimum ≤ i.toNat ∧ i.toNat ≤ maximum := by
  omega

def requireInt (name : String) (value : Json) (minimum maximum : Nat) :
    Check (Bounded minimum maximum) :=
  match value with
  | .int i =>
    if h : (minimum : Int) ≤ i ∧ i ≤ maximum then .ok ⟨i.toNat, toNat_bounds h⟩
    else .error (.planner (lit name ++ lit " must be between " ++ printNat minimum ++ lit " and "
      ++ printNat maximum) .boundExceeded)
  | _ => .error (.planner (lit name ++ lit " must be an integer") .invalidInput)

/-- A text `sha256:<hex>`. -/
def requireRoot (name : String) (value : Json) : Check Root :=
  let invalid : Error :=
    .planner (lit name ++ lit " must be a canonical sha256 root") .integrityFailure
  match value with
  | .str s =>
    match parseRoot s with
    | some root => .ok root
    | none => .error invalid
  | _ => .error invalid

/-- `_HEX_ROOT_RE.fullmatch`: `[0-9a-f]{64}`. -/
def parseHexRoot (s : Str) : Option Digest := do
  let bytes ← bytesOfHex s
  if h : bytes.length = 32 then some ⟨bytes, h⟩ else none

/-- The checks of the constructor on a root without `sha256:`. -/
def requireHexRoot (name : String) (value : Json) : Check Digest :=
  let invalid : Error := .planner (lit name ++ lit " is not canonical") .invalidInput
  match value with
  | .str s =>
    match parseHexRoot s with
    | some root => .ok root
    | none => .error invalid
  | _ => .error invalid

def hexJson (root : Digest) : Json := .str root.hex

/-- An object with exactly these keys. -/
def requireMappingFields (value : Json) (expected : List String) (description : String) :
    Check Dict :=
  let invalid : Error :=
    .planner (lit description ++ lit " fields are not canonical") .integrityFailure
  match value with
  | .obj fields => if sameKeys fields expected then .ok fields else .error invalid
  | _ => .error invalid

/-- `value[key]`. -/
def getItem (value : Dict) (key : String) : Check Json :=
  match dictGet value (lit key) with
  | some v => .ok v
  | none => .error (.builtin .keyError)

/-! ## The budget and the counts -/

structure TraceRankPathBudget where
  maxExpandedNodes : Bounded 1 uint64Max
  maxExaminedEdges : Bounded 1 uint64Max
  maxSteps : Bounded 1 uint64Max
  maxTotalCost : UInt64Value
deriving DecidableEq

namespace TraceRankPathBudget

/-- The fields that `from_bytes` requires. -/
def keys : List String := ["max_examined_edges", "max_expanded_nodes", "max_steps", "max_total_cost"]

/-- `TraceRankPathBudget(**value)`. -/
def init (value : Dict) : Check TraceRankPathBudget := do
  let expanded ← requireInt "max_expanded_nodes" (← getItem value "max_expanded_nodes") 1 uint64Max
  let examined ← requireInt "max_examined_edges" (← getItem value "max_examined_edges") 1 uint64Max
  let steps ← requireInt "max_steps" (← getItem value "max_steps") 1 uint64Max
  let cost ← requireInt "max_total_cost" (← getItem value "max_total_cost") 0 uint64Max
  return ⟨expanded, examined, steps, cost⟩

def canonicalDict (budget : TraceRankPathBudget) : Dict :=
  [(lit "max_examined_edges", natJson budget.maxExaminedEdges),
    (lit "max_expanded_nodes", natJson budget.maxExpandedNodes),
    (lit "max_steps", natJson budget.maxSteps), (lit "max_total_cost", natJson budget.maxTotalCost)]

end TraceRankPathBudget

/-- What was excluded, by reason. -/
structure PathExclusionCounts where
  policy : UInt64Value
  operation : UInt64Value
  privacy : UInt64Value
  license : UInt64Value
  causal : UInt64Value
  stepBudget : UInt64Value
  costBudget : UInt64Value
deriving DecidableEq

namespace PathExclusionCounts

/-- The fields that `from_bytes` requires. -/
def keys : List String :=
  ["causal", "cost_budget", "license", "operation", "policy", "privacy", "step_budget"]

/-- `PathExclusionCounts(**value)`. -/
def init (value : Dict) : Check PathExclusionCounts := do
  let policy ← requireInt "policy" (← getItem value "policy") 0 uint64Max
  let operation ← requireInt "operation" (← getItem value "operation") 0 uint64Max
  let privacy ← requireInt "privacy" (← getItem value "privacy") 0 uint64Max
  let license ← requireInt "license" (← getItem value "license") 0 uint64Max
  let causal ← requireInt "causal" (← getItem value "causal") 0 uint64Max
  let stepBudget ← requireInt "step_budget" (← getItem value "step_budget") 0 uint64Max
  let costBudget ← requireInt "cost_budget" (← getItem value "cost_budget") 0 uint64Max
  return ⟨policy, operation, privacy, license, causal, stepBudget, costBudget⟩

def canonicalDict (counts : PathExclusionCounts) : Dict :=
  [(lit "causal", natJson counts.causal), (lit "cost_budget", natJson counts.costBudget),
    (lit "license", natJson counts.license), (lit "operation", natJson counts.operation),
    (lit "policy", natJson counts.policy), (lit "privacy", natJson counts.privacy),
    (lit "step_budget", natJson counts.stepBudget)]

end PathExclusionCounts

/-! ## Waypoints and edges of a path -/

/-- A point of a path, with what it cites. -/
structure PathWaypointReceipt where
  waypointIndex : UInt64Value
  generationRoot : Root
  provenanceRoot : Root
  causalSequence : UInt64Value
  byteStart : UInt64Value
  byteEnd : UInt64Value
  rowStart : UInt64Value
  rowEnd : UInt64Value
  privacyClass : UInt16Value
  licenseClass : UInt16Value
  policyMask : UInt64Value
  bytes_lt : byteStart.val < byteEnd.val
  rows_lt : rowStart.val < rowEnd.val
deriving DecidableEq

namespace PathWaypointReceipt

/-- The fields that `from_bytes` requires. -/
def keys : List String :=
  ["byte_end", "byte_start", "causal_sequence", "generation_root", "license_class", "policy_mask",
    "privacy_class", "provenance_root", "row_end", "row_start", "waypoint_index"]

def init (waypointIndex generationRoot provenanceRoot causalSequence byteStart byteEnd rowStart rowEnd
    privacyClass licenseClass policyMask : Json) : Check PathWaypointReceipt := do
  let waypointIndex ← requireInt "waypoint_index" waypointIndex 0 uint64Max
  let generationRoot ← requireRoot "generation_root" generationRoot
  let provenanceRoot ← requireRoot "provenance_root" provenanceRoot
  let causalSequence ← requireInt "causal_sequence" causalSequence 0 uint64Max
  let byteStart ← requireInt "byte_start" byteStart 0 uint64Max
  let byteEnd ← requireInt "byte_end" byteEnd 0 uint64Max
  let rowStart ← requireInt "row_start" rowStart 0 uint64Max
  let rowEnd ← requireInt "row_end" rowEnd 0 uint64Max
  let privacyClass ← requireInt "privacy_class" privacyClass 0 uint16Max
  let licenseClass ← requireInt "license_class" licenseClass 0 uint16Max
  let policyMask ← requireInt "policy_mask" policyMask 0 uint64Max
  if h : byteStart.val < byteEnd.val ∧ rowStart.val < rowEnd.val then
    return ⟨waypointIndex, generationRoot, provenanceRoot, causalSequence, byteStart, byteEnd, rowStart,
      rowEnd, privacyClass, licenseClass, policyMask, h.1, h.2⟩
  else .error (plannerError "receipt waypoint spans must be non-empty")

def canonicalDict (waypoint : PathWaypointReceipt) : Dict :=
  [(lit "byte_end", natJson waypoint.byteEnd), (lit "byte_start", natJson waypoint.byteStart),
    (lit "causal_sequence", natJson waypoint.causalSequence),
    (lit "generation_root", rootJson waypoint.generationRoot),
    (lit "license_class", natJson waypoint.licenseClass),
    (lit "policy_mask", natJson waypoint.policyMask),
    (lit "privacy_class", natJson waypoint.privacyClass),
    (lit "provenance_root", rootJson waypoint.provenanceRoot),
    (lit "row_end", natJson waypoint.rowEnd), (lit "row_start", natJson waypoint.rowStart),
    (lit "waypoint_index", natJson waypoint.waypointIndex)]

/-- `PathWaypointReceipt(**_require_mapping_fields(item, ...))`. -/
def ofItem (item : Json) : Check PathWaypointReceipt := do
  let value ← requireMappingFields item keys "waypoint receipt"
  init (← getItem value "waypoint_index") (← getItem value "generation_root")
    (← getItem value "provenance_root") (← getItem value "causal_sequence")
    (← getItem value "byte_start") (← getItem value "byte_end") (← getItem value "row_start")
    (← getItem value "row_end") (← getItem value "privacy_class") (← getItem value "license_class")
    (← getItem value "policy_mask")

end PathWaypointReceipt

/-- A step of a path, with its cost. -/
structure PathEdgeReceipt where
  edgeIndex : UInt64Value
  sourceIndex : UInt64Value
  destinationIndex : UInt64Value
  operation : Bounded 1 uint16Max
  baseCost : UInt64Value
  learnedDelta : UInt32Value
  evidenceGain : UInt32Value
  creditedEvidenceGain : UInt64Value
  effectiveCost : UInt64Value
  hardEligibilityMask : UInt64Value
  subtotal_le : baseCost.val + learnedDelta.val ≤ uint64Max
  credited_eq : creditedEvidenceGain.val = min (baseCost.val + learnedDelta.val) evidenceGain.val
  effective_eq : effectiveCost.val = baseCost.val + learnedDelta.val - creditedEvidenceGain.val
deriving DecidableEq

namespace PathEdgeReceipt

/-- The fields that `from_bytes` requires. -/
def keys : List String :=
  ["base_cost", "credited_evidence_gain", "destination_index", "edge_index", "effective_cost",
    "evidence_gain", "hard_eligibility_mask", "learned_delta", "operation", "source_index"]

def init (edgeIndex sourceIndex destinationIndex operation baseCost learnedDelta evidenceGain
    creditedEvidenceGain effectiveCost hardEligibilityMask : Json) : Check PathEdgeReceipt := do
  let edgeIndex ← requireInt "edge_index" edgeIndex 0 uint64Max
  let sourceIndex ← requireInt "source_index" sourceIndex 0 uint64Max
  let destinationIndex ← requireInt "destination_index" destinationIndex 0 uint64Max
  let operation ← requireInt "operation" operation 1 uint16Max
  let baseCost ← requireInt "base_cost" baseCost 0 uint64Max
  let learnedDelta ← requireInt "learned_delta" learnedDelta 0 uint32Max
  let evidenceGain ← requireInt "evidence_gain" evidenceGain 0 uint32Max
  let credited ← requireInt "credited_evidence_gain" creditedEvidenceGain 0 uint64Max
  let effectiveCost ← requireInt "effective_cost" effectiveCost 0 uint64Max
  let mask ← requireInt "hard_eligibility_mask" hardEligibilityMask 0 uint64Max
  if hle : baseCost.val + learnedDelta.val ≤ uint64Max then
    if hcredited : credited.val = min (baseCost.val + learnedDelta.val) evidenceGain.val then
      if heffective : effectiveCost.val = baseCost.val + learnedDelta.val - credited.val then
        return ⟨edgeIndex, sourceIndex, destinationIndex, operation, baseCost, learnedDelta,
          evidenceGain, credited, effectiveCost, mask, hle, hcredited, heffective⟩
      else .error (plannerFault "receipt edge effective cost is inconsistent" .integrityFailure)
    else .error (plannerFault "receipt credited evidence gain is not canonical" .integrityFailure)
  else
    -- `_checked_add`
    .error (.planner (lit "receipt edge base plus learned cost overflows uint64") .integrityFailure)

def canonicalDict (edge : PathEdgeReceipt) : Dict :=
  [(lit "base_cost", natJson edge.baseCost),
    (lit "credited_evidence_gain", natJson edge.creditedEvidenceGain),
    (lit "destination_index", natJson edge.destinationIndex),
    (lit "edge_index", natJson edge.edgeIndex), (lit "effective_cost", natJson edge.effectiveCost),
    (lit "evidence_gain", natJson edge.evidenceGain),
    (lit "hard_eligibility_mask", natJson edge.hardEligibilityMask),
    (lit "learned_delta", natJson edge.learnedDelta), (lit "operation", natJson edge.operation),
    (lit "source_index", natJson edge.sourceIndex)]

/-- `PathEdgeReceipt(**_require_mapping_fields(item, ...))`. -/
def ofItem (item : Json) : Check PathEdgeReceipt := do
  let value ← requireMappingFields item keys "edge receipt"
  init (← getItem value "edge_index") (← getItem value "source_index")
    (← getItem value "destination_index") (← getItem value "operation")
    (← getItem value "base_cost") (← getItem value "learned_delta")
    (← getItem value "evidence_gain") (← getItem value "credited_evidence_gain")
    (← getItem value "effective_cost") (← getItem value "hard_eligibility_mask")

end PathEdgeReceipt

/-! ## The receipt -/

def pathTieBreakId : Str := lit "cost-steps-waypoints-operations-packed-edges-v1"

def pathCostContractId : Str := lit "u64-base-plus-u32-delta-minus-bounded-gain-v1"

def pathReceiptFormatId : Str := lit "tds-trace-path-receipt-v1"

def pathMaxReceiptBytes : Nat := 256 * 1024

/-- The roots that a receipt is bound to. -/
structure ReceiptRoots where
  requestRoot : Root
  servingEpochRoot : Digest
  graphRoot : Root
  datasetGenerationSetRoot : Root
  featureSchemaRoot : Root
  serverNamespaceRoot : Root
  graphAdmissionRoot : Root
  pathContextRoot : Root
  policyRoot : Root
  limitsRoot : Digest
  baselineManifestRoot : Digest
  authorityRoot : Digest
deriving DecidableEq

structure PathTotals where
  baseCost : UInt64Value
  learnedDelta : UInt64Value
  evidenceGain : UInt64Value
  creditedEvidenceGain : UInt64Value
  cost : UInt64Value
deriving DecidableEq

/-- The fields of `TraceRankPathReceipt`; `sentinel_outputs`, `tie_break_id` and `cost_contract_id` have
one admitted value each. -/
structure ReceiptFields where
  decision : TraceRankDecision
  fault : TraceRankFault
  roots : ReceiptRoots
  waypointPath : List PathWaypointReceipt
  edgePath : List PathEdgeReceipt
  totals : PathTotals
  expandedNodes : UInt64Value
  examinedEdges : UInt64Value
  exclusions : PathExclusionCounts
  budget : TraceRankPathBudget
deriving DecidableEq

/-- The loop over `zip(waypoint_path, edge_path, waypoint_path[1:])`. -/
def pathJoined : List PathWaypointReceipt → List PathEdgeReceipt → Bool
  | left :: right :: waypoints, edge :: edges =>
    edge.sourceIndex.val == left.waypointIndex.val &&
      edge.destinationIndex.val == right.waypointIndex.val &&
      pathJoined (right :: waypoints) edges
  | _, _ => true

/-- `sum(... for item in self.edge_path)`. -/
def sumEdges (edges : List PathEdgeReceipt) (part : PathEdgeReceipt → Nat) : Nat :=
  (edges.map part).sum

namespace ReceiptFields

/-- `expected_totals == actual_totals`; as the actual ones are 64-bit values, so are the expected. -/
def totalsMatch (receipt : ReceiptFields) : Bool :=
  sumEdges receipt.edgePath (·.baseCost) == receipt.totals.baseCost.val &&
    sumEdges receipt.edgePath (·.learnedDelta) == receipt.totals.learnedDelta.val &&
    sumEdges receipt.edgePath (·.evidenceGain) == receipt.totals.evidenceGain.val &&
    sumEdges receipt.edgePath (·.creditedEvidenceGain) == receipt.totals.creditedEvidenceGain.val &&
    sumEdges receipt.edgePath (·.effectiveCost) == receipt.totals.cost.val

/-- Something of a path is recorded. -/
def hasPath (receipt : ReceiptFields) : Bool :=
  receipt.waypointPath ≠ [] || receipt.edgePath ≠ [] || receipt.totals.baseCost.val ≠ 0 ||
    receipt.totals.learnedDelta.val ≠ 0 || receipt.totals.evidenceGain.val ≠ 0 ||
    receipt.totals.creditedEvidenceGain.val ≠ 0 || receipt.totals.cost.val ≠ 0

/-- The checks of `__post_init__` on a ranked receipt. -/
def checkRanked (receipt : ReceiptFields) : Check Unit := do
  raiseIf (receipt.fault ≠ .none) (plannerError "a ranked receipt cannot carry a fault")
  raiseIf (receipt.waypointPath = []) (plannerError "a ranked receipt requires waypoints")
  raiseIf (receipt.edgePath.length + 1 ≠ receipt.waypointPath.length)
    (plannerError "ranked path lengths are inconsistent")
  raiseIf (receipt.edgePath.length > receipt.budget.maxSteps.val)
    (plannerError "ranked path exceeds its step budget")
  raiseIf (pathJoined receipt.waypointPath receipt.edgePath = false)
    (plannerFault "receipt edge does not join adjacent waypoints" .integrityFailure)
  raiseIf (receipt.totalsMatch = false)
    (plannerFault "receipt path totals are inconsistent" .integrityFailure)
  raiseIf (receipt.totals.cost.val > receipt.budget.maxTotalCost.val)
    (plannerError "ranked path exceeds its cost budget")

/-- The checks of `__post_init__` on a receipt without a path. -/
def checkUnranked (receipt : ReceiptFields) : Check Unit := do
  raiseIf (receipt.decision = .abstain ∧ receipt.fault ≠ .boundExceeded)
    (plannerError "an abstention must identify bound exhaustion")
  raiseIf (receipt.decision = .fallback ∧ receipt.fault ≠ .none ∧ receipt.fault ≠ .policyRejected)
    (plannerError "fallback receipt carries an invalid fault")
  raiseIf (receipt.hasPath = true) (plannerError "non-ranked receipts cannot contain a path")

/-- The checks of `__post_init__` across fields. -/
def check (receipt : ReceiptFields) : Check Unit := do
  raiseIf (receipt.expandedNodes.val > receipt.budget.maxExpandedNodes.val)
    (plannerError "receipt expanded-node count exceeds its budget")
  raiseIf (receipt.examinedEdges.val > receipt.budget.maxExaminedEdges.val)
    (plannerError "receipt examined-edge count exceeds its budget")
  if receipt.decision = .ranked then receipt.checkRanked else receipt.checkUnranked

def canonicalDict (receipt : ReceiptFields) : Dict :=
  [(lit "budget", .obj receipt.budget.canonicalDict),
    (lit "authority_root", hexJson receipt.roots.authorityRoot),
    (lit "baseline_manifest_root", hexJson receipt.roots.baselineManifestRoot),
    (lit "cost_contract_id", .str pathCostContractId),
    (lit "dataset_generation_set_root", rootJson receipt.roots.datasetGenerationSetRoot),
    (lit "decision", .str receipt.decision.value),
    (lit "edge_path", .arr (receipt.edgePath.map fun item => .obj item.canonicalDict)),
    (lit "examined_edges", natJson receipt.examinedEdges),
    (lit "exclusions", .obj receipt.exclusions.canonicalDict),
    (lit "expanded_nodes", natJson receipt.expandedNodes),
    (lit "fault", .str receipt.fault.value),
    (lit "feature_schema_root", rootJson receipt.roots.featureSchemaRoot),
    (lit "format_id", .str pathReceiptFormatId),
    (lit "graph_admission_root", rootJson receipt.roots.graphAdmissionRoot),
    (lit "graph_root", rootJson receipt.roots.graphRoot),
    (lit "limits_root", hexJson receipt.roots.limitsRoot),
    (lit "path_context_root", rootJson receipt.roots.pathContextRoot),
    (lit "policy_root", rootJson receipt.roots.policyRoot),
    (lit "request_root", rootJson receipt.roots.requestRoot),
    (lit "sentinel_outputs", .arr []),
    (lit "server_namespace_root", rootJson receipt.roots.serverNamespaceRoot),
    (lit "serving_epoch_root", hexJson receipt.roots.servingEpochRoot),
    (lit "tie_break_id", .str pathTieBreakId),
    (lit "total_base_cost", natJson receipt.totals.baseCost),
    (lit "total_cost", natJson receipt.totals.cost),
    (lit "total_credited_evidence_gain", natJson receipt.totals.creditedEvidenceGain),
    (lit "total_evidence_gain", natJson receipt.totals.evidenceGain),
    (lit "total_learned_delta", natJson receipt.totals.learnedDelta),
    (lit "waypoint_path", .arr (receipt.waypointPath.map fun item => .obj item.canonicalDict))]

end ReceiptFields

/-- A receipt that passed its checks. -/
structure TraceRankPathReceipt extends ReceiptFields where
  checked : toReceiptFields.check = .ok ()
deriving DecidableEq

/-- `isinstance(value, list)`, or a `TypeError`. -/
def requireList : Json → Check (List Json)
  | .arr items => .ok items
  | _ => .error (.builtin .typeError)

/-- `TraceRankDecision(value)`. -/
def decisionOf : Json → Check TraceRankDecision
  | .str s =>
    match TraceRankDecision.ofValue s with
    | some decision => .ok decision
    | none => .error (.builtin .valueError)
  | _ => .error (.builtin .valueError)

/-- `TraceRankFault(value)`. -/
def faultOf : Json → Check TraceRankFault
  | .str s =>
    match TraceRankFault.ofValue s with
    | some fault => .ok fault
    | none => .error (.builtin .valueError)
  | _ => .error (.builtin .valueError)

/-- `value != expected` for a string. -/
def differs (value : Json) (expected : Str) : Bool :=
  match value with
  | .str s => s != expected
  | _ => true

namespace TraceRankPathReceipt

/-- The fields that `from_bytes` requires. -/
def keys : List String :=
  ["authority_root", "baseline_manifest_root", "budget", "cost_contract_id",
    "dataset_generation_set_root", "decision", "edge_path", "examined_edges", "exclusions",
    "expanded_nodes", "fault", "feature_schema_root", "format_id", "graph_admission_root", "graph_root",
    "limits_root", "path_context_root", "policy_root", "request_root", "sentinel_outputs",
    "server_namespace_root", "serving_epoch_root", "tie_break_id", "total_base_cost", "total_cost",
    "total_credited_evidence_gain", "total_evidence_gain", "total_learned_delta", "waypoint_path"]

/-- The constructor, on fields whose own validators have passed. -/
def ofFields (fields : ReceiptFields) : Check TraceRankPathReceipt :=
  match h : fields.check with
  | .ok () => .ok ⟨fields, h⟩
  | .error error => .error error

/-- The constructor, on the values of a dictionary; the nested records come first. -/
def init (value : Dict) (sentinelOutputs : List Json) (decision : TraceRankDecision)
    (fault : TraceRankFault) (waypointPath : List PathWaypointReceipt) (edgePath : List PathEdgeReceipt)
    (exclusions : PathExclusionCounts) (budget : TraceRankPathBudget) : Check TraceRankPathReceipt := do
  let requestRoot ← requireRoot "request_root" (← getItem value "request_root")
  let servingEpochRoot ← requireHexRoot "serving_epoch_root" (← getItem value "serving_epoch_root")
  let graphRoot ← requireRoot "graph_root" (← getItem value "graph_root")
  let datasetRoot ← requireRoot "dataset_generation_set_root"
    (← getItem value "dataset_generation_set_root")
  let featureRoot ← requireRoot "feature_schema_root" (← getItem value "feature_schema_root")
  let serverRoot ← requireRoot "server_namespace_root" (← getItem value "server_namespace_root")
  let admissionRoot ← requireRoot "graph_admission_root" (← getItem value "graph_admission_root")
  let contextRoot ← requireRoot "path_context_root" (← getItem value "path_context_root")
  let policyRoot ← requireRoot "policy_root" (← getItem value "policy_root")
  let limitsRoot ← requireHexRoot "limits_root" (← getItem value "limits_root")
  let manifestRoot ← requireHexRoot "baseline_manifest_root" (← getItem value "baseline_manifest_root")
  let authority ← requireHexRoot "authority_root" (← getItem value "authority_root")
  let baseCost ← requireInt "total_base_cost" (← getItem value "total_base_cost") 0 uint64Max
  let learnedDelta ← requireInt "total_learned_delta" (← getItem value "total_learned_delta") 0 uint64Max
  let evidenceGain ← requireInt "total_evidence_gain" (← getItem value "total_evidence_gain") 0 uint64Max
  let credited ← requireInt "total_credited_evidence_gain"
    (← getItem value "total_credited_evidence_gain") 0 uint64Max
  let cost ← requireInt "total_cost" (← getItem value "total_cost") 0 uint64Max
  let expanded ← requireInt "expanded_nodes" (← getItem value "expanded_nodes") 0 uint64Max
  let examined ← requireInt "examined_edges" (← getItem value "examined_edges") 0 uint64Max
  raiseIf (sentinelOutputs.isEmpty = false)
    (plannerFault "Phase-5 receipt cannot contain sentinel output" .policyRejected)
  raiseIf (differs (← getItem value "tie_break_id") pathTieBreakId = true)
    (plannerError "unsupported path tie-break identity")
  raiseIf (differs (← getItem value "cost_contract_id") pathCostContractId = true)
    (plannerError "unsupported path cost identity")
  ofFields ⟨decision, fault,
    ⟨requestRoot, servingEpochRoot, graphRoot, datasetRoot, featureRoot, serverRoot, admissionRoot,
      contextRoot, policyRoot, limitsRoot, manifestRoot, authority⟩,
    waypointPath, edgePath, ⟨baseCost, learnedDelta, evidenceGain, credited, cost⟩, expanded, examined,
    exclusions, budget⟩

/-- The part of `from_bytes` that reads a decoded value. -/
def ofDecoded (decoded : Json) : Check TraceRankPathReceipt := do
  let value ← requireMappingFields decoded keys "path receipt"
  raiseIf (differs (← getItem value "format_id") pathReceiptFormatId = true)
    (plannerFault "unsupported path receipt format" .integrityFailure)
  let budgetValue ← requireMappingFields (← getItem value "budget") TraceRankPathBudget.keys "path budget"
  let exclusionValue ← requireMappingFields (← getItem value "exclusions") PathExclusionCounts.keys
    "path exclusions"
  let waypointValues ← requireList (← getItem value "waypoint_path")
  let edgeValues ← requireList (← getItem value "edge_path")
  let sentinelValues ← requireList (← getItem value "sentinel_outputs")
  let decision ← decisionOf (← getItem value "decision")
  let fault ← faultOf (← getItem value "fault")
  let waypointPath ← waypointValues.mapM PathWaypointReceipt.ofItem
  let edgePath ← edgeValues.mapM PathEdgeReceipt.ofItem
  let exclusions ← PathExclusionCounts.init exclusionValue
  let budget ← TraceRankPathBudget.init budgetValue
  init value sentinelValues decision fault waypointPath edgePath exclusions budget

/-- The `except` clauses of `from_bytes`: a `TraceRankPlannerError` passes, and so does a
`RecursionError`, which no clause names. -/
def malformedUnlessPlanner (error : Error) : Error :=
  match error with
  | .builtin .recursionError => error
  | .builtin _ => plannerFault "path receipt payload is malformed" .integrityFailure
  | _ => error

section Bytes

variable [Runtime]

/-- The octets of a receipt that is not too long. -/
def canonicalBytes (receipt : TraceRankPathReceipt) : Check Bytes := do
  let result := Generation.canonicalBytes (.obj receipt.canonicalDict)
  raiseIf (result.length > pathMaxReceiptBytes)
    (plannerFault "canonical path receipt exceeds its byte bound" .boundExceeded)
  return result

/-- `json.loads(data.decode("ascii"), parse_constant=reject_constant)`. -/
def decodePayload (data : Bytes) : Check Json :=
  match decodeAscii data with
  | none => .error (.builtin .valueError)
  | some text =>
    match loadsFinite text with
    | .ok decoded => .ok decoded
    | .error .recursion => .error (.builtin .recursionError)
    | .error _ => .error (.builtin .valueError)

/-- Reads a receipt; its octets have to be canonical. -/
def fromBytes (data : Bytes) : Check TraceRankPathReceipt := do
  raiseIf (data.length > pathMaxReceiptBytes)
    (plannerFault "path receipt payload exceeds its byte bound" .boundExceeded)
  let receipt ← (decodePayload data >>= ofDecoded).mapError malformedUnlessPlanner
  raiseIf ((← receipt.canonicalBytes) ≠ data)
    (plannerFault "path receipt bytes are not canonical" .integrityFailure)
  return receipt

end Bytes

end TraceRankPathReceipt

end TraceRank
