import Tds.Generation.Proofs.Manifest
import Tds.TraceRank.Receipt

/-!
# Receipts and their canonical bytes

A receipt whose canonical text is within the byte bound is read back from its bytes, and what is read is
the canonical encoding of the receipt that is returned.
-/

namespace TraceRank

open Python List ReceiptFields
open Generation (Root Bounded Dict rootText parseRoot rootJson natJson sameKeys sortedFields)

/-! ## Checks of single fields -/

@[simp] theorem raiseIf_eq_ok {c : Prop} [Decidable c] {e : Error} {u : Unit} :
    raiseIf c e = .ok u ↔ ¬ c := by
  unfold raiseIf
  by_cases h : c <;> simp [h]

theorem raiseIf_neg {c : Prop} [Decidable c] (h : ¬ c) (e : Error) : raiseIf c e = .ok () :=
  if_neg h

theorem requireInt_natJson (label : String) {minimum maximum : Nat} (n : Bounded minimum maximum) :
    requireInt label (natJson n) minimum maximum = .ok n := by
  unfold requireInt natJson
  dsimp only
  rw [dif_pos ⟨by exact_mod_cast n.2.1, by exact_mod_cast n.2.2⟩]
  rfl

theorem requireRoot_rootJson (name : String) (root : Root) :
    requireRoot name (rootJson root) = .ok root := by
  unfold requireRoot rootJson
  dsimp only
  rw [Generation.parseRoot_rootText]

variable (root : Digest)

theorem parseHexRoot_hex : parseHexRoot root.hex = some root := by
  unfold parseHexRoot
  simp only [Digest.hex, bytesOfHex_hexOfBytes, bind, Option.bind]
  rw [dif_pos root.length_eq]

theorem requireHexRoot_hexJson (name : String) (root : Digest) :
    requireHexRoot name (hexJson root) = .ok root := by
  unfold requireHexRoot hexJson
  dsimp only
  rw [parseHexRoot_hex]

theorem decisionOf_value (decision : TraceRankDecision) :
    decisionOf (.str decision.value) = .ok decision := by
  cases decision <;> rfl

theorem faultOf_value (fault : TraceRankFault) : faultOf (.str fault.value) = .ok fault := by
  cases fault <;> rfl

theorem differs_self (s : Str) : differs (.str s) s = false := by
  simp [differs]

theorem sorted_hexJson : (hexJson root).sorted = hexJson root := by
  simp only [hexJson, Json.sorted]

theorem getItem_sortedFields {d : Dict} (hnd : (d.map Prod.fst).Nodup) (key : String) :
    getItem (sortedFields d) key = (getItem d key).map Json.sorted := by
  rw [getItem, getItem, Generation.dictGet_sortedFields hnd]
  cases dictGet d (lit key) <;> rfl

/-- A record with the expected keys passes the check of its keys after it was written and read. -/
theorem requireMappingFields_sorted {d : Dict} {expected : List String}
    (h : sameKeys d expected = true) (description : String) :
    requireMappingFields (Json.obj d).sorted expected description = .ok (sortedFields d) := by
  rw [Generation.sorted_dict]
  unfold requireMappingFields
  dsimp only
  rw [Generation.sameKeys_sortedFields, h, if_pos rfl]

/-! ## Plain values -/

theorem plain_natJson {minimum maximum : Nat} (h : maximum ≤ uint64Max) (n : Bounded minimum maximum)
    (d : Nat) : (natJson n).Plain d := by
  refine .int d n.1 ?_
  have hlen : (printNat n.1).length ≤ 20 :=
    length_printNat_le (lt_of_le_of_lt (n.2.2.trans h) (by decide)) (by omega)
  exact hlen.trans (by decide)

theorem plain_uint64 {minimum : Nat} (n : Bounded minimum uint64Max) (d : Nat) : (natJson n).Plain d :=
  plain_natJson (le_refl _) n d

theorem plain_uint32 (n : UInt32Value) (d : Nat) : (natJson n).Plain d :=
  plain_natJson (by decide) n d

theorem plain_uint16 {minimum : Nat} (n : Bounded minimum uint16Max) (d : Nat) : (natJson n).Plain d :=
  plain_natJson (by decide) n d

theorem plain_hexJson (d : Nat) : (hexJson root).Plain d := by
  refine .str d _ fun c hc => isScalar_of_lt ?_
  have hbounds := hexOfBytes_bounds root.bytes c hc
  omega

namespace TraceRankPathBudget

variable (budget : TraceRankPathBudget)

theorem nodup_canonicalDict :
    (budget.canonicalDict.map Prod.fst).Nodup := by
  simp [canonicalDict, lit_inj]

theorem sameKeys_canonicalDict :
    sameKeys budget.canonicalDict keys = true := by
  simp [sameKeys, canonicalDict, keys, lit_inj]

theorem plain_canonicalDict (d : Nat) :
    (Json.obj budget.canonicalDict).Plain (d + 1) := by
  refine plain_dict budget.nodup_canonicalDict
    (by simp only [canonicalDict, map_cons]; decide) ?_
  simp only [canonicalDict, forall_mem_cons]
  exact ⟨plain_uint64 _ d, plain_uint64 _ d, plain_uint64 _ d, plain_uint64 _ d, by simp⟩

theorem init_sortedFields :
    init (sortedFields budget.canonicalDict) = .ok budget := by
  simp only [init, getItem_sortedFields budget.nodup_canonicalDict]
  simp only [getItem, canonicalDict, dictGet, lit_inj, String.reduceEq, ↓reduceIte, map_ok,
    Generation.sorted_natJson, ok_bind]
  simp only [requireInt_natJson, ok_bind]
  rfl

end TraceRankPathBudget

namespace PathExclusionCounts

variable (counts : PathExclusionCounts)

theorem nodup_canonicalDict :
    (counts.canonicalDict.map Prod.fst).Nodup := by
  simp [canonicalDict, lit_inj]

theorem sameKeys_canonicalDict :
    sameKeys counts.canonicalDict keys = true := by
  simp [sameKeys, canonicalDict, keys, lit_inj]

theorem plain_canonicalDict (d : Nat) :
    (Json.obj counts.canonicalDict).Plain (d + 1) := by
  refine plain_dict counts.nodup_canonicalDict
    (by simp only [canonicalDict, map_cons]; decide) ?_
  simp only [canonicalDict, forall_mem_cons]
  exact ⟨plain_uint64 _ d, plain_uint64 _ d, plain_uint64 _ d, plain_uint64 _ d, plain_uint64 _ d,
    plain_uint64 _ d, plain_uint64 _ d, by simp⟩

theorem init_sortedFields :
    init (sortedFields counts.canonicalDict) = .ok counts := by
  simp only [init, getItem_sortedFields counts.nodup_canonicalDict]
  simp only [getItem, canonicalDict, dictGet, lit_inj, String.reduceEq, ↓reduceIte, map_ok,
    Generation.sorted_natJson, ok_bind]
  simp only [requireInt_natJson, ok_bind]
  rfl

end PathExclusionCounts

namespace PathWaypointReceipt

variable (waypoint : PathWaypointReceipt)

theorem nodup_canonicalDict :
    (waypoint.canonicalDict.map Prod.fst).Nodup := by
  simp [canonicalDict, lit_inj]

theorem sameKeys_canonicalDict :
    sameKeys waypoint.canonicalDict keys = true := by
  simp [sameKeys, canonicalDict, keys, lit_inj]

theorem plain_canonicalDict :
    (Json.obj waypoint.canonicalDict).Plain 1 := by
  refine plain_dict waypoint.nodup_canonicalDict
    (by simp only [canonicalDict, map_cons]; decide) ?_
  simp only [canonicalDict, forall_mem_cons]
  exact ⟨plain_uint64 _ 0, plain_uint64 _ 0, plain_uint64 _ 0, Generation.plain_rootJson _ 0,
    plain_uint16 _ 0, plain_uint64 _ 0, plain_uint16 _ 0, Generation.plain_rootJson _ 0,
    plain_uint64 _ 0, plain_uint64 _ 0, plain_uint64 _ 0, by simp⟩

theorem init_self :
    init (natJson waypoint.waypointIndex) (rootJson waypoint.generationRoot)
      (rootJson waypoint.provenanceRoot) (natJson waypoint.causalSequence)
      (natJson waypoint.byteStart) (natJson waypoint.byteEnd) (natJson waypoint.rowStart)
      (natJson waypoint.rowEnd) (natJson waypoint.privacyClass) (natJson waypoint.licenseClass)
      (natJson waypoint.policyMask) = .ok waypoint := by
  simp only [init, requireRoot_rootJson, requireInt_natJson, ok_bind]
  rw [dif_pos ⟨waypoint.bytes_lt, waypoint.rows_lt⟩]
  rfl

theorem ofItem_sorted :
    ofItem (Json.obj waypoint.canonicalDict).sorted = .ok waypoint := by
  rw [ofItem, requireMappingFields_sorted waypoint.sameKeys_canonicalDict, ok_bind]
  simp only [getItem_sortedFields waypoint.nodup_canonicalDict]
  simp only [getItem, canonicalDict, dictGet, lit_inj, String.reduceEq, ↓reduceIte, map_ok,
    Generation.sorted_natJson, Generation.sorted_rootJson, ok_bind]
  exact waypoint.init_self

end PathWaypointReceipt

namespace PathEdgeReceipt

variable (edge : PathEdgeReceipt)

theorem nodup_canonicalDict : (edge.canonicalDict.map Prod.fst).Nodup := by
  simp [canonicalDict, lit_inj]

theorem sameKeys_canonicalDict :
    sameKeys edge.canonicalDict keys = true := by
  simp [sameKeys, canonicalDict, keys, lit_inj]

theorem plain_canonicalDict : (Json.obj edge.canonicalDict).Plain 1 := by
  refine plain_dict edge.nodup_canonicalDict
    (by simp only [canonicalDict, map_cons]; decide) ?_
  simp only [canonicalDict, forall_mem_cons]
  exact ⟨plain_uint64 _ 0, plain_uint64 _ 0, plain_uint64 _ 0, plain_uint64 _ 0, plain_uint64 _ 0,
    plain_uint32 _ 0, plain_uint64 _ 0, plain_uint32 _ 0, plain_uint16 _ 0, plain_uint64 _ 0, by simp⟩

theorem init_self :
    init (natJson edge.edgeIndex) (natJson edge.sourceIndex) (natJson edge.destinationIndex)
      (natJson edge.operation) (natJson edge.baseCost) (natJson edge.learnedDelta)
      (natJson edge.evidenceGain) (natJson edge.creditedEvidenceGain) (natJson edge.effectiveCost)
      (natJson edge.hardEligibilityMask) = .ok edge := by
  simp only [init, requireInt_natJson, ok_bind]
  rw [dif_pos edge.subtotal_le, dif_pos edge.credited_eq, dif_pos edge.effective_eq]
  rfl

theorem ofItem_sorted :
    ofItem (Json.obj edge.canonicalDict).sorted = .ok edge := by
  rw [ofItem, requireMappingFields_sorted edge.sameKeys_canonicalDict, ok_bind]
  simp only [getItem_sortedFields edge.nodup_canonicalDict]
  simp only [getItem, canonicalDict, dictGet, lit_inj, String.reduceEq, ↓reduceIte, map_ok,
    Generation.sorted_natJson, ok_bind]
  exact edge.init_self

end PathEdgeReceipt

namespace TraceRankPathReceipt

variable (receipt : ReceiptFields)

theorem nodup_canonicalDict :
    (receipt.canonicalDict.map Prod.fst).Nodup := by
  simp [canonicalDict, lit_inj]

theorem sameKeys_canonicalDict :
    sameKeys receipt.canonicalDict keys = true := by
  simp [sameKeys, canonicalDict, keys, lit_inj]

theorem plain_records {α : Type} {items : List α} {dict : α → Dict}
    (h : ∀ a, (Json.obj (dict a)).Plain 1) : (Json.arr (items.map fun a => .obj (dict a))).Plain 2 := by
  refine .arr 1 _ fun v hv => ?_
  obtain ⟨a, -, rfl⟩ := mem_map.mp hv
  exact h a

theorem plain_canonicalDict : (Json.obj receipt.canonicalDict).Plain 3 := by
  refine plain_dict (nodup_canonicalDict receipt)
    (by simp only [canonicalDict, map_cons]; decide) ?_
  have hnat : ∀ n : UInt64Value, (natJson n).Plain 2 := fun n => plain_uint64 n 2
  have hroot : ∀ root : Root, (rootJson root).Plain 2 := fun root => Generation.plain_rootJson root 2
  have hhex : ∀ root : Digest, (hexJson root).Plain 2 := fun root => plain_hexJson root 2
  have hdecision : (Json.str receipt.decision.value).Plain 2 :=
    .str 2 _ (by cases receipt.decision <;> decide)
  have hfault : (Json.str receipt.fault.value).Plain 2 :=
    .str 2 _ (by cases receipt.fault <;> decide)
  simp only [canonicalDict, forall_mem_cons]
  exact ⟨receipt.budget.plain_canonicalDict 1, hhex _, hhex _, .str 2 _ (by decide),
    hroot _, hdecision, plain_records PathEdgeReceipt.plain_canonicalDict, hnat _,
    receipt.exclusions.plain_canonicalDict 1, hnat _, hfault, hroot _,
    .str 2 _ (by decide), hroot _, hroot _, hhex _, hroot _, hroot _, hroot _,
    .arr 1 [] (by simp), hroot _, hhex _, .str 2 _ (by decide), hnat _, hnat _, hnat _, hnat _,
    hnat _, plain_records PathWaypointReceipt.plain_canonicalDict, by simp⟩

theorem mapM_sorted {α : Type} {dict : α → Dict} {read : Json → Check α}
    (h : ∀ a, read (Json.obj (dict a)).sorted = .ok a) (items : List α) :
    ((items.map fun a => Json.obj (dict a)).map Json.sorted).mapM read = .ok items := by
  induction items with
  | nil => rfl
  | cons a items ih =>
    rw [map_cons, map_cons, mapM_cons, h a, ok_bind, ih]
    rfl

variable (receipt : TraceRankPathReceipt)

theorem ofFields_self :
    ofFields receipt.toReceiptFields = .ok receipt := by
  unfold ofFields
  split
  · rfl
  · next error h =>
    rw [receipt.checked] at h
    cases h

theorem init_sortedFields :
    init (sortedFields receipt.canonicalDict) [] receipt.decision receipt.fault receipt.waypointPath
      receipt.edgePath receipt.exclusions receipt.budget = .ok receipt := by
  simp only [init, getItem_sortedFields (nodup_canonicalDict receipt.toReceiptFields)]
  simp only [getItem, canonicalDict, dictGet, lit_inj, String.reduceEq, ↓reduceIte,
    map_ok, Generation.sorted_natJson, Generation.sorted_rootJson, sorted_hexJson,
    Generation.sorted_str, ok_bind]
  simp only [requireRoot_rootJson, requireHexRoot_hexJson, requireInt_natJson, ok_bind, differs_self]
  rw [raiseIf_neg (by simp), ok_bind, raiseIf_neg (by simp), ok_bind, raiseIf_neg (by simp), ok_bind]
  exact receipt.ofFields_self

theorem ofDecoded_sorted :
    ofDecoded (Json.obj receipt.canonicalDict).sorted = .ok receipt := by
  have hget : ∀ key {v}, getItem receipt.canonicalDict key = .ok v →
      getItem (sortedFields receipt.canonicalDict) key = .ok v.sorted := by
    intro key v hv
    rw [getItem_sortedFields (nodup_canonicalDict receipt.toReceiptFields), hv, map_ok]
  have hformat := hget "format_id" rfl
  have hbudget := hget "budget" rfl
  have hexclusions := hget "exclusions" rfl
  have hwaypoints := hget "waypoint_path" rfl
  have hedges := hget "edge_path" rfl
  have hsentinel := hget "sentinel_outputs" rfl
  have hdecision := hget "decision" rfl
  have hfault := hget "fault" rfl
  rw [Generation.sorted_str] at hformat hdecision hfault
  rw [sorted_arr] at hwaypoints hedges hsentinel
  rw [map_nil] at hsentinel
  have hinit := receipt.init_sortedFields
  rw [ofDecoded, requireMappingFields_sorted (sameKeys_canonicalDict receipt.toReceiptFields), ok_bind]
  generalize sortedFields receipt.canonicalDict = value at *
  rw [hformat, ok_bind, differs_self, raiseIf_neg (by simp), ok_bind, hbudget, ok_bind,
    requireMappingFields_sorted receipt.budget.sameKeys_canonicalDict, ok_bind, hexclusions, ok_bind,
    requireMappingFields_sorted receipt.exclusions.sameKeys_canonicalDict, ok_bind, hwaypoints, ok_bind,
    requireList, ok_bind, hedges, ok_bind, requireList, ok_bind, hsentinel, ok_bind, requireList,
    ok_bind, hdecision, ok_bind, decisionOf_value, ok_bind, hfault, ok_bind, faultOf_value, ok_bind,
    mapM_sorted PathWaypointReceipt.ofItem_sorted, ok_bind,
    mapM_sorted PathEdgeReceipt.ofItem_sorted, ok_bind, receipt.exclusions.init_sortedFields, ok_bind,
    receipt.budget.init_sortedFields, ok_bind, hinit]

section Bytes

variable [Runtime]

theorem decodePayload_canonicalBytes (receipt : ReceiptFields) :
    decodePayload (Generation.canonicalBytes (.obj receipt.canonicalDict)) =
      .ok (Json.obj receipt.canonicalDict).sorted := by
  have hplain := plain_canonicalDict receipt
  rw [decodePayload, Generation.canonicalBytes, decodeAscii_encodeAscii (printable_print hplain)]
  dsimp only
  rw [hplain.regular.loadsFinite_print (by omega)]

variable {receipt : TraceRankPathReceipt} {data : Bytes}

theorem canonicalBytes_eq_ok :
    receipt.canonicalBytes = .ok data ↔
      Generation.canonicalBytes (.obj receipt.canonicalDict) = data ∧
        data.length ≤ pathMaxReceiptBytes := by
  simp only [canonicalBytes, bind_eq_ok, raiseIf_eq_ok, exists_unit, pure_eq_ok, Except.ok.injEq, not_lt]
  constructor
  · rintro ⟨hle, rfl⟩
    exact ⟨rfl, hle⟩
  · rintro ⟨rfl, hle⟩
    exact ⟨hle, rfl⟩

theorem fromBytes_of_canonicalBytes (h : receipt.canonicalBytes = .ok data) :
    fromBytes data = .ok receipt := by
  obtain ⟨hdata, hle⟩ := canonicalBytes_eq_ok.mp h
  have hdecode : (decodePayload data >>= ofDecoded).mapError malformedUnlessPlanner = .ok receipt := by
    rw [← hdata, decodePayload_canonicalBytes, ok_bind, ofDecoded_sorted]
    rfl
  rw [fromBytes, raiseIf_neg (by omega), ok_bind, hdecode, ok_bind, h, ok_bind,
    raiseIf_neg (by simp), ok_bind]
  rfl

theorem canonicalBytes_of_fromBytes (h : fromBytes data = .ok receipt) :
    receipt.canonicalBytes = .ok data := by
  simp only [fromBytes, bind_eq_ok, raiseIf_eq_ok, exists_unit] at h
  obtain ⟨-, result, -, bytes, hbytes, heq, hresult⟩ := h
  cases hresult
  rw [hbytes, not_not.mp heq]

theorem canonicalBytes_eq_error (error : Error) :
    receipt.canonicalBytes = .error error ↔
      pathMaxReceiptBytes < (Generation.canonicalBytes (.obj receipt.canonicalDict)).length ∧
        error = plannerFault "canonical path receipt exceeds its byte bound" .boundExceeded := by
  rw [canonicalBytes, raiseIf]
  split
  · next hlong => exact ⟨fun h => ⟨hlong, (Except.error.inj h).symm⟩, fun h => by rw [h.2]; rfl⟩
  · next hshort => exact iff_of_false (fun h => by cases h) fun h => hshort h.1

/-- **Receipts and bytes.** The canonical bytes of a receipt raise just when its JSON is beyond the byte
bound; otherwise it is read back from them. Every byte string that is read is the canonical encoding of
the receipt that is returned. -/
theorem fromBytes_exact :
    (∀ receipt : TraceRankPathReceipt, (∃ error, receipt.canonicalBytes = .error error) ↔
      pathMaxReceiptBytes < (Generation.canonicalBytes (.obj receipt.canonicalDict)).length) ∧
    (∀ receipt : TraceRankPathReceipt, (receipt.canonicalBytes >>= fromBytes) = .ok receipt ↔
      (Generation.canonicalBytes (.obj receipt.canonicalDict)).length ≤ pathMaxReceiptBytes) ∧
    ∀ data receipt, fromBytes data = .ok receipt → receipt.canonicalBytes = .ok data := by
  refine ⟨fun receipt => ?_, fun receipt => ?_, fun data receipt h => canonicalBytes_of_fromBytes h⟩
  · simp only [canonicalBytes_eq_error, exists_and_left, exists_eq, and_true]
  constructor
  · intro h
    obtain ⟨data, hdata, -⟩ := bind_eq_ok.mp h
    obtain ⟨rfl, hle⟩ := canonicalBytes_eq_ok.mp hdata
    exact hle
  · intro hle
    have hdata := canonicalBytes_eq_ok.mpr ⟨rfl, hle⟩
    rw [hdata, ok_bind, fromBytes_of_canonicalBytes hdata]

end Bytes

end TraceRankPathReceipt

/-! ## A receipt beyond the byte bound -/

section Long

variable (root : Digest)

def firstWaypoint : PathWaypointReceipt where
  waypointIndex := ⟨0, by decide⟩
  generationRoot := root
  provenanceRoot := root
  causalSequence := ⟨0, by decide⟩
  byteStart := ⟨0, by decide⟩
  byteEnd := ⟨1, by decide⟩
  rowStart := ⟨0, by decide⟩
  rowEnd := ⟨1, by decide⟩
  privacyClass := ⟨0, by decide⟩
  licenseClass := ⟨0, by decide⟩
  policyMask := ⟨0, by decide⟩
  bytes_lt := by decide
  rows_lt := by decide

/-- An edge from the first waypoint to itself that costs nothing. -/
def freeEdge : PathEdgeReceipt where
  edgeIndex := ⟨0, by decide⟩
  sourceIndex := ⟨0, by decide⟩
  destinationIndex := ⟨0, by decide⟩
  operation := ⟨1, by decide⟩
  baseCost := ⟨0, by decide⟩
  learnedDelta := ⟨0, by decide⟩
  evidenceGain := ⟨0, by decide⟩
  creditedEvidenceGain := ⟨0, by decide⟩
  effectiveCost := ⟨0, by decide⟩
  hardEligibilityMask := ⟨0, by decide⟩
  subtotal_le := by decide
  credited_eq := by decide
  effective_eq := by decide

/-- The fields of a ranked receipt that goes around the free edge `steps` times. -/
def loopFields (steps : Bounded 1 uint64Max) : ReceiptFields where
  decision := .ranked
  fault := .none
  roots := ⟨root, root, root, root, root, root, root, root, root, root, root, root⟩
  waypointPath := List.replicate (steps.val + 1) (firstWaypoint root)
  edgePath := List.replicate steps.val freeEdge
  totals := ⟨⟨0, by decide⟩, ⟨0, by decide⟩, ⟨0, by decide⟩, ⟨0, by decide⟩, ⟨0, by decide⟩⟩
  expandedNodes := ⟨0, by decide⟩
  examinedEdges := ⟨0, by decide⟩
  exclusions := ⟨⟨0, by decide⟩, ⟨0, by decide⟩, ⟨0, by decide⟩, ⟨0, by decide⟩, ⟨0, by decide⟩,
    ⟨0, by decide⟩, ⟨0, by decide⟩⟩
  budget := ⟨⟨1, by decide⟩, ⟨1, by decide⟩, steps, ⟨0, by decide⟩⟩

theorem pathJoined_loop (steps : Nat) :
    pathJoined (replicate (steps + 1) (firstWaypoint root)) (replicate steps freeEdge) =
      true := by
  induction steps with
  | zero => rfl
  | succ steps ih =>
    rw [replicate_succ, replicate_succ, replicate_succ, pathJoined,
      ← replicate_succ, ih]
    rfl

theorem sumEdges_loop (steps : Nat) {part : PathEdgeReceipt → Nat} (h : part freeEdge = 0) :
    sumEdges (replicate steps freeEdge) part = 0 := by
  rw [sumEdges, map_replicate, h]
  simp

theorem check_loopFields (steps : Bounded 1 uint64Max) : (loopFields root steps).check = .ok () := by
  have hranked : (loopFields root steps).checkRanked = .ok () := by
    have htotals : (loopFields root steps).totalsMatch = true := by
      simp only [totalsMatch, loopFields]
      rw [sumEdges_loop _ rfl, sumEdges_loop _ rfl, sumEdges_loop _ rfl, sumEdges_loop _ rfl,
        sumEdges_loop _ rfl]
      rfl
    have hjoined : pathJoined (loopFields root steps).waypointPath (loopFields root steps).edgePath =
        true := pathJoined_loop root steps.val
    rw [checkRanked, htotals, hjoined]
    simp [loopFields, raiseIf]
  rw [check, hranked]
  rfl

/-- A receipt that goes around the free edge `steps` times. -/
def loopReceipt (steps : Bounded 1 uint64Max) : TraceRankPathReceipt :=
  ⟨loopFields root steps, check_loopFields root steps⟩

variable [Runtime]

theorem length_print_arr_ge (items : List Json) : items.length ≤ (Json.arr items).print.length := by
  rw [print_arr, cons_append, length_cons, length_append, Generation.length_joinComma,
    length_map]
  omega

theorem length_loopReceipt (steps : Bounded 1 uint64Max) :
    steps.val < (Generation.canonicalBytes (.obj (loopReceipt root steps).canonicalDict)).length := by
  rw [Generation.length_canonicalBytes, Generation.length_print_obj]
  have hmem : (lit "waypoint_path", Json.arr ((loopReceipt root steps).waypointPath.map
      fun item => .obj item.canonicalDict)) ∈ (loopReceipt root steps).canonicalDict := by
    simp only [canonicalDict, mem_cons, true_or, or_true]
  have hitem := length_print_arr_ge ((loopReceipt root steps).waypointPath.map
    fun item => Json.obj item.canonicalDict)
  have hlength : ((loopReceipt root steps).waypointPath.map
      fun item => Json.obj item.canonicalDict).length = steps.val + 1 := by
    rw [length_map]
    exact length_replicate ..
  rw [hlength] at hitem
  obtain ⟨before, after, hsplit⟩ := append_of_mem hmem
  rw [hsplit, map_append, sum_append, map_cons, sum_cons]
  dsimp only
  omega

end Long

section Sample

attribute [local instance] Generation.sampleRuntime

/-- A valid receipt of many steps has no canonical bytes, so it is not read back from them. -/
theorem canonicalBytes_of_long : ∃ receipt : TraceRankPathReceipt,
    (∃ error, receipt.canonicalBytes = .error error) ∧
    ¬ (receipt.canonicalBytes >>= TraceRankPathReceipt.fromBytes) = .ok receipt := by
  have hsteps : 1 ≤ pathMaxReceiptBytes ∧ pathMaxReceiptBytes ≤ uint64Max := by decide
  have hlong := length_loopReceipt (sha256 []) ⟨pathMaxReceiptBytes, hsteps⟩
  refine ⟨loopReceipt (sha256 []) ⟨pathMaxReceiptBytes, hsteps⟩, ?_, fun h => ?_⟩
  · rw [TraceRankPathReceipt.canonicalBytes]
    simp only [raiseIf]
    rw [if_pos hlong]
    exact ⟨_, rfl⟩
  · obtain ⟨data, hdata, -⟩ := bind_eq_ok.mp h
    obtain ⟨rfl, hle⟩ := TraceRankPathReceipt.canonicalBytes_eq_ok.mp hdata
    dsimp only at hlong
    omega

end Sample

end TraceRank
