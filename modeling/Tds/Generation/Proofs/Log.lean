import Tds.Generation.History
import Tds.Generation.Proofs.Manifest

/-!
# Reading a publication log

A log is the lines of a valid chain of records, followed by what a crash left of one more.
`readRecords_eq_ok_iff` says what the store reads from such a log, and when it refuses it.
-/

namespace Generation

open Python List

/-! ## Lines -/

variable {tail : Bytes} {α : Type} {l : List α}

theorem logLines_of_notMem (h : (10 : UInt8) ∉ tail) : logLines tail = ([], tail) := by
  induction tail with
  | nil => rfl
  | cons b tail ih =>
    rw [mem_cons, not_or] at h
    rw [logLines, ih h.2]
    dsimp only
    rw [if_neg (Ne.symm h.1)]

theorem logLines_append {line : Bytes} (h : (10 : UInt8) ∉ line) (data : Bytes) :
    logLines (line ++ 10 :: data) = (line :: (logLines data).1, (logLines data).2) := by
  induction line with
  | nil => rfl
  | cons b line ih =>
    rw [mem_cons, not_or] at h
    rw [cons_append, logLines, ih h.2]
    dsimp only
    rw [if_neg (Ne.symm h.1)]

theorem readline_of_notMem (h : (10 : UInt8) ∉ tail) {size : Nat} (hs : tail.length ≤ size) :
    readline size tail = (tail, []) := by
  induction tail generalizing size with
  | nil => cases size <;> rfl
  | cons b tail ih =>
    rw [mem_cons, not_or] at h
    obtain ⟨size, rfl⟩ : ∃ n, size = n + 1 := ⟨size - 1, by simp at hs; omega⟩
    rw [readline, if_neg (Ne.symm h.1), ih h.2 (by simpa using hs)]

theorem readline_append {line : Bytes} (h : (10 : UInt8) ∉ line) (data : Bytes) {size : Nat}
    (hs : line.length < size) : readline size (line ++ 10 :: data) = (line ++ [10], data) := by
  induction line generalizing size with
  | nil =>
    obtain ⟨size, rfl⟩ : ∃ n, size = n + 1 := ⟨size - 1, by simp at hs; omega⟩
    rfl
  | cons b line ih =>
    rw [mem_cons, not_or] at h
    obtain ⟨size, rfl⟩ : ∃ n, size = n + 1 := ⟨size - 1, by omega⟩
    rw [cons_append, readline, if_neg (Ne.symm h.1), ih h.2 (by simpa using hs)]
    rfl

theorem getElem?_eq_of_isPrefix {l' : List α} (h : l <+: l') {i : Nat} {a : α}
    (hi : l[i]? = some a) :
    l'[i]? = some a := by
  obtain ⟨t, rfl⟩ := h
  rwa [List.getElem?_append_left (List.getElem?_eq_some_iff.mp hi).1]

theorem take_eq_of_isPrefix {l' : List α} (h : l <+: l') {n : Nat} (hn : n ≤ l.length) :
    l'.take n = l.take n := by
  obtain ⟨t, rfl⟩ := h
  exact take_append_of_le_length hn

theorem getElem?_concat {a x : α} {i : Nat} :
    (l ++ [a])[i]? = some x ↔ l[i]? = some x ∨ (i = l.length ∧ x = a) := by
  rcases lt_trichotomy i l.length with h | rfl | h
  · rw [getElem?_append_left h]
    constructor
    · exact .inl
    · rintro (hx | ⟨rfl, -⟩)
      · exact hx
      · omega
  · simp [eq_comm]
  · simp [getElem?_eq_none_iff.mpr (show (l ++ [a]).length ≤ i by simp; omega),
      getElem?_eq_none_iff.mpr h.le]
    omega

section Log

variable [Runtime]

theorem encodeLog_cons (r : GenerationPublicationRecord) (records : List GenerationPublicationRecord)
    (data : Bytes) :
    encodeLog (r :: records) ++ data = r.encode ++ 10 :: (encodeLog records ++ data) := by
  simp [encodeLog]

variable (records : List GenerationPublicationRecord)

theorem encodeLog_concat
    (r : GenerationPublicationRecord) :
    encodeLog (records ++ [r]) = encodeLog records ++ (r.encode ++ [10]) := by
  simp [encodeLog]

theorem completeRecords_encodeLog
    (h : (10 : UInt8) ∉ tail) : completeRecords (encodeLog records ++ tail) = .ok records := by
  induction records with
  | nil =>
    show completeRecords tail = _
    rw [completeRecords, logLines_of_notMem h]
    rfl
  | cons r records ih =>
    rw [completeRecords] at ih
    rw [encodeLog_cons, completeRecords, logLines_append r.newline_notMem_encode, mapM_cons,
      publicationRecordFromJson_encode, ok_bind, ih]
    rfl

/-! ## Chains -/

def Follows (previous : Option GenerationPublicationRecord) (r : GenerationPublicationRecord) :
    Prop :=
  validatePublicationRecord r previous (previous.map (·.generationRoot)) = .ok ()

variable {records : List GenerationPublicationRecord} {r : GenerationPublicationRecord}

theorem follows_none : Follows none r ↔
    r.publicationSequence.val = 1 ∧ r.predecessorRecordRoot = none ∧
      r.previousGenerationRoot = none := by
  unfold Follows validatePublicationRecord
  dsimp only [Option.map_none]
  split_ifs <;> simp_all

theorem follows_some {previous : GenerationPublicationRecord} : Follows (some previous) r ↔
    r.nameSpace = previous.nameSpace ∧
      r.publicationSequence.val = previous.publicationSequence.val + 1 ∧
      r.predecessorRecordRoot = some previous.recordRoot ∧
      r.previousGenerationRoot = some previous.generationRoot := by
  unfold Follows validatePublicationRecord
  dsimp only [Option.map_some]
  split_ifs <;> simp_all

theorem validChain_concat :
    ValidChain (records ++ [r]) ↔ ValidChain records ∧ Follows records.getLast? r := by
  have hlast : ∀ p, records.getLast? = some p →
      0 < records.length ∧ records[records.length - 1]? = some p := by
    intro p hp
    refine ⟨length_pos_iff.mpr fun h => by simp [h] at hp, ?_⟩
    rw [← getLast?_eq_getElem?]
    exact hp
  constructor
  · intro h
    have hmem : ∀ {i x}, records[i]? = some x → (records ++ [r])[i]? = some x :=
      fun hx => getElem?_concat.mpr (.inl hx)
    have hr : (records ++ [r])[records.length]? = some r := getElem?_concat.mpr (.inr ⟨rfl, rfl⟩)
    refine ⟨⟨fun i x hx => h.sequence i x (hmem hx), fun x hx => h.first x (hmem hx),
      fun i x y hx hy => h.next i x y (hmem hx) (hmem hy)⟩, ?_⟩
    cases hl : records.getLast? with
    | none =>
      obtain rfl := getLast?_eq_none_iff.mp hl
      exact follows_none.mpr ⟨h.sequence 0 r rfl, h.first r rfl⟩
    | some p =>
      obtain ⟨hpos, hp⟩ := hlast p hl
      have hn := h.next _ p r (hmem hp) (by rw [Nat.sub_add_cancel hpos]; exact hr)
      have hs := h.sequence _ p (hmem hp)
      have hs' := h.sequence _ r hr
      exact follows_some.mpr ⟨hn.2.2, by omega, hn.1, hn.2.1⟩
  · rintro ⟨h, hf⟩
    cases hl : records.getLast? with
    | none =>
      obtain rfl := getLast?_eq_none_iff.mp hl
      rw [hl, follows_none] at hf
      constructor
      · intro i x hx
        rcases getElem?_concat.mp hx with hx | ⟨rfl, rfl⟩
        · simp at hx
        · exact hf.1
      · intro x hx
        rcases getElem?_concat.mp hx with hx | ⟨-, rfl⟩
        · simp at hx
        · exact hf.2
      · intro i x y _ hy
        simp at hy
    | some p =>
      obtain ⟨hpos, hp⟩ := hlast p hl
      rw [hl, follows_some] at hf
      have hs := h.sequence _ p hp
      constructor
      · intro i x hx
        rcases getElem?_concat.mp hx with hx | ⟨rfl, rfl⟩
        · exact h.sequence i x hx
        · omega
      · intro x hx
        rcases getElem?_concat.mp hx with hx | ⟨h0, -⟩
        · exact h.first x hx
        · omega
      · intro i x y hx hy
        rcases getElem?_concat.mp hy with hy | ⟨hi, rfl⟩
        · rcases getElem?_concat.mp hx with hx | ⟨rfl, -⟩
          · exact h.next i x y hx hy
          · simp at hy
        · rcases getElem?_concat.mp hx with hx | ⟨rfl, -⟩
          · obtain rfl : x = p := by
              rw [show records.length - 1 = i by omega, hx] at hp
              exact Option.some.inj hp
            exact ⟨hf.2.2.1, hf.2.2.2, hf.1⟩
          · omega

theorem ValidChain.of_append {rest : List GenerationPublicationRecord}
    (h : ValidChain (records ++ rest)) : ValidChain records := by
  induction rest using reverseRecOn with
  | nil => rwa [append_nil] at h
  | append_singleton rest r ih =>
    rw [← append_assoc] at h
    exact ih (validChain_concat.mp h).1

theorem ValidChain.nameSpace_eq (h : ValidChain records) {r' : GenerationPublicationRecord}
    (hr : r ∈ records) (hr' : r' ∈ records) : r.nameSpace = r'.nameSpace := by
  -- every record has the namespace of the first one
  have hfirst : ∀ (i : Nat) (x : GenerationPublicationRecord), records[i]? = some x →
      ∀ y : GenerationPublicationRecord, records[0]? = some y → x.nameSpace = y.nameSpace := by
    intro i
    induction i with
    | zero =>
      intro x hx y hy
      rw [hx] at hy
      cases hy
      rfl
    | succ i ih =>
      intro x hx y hy
      obtain ⟨z, hz⟩ : ∃ z, records[i]? = some z :=
        ⟨_, List.getElem?_eq_getElem (by have := (List.getElem?_eq_some_iff.mp hx).1; omega)⟩
      rw [(h.next i z x hz hx).2.2]
      exact ih z hz y hy
  obtain ⟨i, hi⟩ := mem_iff_getElem?.mp hr
  obtain ⟨j, hj⟩ := mem_iff_getElem?.mp hr'
  have hpos : 0 < records.length := length_pos_of_mem hr
  have hzero : records[0]? = some records[0] := getElem?_eq_getElem hpos
  rw [hfirst i r hi _ hzero, hfirst j r' hj _ hzero]

/-! ## The reader -/

/-- What the store reads from a log that starts with the records of a valid chain. -/
theorem readRecords_eq_ok_iff (config : StoreConfig) (nameSpace : Str) (allowTornTail : Bool)
    {fuel : Nat} (acc : List GenerationPublicationRecord) (hchain : ValidChain (acc ++ records))
    (htail : (10 : UInt8) ∉ tail) (hlen : tail.length ≤ 1000)
    (hf : (encodeLog records ++ tail).length < fuel) (x : List GenerationPublicationRecord × Bool) :
    readRecords config nameSpace allowTornTail fuel acc (encodeLog records ++ tail) = .ok x ↔
      x = (acc ++ records, decide (tail ≠ [])) ∧ (tail ≠ [] → allowTornTail = true) ∧
        (∀ r ∈ records, r.nameSpace.val = nameSpace) ∧
        (records ≠ [] → (acc ++ records).length ≤ config.limits.maxPublicationRecords.val) := by
  have hmax := config.limits.maxManifestBytes.2.1
  induction records generalizing fuel acc with
  | nil =>
    obtain ⟨fuel, rfl⟩ : ∃ n, fuel = n + 1 := ⟨fuel - 1, by omega⟩
    show readRecords config nameSpace allowTornTail (fuel + 1) acc tail = _ ↔ _
    rw [readRecords, readline_of_notMem htail (by omega)]
    by_cases ht : tail = []
    · subst ht
      simp [eq_comm]
    · have hcomplete : (tail.getLast? == some 10) = false := by
        rw [beq_eq_false_iff_ne]
        exact fun h => htail (mem_of_getLast? h)
      simp only [ht, hcomplete, if_false, Bool.false_eq_true, Bool.not_false, if_true]
      rw [if_neg (by omega)]
      cases allowTornTail <;> simp [ht, eq_comm]
  | cons r records ih =>
    obtain ⟨fuel, rfl⟩ : ∃ n, fuel = n + 1 := ⟨fuel - 1, by omega⟩
    have hrlen := r.length_encode_lt
    rw [encodeLog_cons] at hf ⊢
    have hcomplete : ((r.encode ++ [10]).getLast? == some 10) = true := by simp
    have hline : r.encode ++ [10] ≠ [] := by simp
    have happend : acc ++ r :: records = acc ++ [r] ++ records := by simp
    rw [happend] at hchain
    have hfollows : validatePublicationRecord r acc.getLast?
        (acc.getLast?.map (·.generationRoot)) = .ok () := (validChain_concat.mp hchain.of_append).2
    rw [readRecords, readline_append r.newline_notMem_encode _ (by omega)]
    simp only [hline, hcomplete, r.encode_ne_nil, if_false, if_true, dropLast_concat,
      Bool.not_true, Bool.false_eq_true]
    rw [if_neg (by omega)]
    by_cases hcount : config.limits.maxPublicationRecords.val ≤ acc.length
    · rw [if_pos hcount]
      refine iff_of_false (by simp) fun h => ?_
      have := h.2.2.2 (by simp)
      simp at this
      omega
    · rw [if_neg hcount, publicationRecordFromJson_encode, ok_bind, hfollows, ok_bind]
      by_cases hns : r.nameSpace.val = nameSpace
      · have hfuel : (encodeLog records ++ tail).length < fuel := by
          simp only [length_append, length_cons] at hf ⊢
          omega
        rw [raiseIf_neg (not_not.mpr hns), ok_bind, happend]
        refine (ih _ hchain hfuel).trans ?_
        simp only [forall_mem_cons, hns, true_and, ne_eq, reduceCtorEq, not_false_eq_true,
          true_implies]
        refine and_congr_right fun _ => and_congr_right fun _ => and_congr_right fun _ => ?_
        refine ⟨fun h => ?_, fun h _ => h⟩
        by_cases hr : records = []
        · subst hr
          simp
          omega
        · exact h hr
      · rw [raiseIf, if_pos hns]
        exact iff_of_false (by simp) fun h => hns (h.2.2.1 r (mem_cons_self ..))

end Log

end Generation
