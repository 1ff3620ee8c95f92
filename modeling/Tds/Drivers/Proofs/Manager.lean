import Tds.Drivers.Manager
import Tds.Drivers.Proofs.Canonical
import Tds.Drivers.Proofs.Load

/-!
# Which package runs under a record

The registry gate compares the driver id, the version and the kind of a package with the record, and
the signature of the record with the manifest of the record. Nothing that the registry holds depends on
the hash of the package: whenever a package runs, the same package with one more constant and a new
hash runs as well.
-/

namespace Drivers

open Python FileSystem List BytecodePackage
open Persistence (Items itemAt pyStr pyInt field asInt isText isText_iff)

/-! ## What is hashed -/

variable {raw : Bytes} {u : Unit} {α : Type}

theorem encodeText_eq_ok {text : Str} : encodeText text = .ok raw ↔ encodeUtf8 text = some raw := by
  unfold encodeText
  cases encodeUtf8 text <;> simp [raise]

theorem exists_encodeText_iff {text : Str} :
    (∃ raw, encodeText text = .ok raw) ↔ text.all isScalar = true := by
  simp only [encodeText_eq_ok, encodeUtf8]
  split
  · next h => simp [h]
  · next h => simp [h]

theorem encodeText_injective {s t : Str} (hs : encodeText s = .ok raw)
    (ht : encodeText t = .ok raw) :
    s = t := by
  have hs' := decodeUtf8_of_encodeUtf8 (encodeText_eq_ok.mp hs)
  have ht' := decodeUtf8_of_encodeUtf8 (encodeText_eq_ok.mp ht)
  exact Option.some.inj (hs'.symm.trans ht')

theorem all_joinComma {texts : List Str} :
    (joinComma texts).all isScalar = true ↔ ∀ text ∈ texts, text.all isScalar = true := by
  induction texts with
  | nil => simp [joinComma]
  | cons s texts ih =>
    cases texts with
    | nil => simp [joinComma]
    | cons t rest =>
      rw [joinComma, all_append, all_cons, Bool.and_eq_true, Bool.and_eq_true, ih,
        forall_mem_cons (a := s), show isScalar 44 = true from by decide]
      simp only [true_and]

def objectText (fields : List (Str × Str)) : Str :=
  123 :: joinComma ((sortByKey fields).map fieldText) ++ [125]

theorem length_objectText (fields : List (Str × Str)) : (objectText fields).length =
    (fields.map fun f => (fieldText f).length).sum + (fields.length - 1) + 2 := by
  have hperm : ((sortByKey fields).map fun f => (fieldText f).length).Perm
      (fields.map fun f => (fieldText f).length) := (perm_sortByKey fields).map _
  rw [objectText, length_append, length_cons, Generation.length_joinComma, map_map,
    length_map, (perm_sortByKey fields).length_eq]
  show (map (fun f => (fieldText f).length) (sortByKey fields)).sum + _ + 1 + 1 = _
  rw [hperm.sum_eq]

theorem all_objectText {fields : List (Str × Str)} : (objectText fields).all isScalar = true ↔
    ∀ f ∈ fields, (fieldText f).all isScalar = true := by
  rw [objectText, cons_append, all_cons, all_append, Bool.and_eq_true,
    Bool.and_eq_true, all_joinComma]
  simp only [forall_mem_map, mem_sortByKey]
  exact ⟨fun h => h.2.1, fun h => ⟨by decide, h, by decide⟩⟩

section Packages

variable [Runtime] [Objects] [Interpreter] {p : BytecodePackage}

def BytecodePackage.unsignedText (p : BytecodePackage) : Str :=
  objectText (p.unsignedFields.map fun f => (f.1, textOf f.2))

omit [Runtime] [Objects] [Interpreter] in
theorem nodup_unsignedFields (p : BytecodePackage) : (p.unsignedFields.map Prod.fst).Nodup := by
  show [lit "header", lit "manifest", lit "capabilities", lit "adapters", lit "limits",
    lit "instructions", lit "constants", lit "evolution", lit "source_hash"].Nodup
  decide

theorem hashedBytes_eq_ok : p.hashedBytes = .ok raw ↔
    (∀ f ∈ p.unsignedFields, HasText f.2) ∧ encodeText p.unsignedText = .ok raw := by
  simp only [hashedBytes, toUnsignedDict, bind_eq_ok,
    canonicalJson_record (nodup_unsignedFields p)]
  constructor
  · rintro ⟨_, ⟨hall, rfl⟩, hraw⟩
    exact ⟨hall, hraw⟩
  · rintro ⟨hall, hraw⟩
    exact ⟨_, ⟨hall, rfl⟩, hraw⟩

/-- The package with one more constant, which no instruction refers to. -/
def BytecodePackage.extended (p : BytecodePackage) : BytecodePackage :=
  { p with constants := p.constants ++ [.none] }

/-- The extended package with its own hash. -/
def BytecodePackage.padded (p : BytecodePackage) : BytecodePackage :=
  { p.extended with packageHash := hashOf (okOr [] p.extended.hashedBytes) }

theorem hasText_constants (h : HasText (.list p.constants)) : HasText (.list p.extended.constants) := by
  obtain ⟨text, htext⟩ := h
  refine ⟨_, canonicalJson_list.mpr ⟨fun value hvalue => ?_, rfl⟩⟩
  rcases mem_append.mp hvalue with hmem | hmem
  · exact (canonicalJson_list.mp htext).1 value hmem
  · rw [mem_singleton.mp hmem]
    exact hasText_none

theorem textOf_list {items : List Value} (h : HasText (.list items)) :
    textOf (.list items) = 91 :: joinComma (items.map textOf) ++ [93] := by
  obtain ⟨text, htext⟩ := h
  rw [textOf_eq htext, (canonicalJson_list.mp htext).2]

theorem textOf_none : textOf .none = lit "null" := rfl

theorem length_textOf_extended (h : HasText (.list p.constants)) :
    (textOf (.list p.constants)).length < (textOf (.list p.extended.constants)).length := by
  rw [textOf_list h, textOf_list (hasText_constants h)]
  simp only [extended, map_append, map_cons, map_nil, textOf_none,
    length_append, length_cons, Generation.length_joinComma, sum_append,
    sum_cons, sum_nil, length_nil]
  have : (lit "null").length = 4 := by decide
  omega

theorem all_textOf_extended (h : HasText (.list p.constants))
    (hall : (textOf (.list p.constants)).all isScalar = true) :
    (textOf (.list p.extended.constants)).all isScalar = true := by
  rw [textOf_list h] at hall
  rw [textOf_list (hasText_constants h)]
  simp only [cons_append, all_cons, all_append, Bool.and_eq_true,
    all_joinComma] at hall ⊢
  refine ⟨hall.1, fun text htext => ?_, hall.2.2⟩
  rw [extended, map_append, mem_append] at htext
  rcases htext with hmem | hmem
  · exact hall.2.1 text hmem
  · rw [map_cons, map_nil, mem_singleton] at hmem
    rw [hmem, textOf_none]
    decide

theorem hashedBytes_extended (h : p.hashedBytes = .ok raw) :
    ∃ raw', p.extended.hashedBytes = .ok raw' ∧ raw' ≠ raw := by
  obtain ⟨hall, hraw⟩ := hashedBytes_eq_ok.mp h
  simp only [unsignedFields, forall_mem_cons] at hall
  obtain ⟨hheader, hmanifest, hcapabilities, hadapters, hlimits, hinstructions, hconstants,
    hevolution, hsource, -⟩ := hall
  have hall' : ∀ f ∈ p.extended.unsignedFields, HasText f.2 := by
    simp only [unsignedFields, forall_mem_cons]
    exact ⟨hheader, hmanifest, hcapabilities, hadapters, hlimits, hinstructions,
      hasText_constants hconstants, hevolution, hsource, by simp⟩
  have hscalar := exists_encodeText_iff.mp ⟨raw, hraw⟩
  have hscalar' : p.extended.unsignedText.all isScalar = true := by
    rw [unsignedText, all_objectText] at hscalar ⊢
    simp only [unsignedFields, map_cons, forall_mem_cons] at hscalar ⊢
    obtain ⟨h₁, h₂, h₃, h₄, h₅, h₆, h₇, h₈, h₉, -⟩ := hscalar
    refine ⟨h₁, h₂, h₃, h₄, h₅, h₆, ?_, h₈, h₉, by simp⟩
    simp only [fieldText, all_append, all_cons, Bool.and_eq_true] at h₇ ⊢
    exact ⟨h₇.1, h₇.2.1, all_textOf_extended hconstants h₇.2.2⟩
  obtain ⟨raw', hraw'⟩ := exists_encodeText_iff.mpr hscalar'
  refine ⟨raw', hashedBytes_eq_ok.mpr ⟨hall', hraw'⟩, ?_⟩
  rintro rfl
  have hlength := congrArg length (encodeText_injective hraw hraw')
  rw [unsignedText, unsignedText, length_objectText,
    length_objectText] at hlength
  have hlt := length_textOf_extended hconstants
  simp only [unsignedFields, map_cons, map_nil, sum_cons,
    sum_nil, length_cons, length_nil, fieldText, length_append] at hlength
  simp only [extended] at hlength hlt
  omega

theorem checkHash_eq_ok :
    checkHash p = .ok u ↔ ∃ raw, p.hashedBytes = .ok raw ∧ hashOf raw = p.packageHash := by
  simp only [checkHash, verifyHash, bind_eq_ok, plainly_eq_ok, pure_eq_ok,
    Except.ok.injEq, rejectIf_eq_ok]
  constructor
  · rintro ⟨_, ⟨raw, hraw, rfl⟩, hhash⟩
    exact ⟨raw, hraw, by simpa using hhash⟩
  · rintro ⟨raw, hraw, hhash⟩
    exact ⟨_, ⟨raw, hraw, rfl⟩, by simpa using hhash⟩

/-! ## The padded package passes where the package does -/

omit [Runtime] [Objects] [Interpreter] in
theorem validateCode_mono {n m : Nat} (hle : n ≤ m) {instr : BytecodeInstruction}
    (h : validateCode n instr = .ok u) : validateCode m instr = .ok u := by
  unfold validateCode at h ⊢
  split at h
  · cases h
  · simp only [bind_eq_ok, exists_unit, rejectIf_eq_ok] at h ⊢
    exact ⟨h.1, by omega⟩

theorem checkHash_padded (h : checkHash p = .ok ()) : checkHash p.padded = .ok () := by
  obtain ⟨raw, hraw, -⟩ := checkHash_eq_ok.mp h
  obtain ⟨raw', hraw', -⟩ := hashedBytes_extended hraw
  refine checkHash_eq_ok.mpr ⟨raw', hraw', ?_⟩
  rw [padded, hraw', okOr]

theorem validateBytecodePackage_padded (h : validateBytecodePackage p = .ok ()) :
    validateBytecodePackage p.padded = .ok () := by
  simp only [validateBytecodePackage, bind_eq_ok, exists_unit, rejectIf_eq_ok, forM_eq_ok] at h ⊢
  obtain ⟨hmagic, hversion, hne, hlast, hcodes, hcount, hhash⟩ := h
  refine ⟨hmagic, hversion, hne, hlast, fun instr hinstr => ?_, hcount, checkHash_padded hhash⟩
  refine validateCode_mono ?_ (hcodes instr hinstr)
  simp [padded, extended]

theorem auditVmContract_padded (h : auditVmContract p = .ok ()) :
    auditVmContract p.padded = .ok () := by
  obtain ⟨hvalid, hkind, hcodes⟩ := auditVmContract_eq_ok.mp h
  exact auditVmContract_eq_ok.mpr ⟨validateBytecodePackage_padded hvalid, hkind, hcodes⟩

theorem validateLoad_padded {maxInstructions maxCost : Int} {loaded : VMLoadedPackage}
    (h : validateLoad p maxInstructions maxCost = .ok loaded) :
    ∃ loaded', validateLoad p.padded maxInstructions maxCost = .ok loaded' := by
  simp only [validateLoad, bind_eq_ok, exists_unit, plainly_eq_ok, raiseIf_eq_ok] at h ⊢
  obtain ⟨haudit, hcount, hcost, driverId, hid, version, hversion, kind, hkind, -⟩ := h
  exact ⟨_, auditVmContract_padded haudit, hcount, hcost, driverId, hid, version, hversion, kind,
    hkind, rfl⟩

end Packages

section Gates

variable [Runtime] [Objects] [Interpreter] {p : BytecodePackage} {policy : RuntimeManagerPolicy}

omit [Runtime] [Objects] [Interpreter] in
theorem guarded_eq_ok {x : Checked α} {a : α} : guarded x = .ok a ↔ x = .ok a := by
  cases x <;> simp [guarded, internalError]

theorem load_fst_eq_ok {vm : DriverVM} {loaded : VMLoadedPackage} : (vm.load p).1 = .ok loaded ↔
    validateLoad p vm.maxInstructions vm.maxCost = .ok loaded := by
  unfold DriverVM.load
  cases validateLoad p vm.maxInstructions vm.maxCost <;> simp

theorem packageGate_eq_ok : packageGate p = .ok u ↔ auditVmContract p = .ok () := by
  unfold packageGate
  cases auditVmContract p with
  | ok u => simp
  | error e =>
    dsimp only
    split <;> simp [refuse, internalError]

theorem loadGate_padded (h : loadGate policy p = .ok ()) : loadGate policy p.padded = .ok () := by
  simp only [loadGate, bind_eq_ok, guarded_eq_ok, load_fst_eq_ok] at h ⊢
  obtain ⟨vm, hvm, loaded, hloaded, -⟩ := h
  obtain ⟨loaded', hloaded'⟩ := validateLoad_padded hloaded
  exact ⟨vm, hvm, loaded', hloaded', rfl⟩

omit [Objects] [Interpreter] in
theorem all_hashOf (raw : Bytes) : (hashOf raw).all isScalar = true := by
  rw [hashOf, all_append, Bool.and_eq_true]
  refine ⟨by decide, all_eq_true.mpr fun c hc => ?_⟩
  have := (hexOfBytes_bounds _ c hc).2.1
  simp only [isScalar, Bool.or_eq_true, decide_eq_true_eq]
  omega

variable {execute : BytecodePackage → List Items → DriverVMResult} {registry : DriverRegistry}
  {fixtures : Value} {driverId : Str}

theorem snapshotGate_padded {snapshot : List Items}
    (h : snapshotGate policy p fixtures = .ok snapshot) :
    snapshotGate policy p.padded fixtures = .ok snapshot := by
  unfold snapshotGate at h ⊢
  split at h
  · cases h
  · simp only [bind_eq_ok, guarded_eq_ok, plainly_eq_ok] at h ⊢
    obtain ⟨hash, hhash, raw, hraw, hsnapshot⟩ := h
    have hscalar := exists_encodeText_iff.mp ⟨raw, hraw⟩
    have hscalar' : (p.padded.packageHash ++ 0 :: hash).all isScalar = true := by
      rw [all_append, Bool.and_eq_true] at hscalar ⊢
      exact ⟨all_hashOf _, hscalar.2⟩
    obtain ⟨raw', hraw'⟩ := exists_encodeText_iff.mpr hscalar'
    exact ⟨hash, hhash, raw', hraw', hsnapshot⟩

omit [Runtime] [Objects] [Interpreter] in
theorem mapError_eq_ok {ε ε' : Type} {f : ε → ε'} {x : Except ε α} {a : α} :
    x.mapError f = .ok a ↔ x = .ok a := by
  cases x <;> simp [Except.mapError]

/-- Whatever lets a package through lets the padded one through as well. -/
theorem admit_padded {registry : Option DriverRegistry} {admission : Admission}
    (h : admitPackage policy p fixtures registry = .ok admission) :
    admitPackage policy p.padded fixtures registry = .ok admission := by
  simp only [admitPackage, bind_eq_ok, exists_unit, packageGate_eq_ok, mapError_eq_ok] at h ⊢
  obtain ⟨snapshot, hsnapshot, haudit, hcapability, record, hrecord, hload, hadmission⟩ := h
  exact ⟨snapshot, snapshotGate_padded hsnapshot, auditVmContract_padded haudit, hcapability, record,
    hrecord, loadGate_padded hload, hadmission⟩

/-- The package was executed: the evidence has a result of the machine. -/
def Executed (execute : BytecodePackage → List Items → DriverVMResult) (policy : RuntimeManagerPolicy)
    (registry : DriverRegistry) (driverId : Str) (p : BytecodePackage) : Prop :=
  idOf p = driverId ∧
    ∃ fixtures, (executePackage execute policy p fixtures (some registry)).vmResult.isSome = true

theorem vmResult_isSome_iff {registry : Option DriverRegistry} :
    (executePackage execute policy p fixtures registry).vmResult.isSome = true ↔
      ∃ admission, admitPackage policy p fixtures registry = .ok admission := by
  unfold executePackage
  cases admitPackage policy p fixtures registry <;> simp [executionEvidence, refusalEvidence]

theorem executed_padded (h : Executed execute policy registry driverId p) :
    Executed execute policy registry driverId p.padded := by
  obtain ⟨hid, fixtures, hresult⟩ := h
  obtain ⟨admission, hadmit⟩ := vmResult_isSome_iff.mp hresult
  exact ⟨hid, fixtures, vmResult_isSome_iff.mpr ⟨admission, admit_padded hadmit⟩⟩

theorem hashed_of_executed (h : Executed execute policy registry driverId p) :
    ∃ raw, p.hashedBytes = .ok raw ∧ hashOf raw = p.packageHash := by
  obtain ⟨-, fixtures, hresult⟩ := h
  obtain ⟨admission, hadmit⟩ := vmResult_isSome_iff.mp hresult
  simp only [admitPackage, bind_eq_ok, exists_unit, packageGate_eq_ok] at hadmit
  obtain ⟨snapshot, -, haudit, -⟩ := hadmit
  obtain ⟨hvalid, -⟩ := auditVmContract_eq_ok.mp haudit
  simp only [validateBytecodePackage, bind_eq_ok, exists_unit, rejectIf_eq_ok, forM_eq_ok] at hvalid
  exact checkHash_eq_ok.mp hvalid.2.2.2.2.2.2

/-- The hash tells the package from the extended one. -/
def PaddingSeparated (p : BytecodePackage) : Prop :=
  ∀ raw raw', p.hashedBytes = .ok raw → p.extended.hashedBytes = .ok raw' →
    Set.InjOn sha256 {raw, raw'}

omit [Objects] [Interpreter] in
theorem sha256_eq_of_hashOf {raw' : Bytes} (h : hashOf raw = hashOf raw') :
    sha256 raw = sha256 raw' := by
  have hhex : hexOfBytes (sha256 raw).bytes = hexOfBytes (sha256 raw').bytes :=
    append_cancel_left h
  have hbytes : (sha256 raw).bytes = (sha256 raw').bytes := by
    have := congrArg bytesOfHex hhex
    rw [bytesOfHex_hexOfBytes, bytesOfHex_hexOfBytes] at this
    exact Option.some.inj this
  cases hd : sha256 raw
  cases hd' : sha256 raw'
  rw [hd, hd'] at hbytes
  cases hbytes
  rfl

theorem exists_other_executed (h : Executed execute policy registry driverId p)
    (hsha : PaddingSeparated p) :
    ∃ q, Executed execute policy registry driverId q ∧ q.packageHash ≠ p.packageHash := by
  refine ⟨p.padded, executed_padded h, fun heq => ?_⟩
  obtain ⟨raw, hraw, hhash⟩ := hashed_of_executed h
  obtain ⟨raw', hraw', hne⟩ := hashedBytes_extended hraw
  have hpadded : p.padded.packageHash = hashOf raw' := by rw [padded, hraw', okOr]
  have hdigest := sha256_eq_of_hashOf (hpadded.symm.trans (heq.trans hhash.symm))
  exact hne (hsha raw raw' hraw hraw' (by simp) (by simp) hdigest)

/-- All packages that are executed under one record have the same hash exactly if none is executed
under it at all. SHA-256 is assumed to tell some executed package from its padding. -/
theorem package_pinned_iff (execute : BytecodePackage → List Items → DriverVMResult)
    (policy : RuntimeManagerPolicy) (registry : DriverRegistry) (driverId : Str)
    (hsha : (∃ p, Executed execute policy registry driverId p) →
      ∃ p, Executed execute policy registry driverId p ∧ PaddingSeparated p) :
    (∀ p q, Executed execute policy registry driverId p → Executed execute policy registry driverId q →
      p.packageHash = q.packageHash) ↔ ∀ p, ¬ Executed execute policy registry driverId p := by
  constructor
  · intro hpinned p hp
    obtain ⟨p, hp, hseparated⟩ := hsha ⟨p, hp⟩
    obtain ⟨q, hq, hne⟩ := exists_other_executed hp hseparated
    exact hne (hpinned q p hq hp)
  · exact fun hnone p q hp => absurd hp (hnone p)

end Gates

/-! ## Two packages under one record -/

section Sample

attribute [local instance] sampleRuntime jsonObjects sampleInterpreter

/-- The policy that asks for an active driver and an accepted signature. -/
def strictPolicy : RuntimeManagerPolicy :=
  { requireRegistryActive := true, requireSignatureAccept := true }

def haltingMachine (_ : BytecodePackage) (_ : List Items) : DriverVMResult :=
  ⟨true, .halted, lit "driver bytecode halted successfully", [lit "validate", lit "load", lit "HALT"], []⟩

def sampleManifest : DriverManifest :=
  { driverId := lit "d", version := 1, kind := lit "policy", capabilities := [lit "a.b"] }

def activeRegistry : Checked DriverRegistry := do
  let payload ← plainly sampleManifest.canonicalPayload
  let signature ← plainly (signPayload payload (lit "s") [107])
  let registry : DriverRegistry := { signaturePolicy := SignaturePolicy.approveSigner {} (lit "s") [107] }
  let registry ← registry.addCandidate sampleManifest (some (lit "t"))
  let registry ← registry.approve (lit "d")
  let registry ← registry.attachSignature (lit "d") signature
  registry.activate (lit "d")

def unhashedPackage : BytecodePackage where
  header := [(.str (lit "magic"), .str (lit "TDD1")), (.str (lit "bytecode_version"), .int 1),
    (.str (lit "driver_id"), .str (lit "d")), (.str (lit "driver_version"), .int 1)]
  manifest := [(.str (lit "kind"), .str (lit "policy"))]
  capabilities := []
  adapters := []
  limits := []
  instructions := [⟨8, lit "HALT", 0, 0⟩]
  constants := [.dict []]
  evolution := []
  sourceHash := []
  packageHash := []

def signedPackage : BytecodePackage :=
  { unhashedPackage with packageHash := hashOf (okOr [] unhashedPackage.hashedBytes) }

theorem exists_executed : ∃ registry, activeRegistry = .ok registry ∧
    Executed haltingMachine strictPolicy registry (lit "d") signedPackage := by
  have h : okAnd activeRegistry (fun registry => (executePackage haltingMachine strictPolicy
      signedPackage .none (some registry)).vmResult.isSome) = true := by
    unfold activeRegistry signedPackage
    rw [sampleRuntime_eq_strict]
    decide +kernel
  obtain ⟨registry, hregistry, hresult⟩ := exists_of_okAnd h
  have hid : idOf unhashedPackage = lit "d" := by decide
  exact ⟨registry, hregistry, hid, .none, hresult⟩

theorem paddingSeparated_signedPackage : PaddingSeparated signedPackage := by
  have hne : sha256 (okOr [] unhashedPackage.hashedBytes) ≠
      sha256 (okOr [] unhashedPackage.extended.hashedBytes) := by
    rw [sampleRuntime_eq_strict]
    decide +kernel
  intro raw raw' hraw hraw'
  have hraw₂ : unhashedPackage.hashedBytes = .ok raw := hraw
  have hraw₂' : unhashedPackage.extended.hashedBytes = .ok raw' := hraw'
  rw [hraw₂, hraw₂', okOr, okOr] at hne
  intro x hx y hy heq
  simp only [Set.mem_insert_iff, Set.mem_singleton_iff] at hx hy
  rcases hx with rfl | rfl <;> rcases hy with rfl | rfl
  · rfl
  · exact absurd heq hne
  · exact absurd heq.symm hne
  · rfl

/-- Under the record of the active driver the hashes of the executed packages are not all the same. -/
theorem package_pinned_sample : ∃ registry, activeRegistry = .ok registry ∧
    ¬ ∀ p q, Executed haltingMachine strictPolicy registry (lit "d") p →
      Executed haltingMachine strictPolicy registry (lit "d") q → p.packageHash = q.packageHash := by
  obtain ⟨registry, hregistry, hexecuted⟩ := exists_executed
  refine ⟨registry, hregistry, fun hpinned => ?_⟩
  exact (package_pinned_iff haltingMachine strictPolicy registry (lit "d")
    fun _ => ⟨signedPackage, hexecuted, paddingSeparated_signedPackage⟩).mp hpinned _ hexecuted

/-- Two packages of different hashes, executed under the record of one driver that was tested, approved,
signed and activated. -/
theorem two_packages_sample : ∃ registry p q, activeRegistry = .ok registry ∧
    Executed haltingMachine strictPolicy registry (lit "d") p ∧
    Executed haltingMachine strictPolicy registry (lit "d") q ∧ q.packageHash ≠ p.packageHash := by
  obtain ⟨registry, hregistry, hexecuted⟩ := exists_executed
  obtain ⟨q, hq, hne⟩ := exists_other_executed hexecuted paddingSeparated_signedPackage
  exact ⟨registry, signedPackage, q, hregistry, hexecuted, hq, hne⟩

end Sample

end Drivers
