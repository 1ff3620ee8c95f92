import Tds.Drivers.Machine
import Tds.Drivers.Proofs.Manager

/-!
# Which test a candidate comes with

`submit_candidate` asks for a successful result, and its report hashes the result together with the
package, but nothing compares the two. Whatever result a package is filed with, any successful result that
can be reported takes its place. `submission_tested_iff` concludes that the policy guarantees a test of the
package itself only for packages that are never filed.
-/

namespace Drivers

open Python FileSystem DriverRegistry Option

section Runs

variable [Runtime] [Objects] [Interpreter] {execute : InstructionSet} {p q : BytecodePackage}
  {policy : DriverFoundryPolicy} {test test' : Option DriverTest} {t : DriverTest} {manifest : DriverManifest}

/-! ## What a result names -/

omit [Runtime] [Objects] [Interpreter] in
/-- However a call ends, the result names the package that is loaded. -/
theorem packageHash_execute (vm : DriverVM) (inputs : Option Persistence.Items) :
    (vm.execute execute inputs).1.packageHash = vm.loaded.map (·.packageHash) := by
  have hinterrupted : ∀ ctx trace e, (interrupted vm.loaded vm.maxCost ctx trace e).packageHash =
      vm.loaded.map (·.packageHash) := by
    intro ctx trace e
    cases e <;> rfl
  unfold DriverVM.execute
  dsimp only
  split
  · split
    · exact hinterrupted ..
    · split
      · rfl
      · exact hinterrupted ..
  · rfl

theorem RanOn.packageHash (h : RanOn execute p t) : t.packageHash = some p.packageHash := by
  obtain ⟨maxInstructions, maxCost, vm, loaded, inputs, -, hload, rfl⟩ := h
  have hvalid := load_fst_eq_ok.mp hload
  have hloaded : (vm.load p).2.loaded = some loaded := by
    rw [DriverVM.load, hvalid]
  rw [packageHash_execute, hloaded]
  simp only [validateLoad, bind_eq_ok, pure_eq_ok, Except.ok.injEq] at hvalid
  obtain ⟨-, -, -, -, -, -, -, -, -, -, -, -, rfl⟩ := hvalid
  rfl

/-! ## What a submission reads of a result -/

omit [Objects] [Interpreter] in
theorem exists_testReportHash_iff : (∃ report, testReportHash p test = .ok report) ↔
    ∀ f ∈ testReport p test, (∃ json, f.2.toJson = .ok json) ∧
      (fieldText (f.1, jsonText (jsonOf f.2))).all isScalar = true := by
  simp only [testReportHash, Value.record, Value.toJson, bind_eq_ok, pure_eq_ok, Except.ok.injEq,
    fieldsToJson_eq_ok]
  constructor
  · rintro ⟨_, _, ⟨_, ⟨hjson, rfl⟩, rfl⟩, raw, hraw, -⟩ f hf
    refine ⟨hjson f hf, ?_⟩
    have hscalar := all_objectText.mp (exists_encodeText_iff.mp ⟨raw, hraw⟩)
    rw [fieldTexts_eq, List.map_map] at hscalar
    exact hscalar _ (List.mem_map_of_mem hf)
  · intro h
    have hscalar : (jsonText (.obj ((testReport p test).map fun f => (f.1, jsonOf f.2)))).all isScalar
        = true := by
      refine all_objectText.mpr ?_
      rw [fieldTexts_eq, List.map_map, List.forall_mem_map]
      exact fun f hf => (h f hf).2
    obtain ⟨raw, hraw⟩ := exists_encodeText_iff.mpr hscalar
    exact ⟨_, _, ⟨_, ⟨fun f hf => (h f hf).1, rfl⟩, rfl⟩, raw, hraw, rfl⟩

omit [Objects] [Interpreter] in
/-- A result that can be reported with one package can be reported with all that can be reported. -/
theorem exists_testReportHash {report report' : Str} (hp : testReportHash p test = .ok report)
    (hq : testReportHash q test' = .ok report') : ∃ report, testReportHash p test' = .ok report := by
  have hp := exists_testReportHash_iff.mp ⟨report, hp⟩
  have hq := exists_testReportHash_iff.mp ⟨report', hq⟩
  rw [testReport, List.forall_mem_cons] at hp hq
  rw [exists_testReportHash_iff, testReport, List.forall_mem_cons]
  exact ⟨hp.1, hq.2⟩

theorem gate_tested (hpolicy : policy.requireTestSuccessForCandidate = true)
    (h : submissionGate policy p test = .ok ()) : ∃ t, test = some t ∧ t.ok = true := by
  unfold submissionGate at h
  split at h
  · cases h
  split at h
  · cases h
  split at h
  · cases h
  next htest =>
    have hany : test.any (·.ok) = true := by simpa [hpolicy] using htest
    exact (any_eq_true _ _).mp hany

theorem gate_of_ok (h : submissionGate policy p test = .ok ()) (hok : t.ok = true) :
    submissionGate policy p (some t) = .ok () := by
  unfold submissionGate at h ⊢
  split at h
  · cases h
  next hallowed =>
    rw [if_neg hallowed]
    split at h
    · cases h
    next hauthority =>
      rw [if_neg hauthority, if_neg (by simp [hok])]
      split at h
      · cases h
      · exact h

theorem filedBy_submitCandidate : filedBy (.submitCandidate policy p test) = some manifest ↔
    submissionGate policy p test = .ok () ∧ manifestFromPackage p = .ok manifest ∧
      (∃ report, testReportHash p test = .ok report) ∧ validateManifest manifest = .ok () := by
  have hcandidate : ∀ candidate, candidateOf p test = .ok candidate ↔
      manifestFromPackage p = .ok candidate.1 ∧ testReportHash p test = .ok candidate.2 := by
    intro candidate
    simp only [candidateOf, bind_eq_ok, plainly_eq_ok, pure_eq_ok, Except.ok.injEq]
    constructor
    · rintro ⟨_, hmanifest, _, hreport, rfl⟩
      exact ⟨hmanifest, hreport⟩
    · rintro ⟨hmanifest, hreport⟩
      exact ⟨_, hmanifest, _, hreport, rfl⟩
  constructor
  · intro h
    rw [filedBy] at h
    split at h
    · next hgate hfiled =>
      split at h
      · next hvalid =>
        cases h
        obtain ⟨hmanifest, hreport⟩ := (hcandidate _).mp hfiled
        exact ⟨hgate, hmanifest, ⟨_, hreport⟩, hvalid⟩
      · cases h
    · cases h
  · rintro ⟨hgate, hmanifest, ⟨report, hreport⟩, hvalid⟩
    rw [filedBy, hgate, (hcandidate (manifest, report)).mpr ⟨hmanifest, hreport⟩]
    simp only [hvalid]

/-- A package that is filed at all is filed with every successful result that another one was filed with. -/
theorem filedBy_exchange {policy' : DriverFoundryPolicy} {manifest' : DriverManifest}
    (hp : filedBy (.submitCandidate policy p test) = some manifest)
    (hq : filedBy (.submitCandidate policy' q (some t)) = some manifest') (hok : t.ok = true) :
    filedBy (.submitCandidate policy p (some t)) = some manifest := by
  rw [filedBy_submitCandidate] at hp hq ⊢
  obtain ⟨hgate, hmanifest, ⟨report, hreport⟩, hvalid⟩ := hp
  obtain ⟨-, -, ⟨report', hreport'⟩, -⟩ := hq
  exact ⟨gate_of_ok hgate hok, hmanifest, exists_testReportHash hreport hreport', hvalid⟩

/-- **No candidate is known to be tested.** Let a policy ask for a successful test, and let some package be
filed with a result of running it. Then every package of another hash that can be filed at all can be filed
with a result that is none of its own. -/
theorem submission_tested_iff (execute : InstructionSet) (policy : DriverFoundryPolicy)
    (hpolicy : policy.requireTestSuccessForCandidate = true) (q : BytecodePackage) (t : DriverTest)
    (hran : RanOn execute q t) (hfiled : (filedBy (.submitCandidate policy q (some t))).isSome = true)
    (p : BytecodePackage) (hne : p.packageHash ≠ q.packageHash) :
    (∀ test, (filedBy (.submitCandidate policy p test)).isSome = true →
      ∃ t, test = some t ∧ t.ok = true ∧ RanOn execute p t) ↔
    ∀ test, filedBy (.submitCandidate policy p test) = none := by
  obtain ⟨manifest', hfiled⟩ := isSome_iff_exists.mp hfiled
  have hok : t.ok = true := by
    obtain ⟨t', ht', hok⟩ := gate_tested hpolicy (filedBy_submitCandidate.mp hfiled).1
    rwa [some.inj ht']
  constructor
  · intro h test
    by_contra hsome
    obtain ⟨manifest, hmanifest⟩ := ne_none_iff_exists'.mp hsome
    have hforeign := filedBy_exchange hmanifest hfiled hok
    obtain ⟨t', ht', -, hran'⟩ := h (some t) (by rw [hforeign]; rfl)
    rw [← some.inj ht'] at hran'
    exact hne (some.inj (hran'.packageHash.symm.trans hran.packageHash))
  · intro h test hsome
    rw [h test] at hsome
    cases hsome

end Runs

section Sample

attribute [local instance] sampleRuntime jsonObjects sampleInterpreter

/-- `HALT` halts, and the other instructions do nothing. -/
def haltingSet : InstructionSet := fun name _ ctx _ =>
  (.ok (), { ctx with halted := name = lit "HALT" })

def packageWith [Runtime] (instructions : List BytecodeInstruction) : BytecodePackage :=
  let p := { unhashedPackage with capabilities := [.str (lit "a.b")], instructions := instructions }
  { p with packageHash := hashOf (okOr [] p.hashedBytes) }

/-- The result of running the package on no records. -/
def testOf [Runtime] (p : BytecodePackage) : DriverTest :=
  ((sampleVm.load p).2.execute haltingSet none).1

/-- A package that the machine loads, and that is filed with its own test. -/
structure TestedPackage where
  instructions : List BytecodeInstruction
  loads : okAnd (sampleVm.load (packageWith instructions)).1 (fun _ => true) = true
  filed : (filedBy (.submitCandidate {} (packageWith instructions)
    (some (testOf (packageWith instructions))))).isSome = true

namespace TestedPackage

def emitting : TestedPackage where
  instructions := [⟨6, lit "EMIT", 0, 0⟩, ⟨8, lit "HALT", 0, 0⟩]
  loads := by
    rw [sampleRuntime_eq_strict]
    decide +kernel
  filed := by
    rw [sampleRuntime_eq_strict]
    decide +kernel

def halting : TestedPackage where
  instructions := [⟨8, lit "HALT", 0, 0⟩]
  loads := by
    rw [sampleRuntime_eq_strict]
    decide +kernel
  filed := by
    rw [sampleRuntime_eq_strict]
    decide +kernel

def package (p : TestedPackage) : BytecodePackage := packageWith p.instructions

def test (p : TestedPackage) : DriverTest := testOf p.package

theorem ranOn_test (p : TestedPackage) : RanOn haltingSet p.package p.test := by
  obtain ⟨loaded, hload, -⟩ := exists_of_okAnd p.loads
  exact ⟨1024, 100000, sampleVm, loaded, none, rfl, hload, rfl⟩

theorem ok_test (p : TestedPackage) : p.test.ok = true := by
  obtain ⟨manifest, hfiled⟩ := isSome_iff_exists.mp p.filed
  obtain ⟨t, ht, hok⟩ := gate_tested rfl (filedBy_submitCandidate.mp hfiled).1
  rw [test, package, some.inj ht, hok]

theorem packageHash_ne : halting.package.packageHash ≠ emitting.package.packageHash := by
  show (packageWith _).packageHash ≠ (packageWith _).packageHash
  rw [sampleRuntime_eq_strict]
  decide +kernel

end TestedPackage

open TestedPackage

/-- The package that halts is filed, so it is not only filed with tests of itself. -/
theorem submission_tested_sample : ¬ ∀ test,
    (filedBy (.submitCandidate {} halting.package test)).isSome = true →
      ∃ t, test = some t ∧ t.ok = true ∧ RanOn haltingSet halting.package t := by
  intro h
  have hnone := (submission_tested_iff haltingSet {} rfl emitting.package emitting.test
    emitting.ranOn_test emitting.filed halting.package packageHash_ne).mp h (some halting.test)
  exact absurd halting.filed (by
    rw [show filedBy (.submitCandidate {} (packageWith halting.instructions)
      (some (testOf (packageWith halting.instructions)))) = none from hnone]
    decide)

/-- It is filed with the successful test of another package, which is no result of running it. -/
theorem foreign_test_sample : RanOn haltingSet emitting.package emitting.test ∧
    emitting.test.ok = true ∧ ¬ RanOn haltingSet halting.package emitting.test ∧
    ∃ manifest, filedBy (.submitCandidate {} halting.package (some emitting.test)) = some manifest := by
  refine ⟨emitting.ranOn_test, emitting.ok_test, fun hran => ?_, ?_⟩
  · exact packageHash_ne (some.inj (hran.packageHash.symm.trans emitting.ranOn_test.packageHash))
  · obtain ⟨manifest, hfiled⟩ := isSome_iff_exists.mp halting.filed
    obtain ⟨_, hforeign⟩ := isSome_iff_exists.mp emitting.filed
    exact ⟨manifest, filedBy_exchange hfiled hforeign emitting.ok_test⟩

end Sample

end Drivers
