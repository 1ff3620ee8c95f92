import Tds.Drivers.Proofs.Signature

/-!
# Verdicts on signatures

`evaluate` takes the name of the signer from the signature, up to the second colon, and compares the
signature with the one that this signer makes. The name of a signer may have a colon itself, and
`hmac.compare_digest` raises on texts that are not ASCII. `evaluate_exact_iff` says when the verdict is
right nevertheless.
-/

namespace Drivers

open Python FileSystem List SignaturePolicy

variable {signature signer : Str} {payload secret : Bytes} {policy : SignaturePolicy}

/-! ## The name in a signature -/

theorem cut_eq_some {sep : Nat} {text left right : Str} :
    cut sep text = some (left, right) ↔ text = left ++ sep :: right ∧ sep ∉ left := by
  induction text generalizing left with
  | nil => simp [cut]
  | cons c text ih =>
    rw [cut]
    cases left <;> grind [Option.map_eq_some_iff]

theorem signerOf_eq_some : signerOf signature = some signer ↔
    58 ∉ signer ∧ ∃ digest, signature = lit "tds-sig-v1:" ++ signer ++ 58 :: digest := by
  have hscheme : lit "tds-sig-v1:" = lit "tds-sig-v1" ++ [58] := by decide
  have hcolon : 58 ∉ lit "tds-sig-v1" := by decide
  simp only [signerOf, Option.bind_eq_bind, Option.bind_eq_some_iff, Prod.exists,
    cut_eq_some, Option.ite_none_right_eq_some, Option.some.injEq]
  constructor
  · rintro ⟨scheme, rest, ⟨rfl, -⟩, name, digest, ⟨rfl, hname⟩, rfl, rfl⟩
    exact ⟨hname, digest, by simp [hscheme]⟩
  · rintro ⟨hname, digest, rfl⟩
    exact ⟨_, _, ⟨by simp [hscheme], hcolon⟩, signer, digest, ⟨rfl, hname⟩, rfl, rfl⟩

/-! ## Verdicts -/

section Verdicts

variable [Runtime]

/-- The signature is the one that an approved signer makes of the payload. -/
def SignaturePolicy.Signed (policy : SignaturePolicy) (payload : Bytes) (signature : Str) : Prop :=
  ∃ signer secret, policy.signerSecrets.get signer = some secret ∧
    signPayload payload signer secret = .ok signature

omit [Runtime] in
theorem hex_lt (d : Digest) : ∀ c ∈ d.hex, c < 128 := by
  intro c hc
  have := hexOfBytes_bounds d.bytes c hc
  omega

omit [Runtime] in
theorem colon_notMem_hex (d : Digest) : 58 ∉ d.hex := by
  intro hc
  obtain ⟨x, -, hx⟩ := mem_flatMap.mp hc
  have hdigit : ∀ n, n < 16 → hexDigit n ≠ 58 := by decide
  have hlt := x.toNat_lt
  simp only [mem_cons, not_mem_nil, or_false] at hx
  rcases hx with hx | hx
  · exact hdigit _ (by omega) hx.symm
  · exact hdigit _ (by omega) hx.symm

theorem signPayload_eq_ok : signPayload payload signer secret = .ok signature ↔
    ∃ name, encodeText signer = .ok name ∧ signature =
      lit "tds-sig-v1:" ++ signer ++ 58 :: (hmacSha256 secret (name ++ 0 :: payload)).hex := by
  rw [signPayload, bind_eq_ok]
  simp only [pure_eq_ok, Except.ok.injEq, eq_comm (b := signature)]

section

variable (h : signPayload payload signer secret = .ok signature)
include h

/-- A signature names its signer just if there is no colon in the name. -/
theorem signerOf_signPayload :
    signerOf signature = some signer ↔ 58 ∉ signer := by
  obtain ⟨name, -, rfl⟩ := signPayload_eq_ok.mp h
  rw [signerOf_eq_some]
  exact ⟨And.left, fun hsigner => ⟨hsigner, _, rfl⟩⟩

theorem signPayload_inj {signer' : Str} {secret' : Bytes}
    (h' : signPayload payload signer' secret' = .ok signature) : signer = signer' := by
  obtain ⟨_, -, rfl⟩ := signPayload_eq_ok.mp h
  obtain ⟨_, -, heq⟩ := signPayload_eq_ok.mp h'
  have := cancel_append_cons (colon_notMem_hex _) (colon_notMem_hex _) heq
  exact append_cancel_left this.1

theorem exists_signerOf_signPayload :
    ∃ name, signerOf signature = some name := by
  obtain ⟨encoded, -, rfl⟩ := signPayload_eq_ok.mp h
  have hmem : 58 ∈ signer ++ 58 :: (hmacSha256 secret (encoded ++ 0 :: payload)).hex := by simp
  obtain ⟨left, right, heq, hleft⟩ := eq_append_cons_of_mem hmem
  refine ⟨left, signerOf_eq_some.mpr ⟨hleft, right, ?_⟩⟩
  rw [append_assoc, heq, append_assoc]

end

omit [Runtime] in
theorem compareDigest_of_ascii {a b : Str} (ha : ∀ c ∈ a, c < 128) (hb : ∀ c ∈ b, c < 128) :
    compareDigest a b = .ok (decide (a = b)) := by
  have hany : (a ++ b).any (fun c => 128 ≤ c) ≠ true := by
    simp only [Ne, any_eq_true, mem_append, decide_eq_true_eq, not_exists, not_and, not_le]
    rintro c (hc | hc)
    · exact ha c hc
    · exact hb c hc
  rw [compareDigest, raiseIf, if_neg hany, ok_bind, pure_eq_ok]

omit [Runtime] in
theorem compareDigest_of_not_ascii {a b : Str} (hb : ∃ c ∈ b, 128 ≤ c) :
    compareDigest a b = raise .typeError
      (lit "comparing strings with non-ASCII characters is not supported") := by
  obtain ⟨c, hc, hge⟩ := hb
  have hany : (a ++ b).any (fun c => 128 ≤ c) = true :=
    any_eq_true.mpr ⟨c, mem_append_right _ hc, decide_eq_true hge⟩
  rw [compareDigest, raiseIf, if_pos hany]
  rfl

/-- For an ASCII signature of an approved signer, `verify_signature` decides whether the signer made
it; for any other it raises. -/
theorem verifySignature_eq_ok (hsigner : signerOf signature = some signer)
    {verified : Bool} : verifySignature payload signature signer secret = .ok verified ↔
      (∀ c ∈ signature, c < 128) ∧
        (verified = true ↔ signPayload payload signer secret = .ok signature) := by
  obtain ⟨-, digest, hsignature⟩ := signerOf_eq_some.mp hsigner
  constructor
  · intro h
    obtain ⟨expected, hexpected, hcompare⟩ := bind_eq_ok.mp h
    constructor
    · intro c hc
      by_contra hge
      rw [compareDigest_of_not_ascii ⟨c, hc, not_lt.mp hge⟩] at hcompare
      cases hcompare
    · obtain ⟨_, -, hverified⟩ := bind_eq_ok.mp hcompare
      obtain rfl : decide (expected = signature) = verified := Except.ok.inj hverified
      rw [decide_eq_true_eq, hexpected, Except.ok.injEq]
  · rintro ⟨hascii, hverified⟩
    -- the name is a part of the signature, and so it can be encoded
    have hname : ∀ c ∈ signer, c < 128 := fun c hc => hascii c (by simp [hsignature, hc])
    obtain ⟨name, hencode⟩ : ∃ name, encodeText signer = .ok name := by
      rw [exists_encodeText_iff, all_eq_true]
      intro c hc
      have := hname c hc
      simp only [isScalar, Bool.or_eq_true, Bool.and_eq_true, decide_eq_true_eq]
      omega
    obtain ⟨expected, hexpected⟩ : ∃ expected, signPayload payload signer secret = .ok expected :=
      ⟨_, signPayload_eq_ok.mpr ⟨name, hencode, rfl⟩⟩
    have hlt : ∀ c ∈ expected, c < 128 := by
      obtain ⟨_, -, rfl⟩ := signPayload_eq_ok.mp hexpected
      intro c hc
      have hscheme : ∀ c ∈ lit "tds-sig-v1:", c < 128 := by decide
      rcases mem_append.mp hc with hc | hc
      · rcases mem_append.mp hc with hc | hc
        · exact hscheme c hc
        · exact hname c hc
      · rcases mem_cons.mp hc with rfl | hc
        · decide
        · exact hex_lt _ c hc
    rw [verifySignature, hexpected, ok_bind, compareDigest_of_ascii hlt hascii, Except.ok.injEq,
      Bool.eq_iff_iff, hverified, hexpected, decide_eq_true_eq, Except.ok.injEq]

omit [Runtime] in
theorem ite_accept_iff {verified : Bool} :
    (if verified then SignatureVerdict.accept else .badSignature) = .accept ↔ verified = true := by
  cases verified <;> simp

theorem evaluate_of_signerOf (hrevoked : signature ∉ policy.revokedSignatures)
    (hsigner : signerOf signature = some signer) :
    policy.evaluate payload (some signature) =
      match policy.signerSecrets.get signer with
      | none => .ok .unknownSigner
      | some secret => do
        let verified ← verifySignature payload signature signer secret
        return if verified then .accept else .badSignature := by
  have hnil : signature ≠ [] := by
    rintro rfl
    cases hsigner
  cases hsecret : policy.signerSecrets.get signer <;>
    simp [evaluate, hnil, hrevoked, hsigner, hsecret]

/-- `evaluate` returns a verdict, and accepts just the signatures of approved signers that are not
revoked, if the signature is revoked, or if the signer has no colon in its name and a signature that
names an approved signer is ASCII; and only then. -/
theorem evaluate_exact_iff (policy : SignaturePolicy) (payload : Bytes) (signature : Str) :
    (∃ verdict, policy.evaluate payload (some signature) = .ok verdict ∧
      (verdict = .accept ↔
        policy.Signed payload signature ∧ signature ∉ policy.revokedSignatures)) ↔
    signature ∈ policy.revokedSignatures ∨
      (∀ signer secret, policy.signerSecrets.get signer = some secret →
        signPayload payload signer secret = .ok signature → 58 ∉ signer) ∧
      (∀ signer, SignaturePolicy.signerOf signature = some signer → ∀ secret,
        policy.signerSecrets.get signer = some secret → ∀ c ∈ signature, c < 128) := by
  cases hname : signerOf signature with
  | none =>
    have hunsigned : ∀ signer secret, signPayload payload signer secret ≠ .ok signature := by
      intro signer secret h
      obtain ⟨name, hsome⟩ := exists_signerOf_signPayload h
      rw [hname] at hsome
      cases hsome
    obtain ⟨verdict, hverdict, hne⟩ : ∃ verdict,
        policy.evaluate payload (some signature) = .ok verdict ∧ verdict ≠ .accept := by
      simp only [evaluate, hname]
      split_ifs <;> exact ⟨_, rfl, by decide⟩
    refine iff_of_true ⟨verdict, hverdict, iff_of_false hne ?_⟩ (.inr ⟨?_, nofun⟩)
    · rintro ⟨⟨signer, secret, -, h⟩, -⟩
      exact hunsigned signer secret h
    · intro signer secret _ h
      exact absurd h (hunsigned signer secret)
  | some name =>
    by_cases hrevoked : signature ∈ policy.revokedSignatures
    · obtain ⟨verdict, hverdict, hne⟩ : ∃ verdict,
          policy.evaluate payload (some signature) = .ok verdict ∧ verdict ≠ .accept := by
        simp only [evaluate, if_pos hrevoked]
        split_ifs <;> exact ⟨_, rfl, by decide⟩
      exact iff_of_true ⟨verdict, hverdict, iff_of_false hne fun h => h.2 hrevoked⟩ (.inl hrevoked)
    simp only [hrevoked, not_false_eq_true, and_true, false_or]
    -- an approved signer without a colon is the one that the signature names
    have hcolon : ∀ signer secret, signPayload payload signer secret = .ok signature →
        (58 ∉ signer ↔ name = signer) := by
      intro signer secret h
      rw [← signerOf_signPayload h, hname, Option.some.injEq]
    simp only [Option.some.injEq, forall_eq', evaluate_of_signerOf hrevoked hname]
    cases hsecret : policy.signerSecrets.get name with
    | none =>
      simp only [reduceCtorEq, false_implies, implies_true, and_true, Except.ok.injEq,
        exists_eq_left', false_iff]
      constructor
      · intro hunsigned signer secret hget hsign
        exact absurd ⟨signer, secret, hget, hsign⟩ hunsigned
      · rintro hcolons ⟨signer, secret, hget, hsign⟩
        obtain rfl := (hcolon signer secret hsign).mp (hcolons signer secret hget hsign)
        rw [hsecret] at hget
        cases hget
    | some secret =>
      dsimp only
      constructor
      · rintro ⟨verdict, h, hsigned⟩
        obtain ⟨verified, hverified, hverdict⟩ := bind_eq_ok.mp h
        obtain ⟨hascii, hsign⟩ := (verifySignature_eq_ok hname).mp hverified
        obtain rfl := Except.ok.inj hverdict
        rw [ite_accept_iff] at hsigned
        refine ⟨fun signer secret' hget hsign' => ?_, fun _ _ => hascii⟩
        have hmade := hsign.mp (hsigned.mpr ⟨signer, secret', hget, hsign'⟩)
        rw [hcolon signer secret' hsign', signPayload_inj hmade hsign']
      · rintro ⟨hcolons, hascii⟩
        obtain ⟨verified, hsign⟩ :
            ∃ verified : Bool, verified = true ↔ signPayload payload name secret = .ok signature := by
          classical exact ⟨decide _, decide_eq_true_iff⟩
        have hverified := (verifySignature_eq_ok hname).mpr ⟨hascii secret rfl, hsign⟩
        refine ⟨if verified then .accept else .badSignature, by rw [hverified, ok_bind, pure_eq_ok], ?_⟩
        rw [ite_accept_iff, hsign]
        constructor
        · intro h
          exact ⟨name, secret, hsecret, h⟩
        · rintro ⟨signer, secret', hget, hsign'⟩
          obtain rfl := (hcolon signer secret' hsign').mp (hcolons signer secret' hget hsign')
          rw [hsecret] at hget
          obtain rfl := Option.some.inj hget
          exact hsign'

end Verdicts

section Sample

attribute [local instance] FileSystem.sampleRuntime

def twoSigners : SignaturePolicy :=
  { signerSecrets := [(lit "alice", [107]), (lit "team:alice", [108])] }

/-- `alice` and `team:alice` are approved. A signature in the name of `alice` with a letter that is not
ASCII makes `evaluate` raise, and a signature of `team:alice` is taken for one of an unknown `team`. -/
theorem verdict_wrong_sample :
    twoSigners.evaluate [] (some (lit "tds-sig-v1:alice:é")) = raise .typeError
      (lit "comparing strings with non-ASCII characters is not supported") ∧
    ∃ signature, twoSigners.Signed [] signature ∧
      twoSigners.evaluate [] (some signature) = .ok .unknownSigner := by
  have hsign : ∀ signer : Str, signer.all isScalar = true → ∀ secret,
      ∃ signature, signPayload [] signer secret = .ok signature := by
    intro signer hscalar secret
    obtain ⟨name, hname⟩ := exists_encodeText_iff.mpr hscalar
    exact ⟨_, signPayload_eq_ok.mpr ⟨name, hname, rfl⟩⟩
  constructor
  · obtain ⟨expected, hexpected⟩ := hsign (lit "alice") (by decide) [107]
    have hget : twoSigners.signerSecrets.get (lit "alice") = some [107] := by decide
    have halice : signerOf (lit "tds-sig-v1:alice:é") = some (lit "alice") := by decide
    rw [evaluate_of_signerOf not_mem_nil halice, hget]
    dsimp only
    rw [verifySignature, hexpected, ok_bind,
      compareDigest_of_not_ascii ⟨233, by decide, by decide⟩]
    rfl
  · obtain ⟨signature, hsignature⟩ := hsign (lit "team:alice") (by decide) [108]
    obtain ⟨name, -, htext⟩ := signPayload_eq_ok.mp hsignature
    have hparts : lit "team:alice" = lit "team" ++ 58 :: lit "alice" := by decide
    have hteam : signerOf signature = some (lit "team") := by
      rw [hparts, append_assoc, append_assoc, ← append_assoc] at htext
      exact signerOf_eq_some.mpr ⟨by decide, _, htext⟩
    have hget : twoSigners.signerSecrets.get (lit "team") = none := by decide
    refine ⟨signature, ⟨lit "team:alice", [108], by decide, hsignature⟩, ?_⟩
    rw [evaluate_of_signerOf not_mem_nil hteam, hget]

end Sample

end Drivers
