import Tds.Drivers.Proofs.Verdict

/-!
# Grants of the local administrator

`admin/auth.py`: a grant is signed over the text of its fields, joined by bars that nothing escapes.
Times are numbers of microseconds, so that their text is exact.
-/

namespace Admin

open Python Drivers List
open FileSystem (Check ExceptionType raise raiseIf)

/-- `f"{time:.6f}"`. -/
def timeText (micros : Int) : Str :=
  (if micros < 0 then [45] else []) ++ printNat (micros.natAbs / 1000000) ++
    46 :: (printNat (1000000 + micros.natAbs % 1000000)).tail

/-- A grant with its signature. -/
structure ConfigGrant where
  subject : Str
  action : Str
  issuedAt : Int
  expiresAt : Int
  nonce : Str
  signature : Str

/-- What is signed. -/
def ConfigGrant.message (grant : ConfigGrant) : Str :=
  grant.subject ++ 124 :: (grant.action ++ 124 :: (timeText grant.issuedAt ++
    124 :: (timeText grant.expiresAt ++ 124 :: grant.nonce)))

/-- `PermissionError`, which no other model tells apart. -/
def permissionError : ExceptionType := .other 13

/-- `LocalAuthProvider`. -/
structure LocalAuthProvider where
  secret : Str
  defaultSubject : Str

section Signing

variable [Runtime]

def signMessage (secret message : Str) : Check Str := do
  let key ← encodeText secret
  let raw ← encodeText message
  return (hmacSha256 key raw).hex

/-- The grant is current, for the action, and signed. -/
def ConfigGrant.isValid (grant : ConfigGrant) (secret : Str) (action : Option Str) (now : Int) :
    Check Bool :=
  if grant.expiresAt < now then return false
  else if action ≠ none ∧ action ≠ some grant.action then return false
  else do
    let expected ← signMessage secret grant.message
    compareDigest expected grant.signature

namespace LocalAuthProvider

variable (provider : LocalAuthProvider)

/-- `issue` at a time, with the random octets of the nonce. -/
def issue (action : Str) (subject : Option Str) (ttlSeconds now : Int) (random : Bytes) :
    Check ConfigGrant := do
  let subject := match subject with
    | none | some [] => provider.defaultSubject
    | some name => name
  let grant : ConfigGrant := ⟨subject, action, now, now + ttlSeconds * 1000000, hexOfBytes random, []⟩
  let signature ← signMessage provider.secret grant.message
  return { grant with signature := signature }

/-- Raises unless the grant is valid. -/
def verify (grant : ConfigGrant) (action : Str) (now : Int) : Check Unit := do
  let valid ← grant.isValid provider.secret (some action) now
  raiseIf (valid = false) permissionError (lit "Invalid or expired config grant")

/-- A grant that the provider has issued, with the twelve octets of `token_hex`. -/
def IssuedGrant : Type :=
  { grant : ConfigGrant // ∃ action subject ttl now random, random.length = 12 ∧
    provider.issue action subject ttl now random = .ok grant }

variable {provider}

/-- Every accepted grant over a message that was signed has the subject and the action of an issued one. -/
def Authentic (issued : Set provider.IssuedGrant) : Prop :=
  ∀ grant action now, provider.verify grant action now = .ok () →
    (∃ g ∈ issued, grant.message = g.1.message) →
      ∃ g ∈ issued, g.1.subject = grant.subject ∧ g.1.action = action

/-- What may follow the subject and the action of another grant in the text `subject|action` of an
issued one: nothing, or up to two times, which the other grant takes for its own, and after two of them
anything, which becomes a part of its nonce. -/
inductive Tail : Str → Prop
  | empty : Tail []
  | time (t : Int) : Tail (124 :: timeText t)
  | times (t t' : Int) : Tail (124 :: (timeText t ++ 124 :: timeText t'))
  | longer (t t' : Int) (rest : Str) : Tail (124 :: (timeText t ++ 124 :: (timeText t' ++ 124 :: rest)))

/-- Every pair that the text `subject|action` of an issued grant begins with, up to a tail, was issued. -/
def SplitsIssued (issued : Set provider.IssuedGrant) : Prop :=
  ∀ g ∈ issued, ∀ subject action tail, Tail tail →
    g.1.subject ++ 124 :: g.1.action = subject ++ 124 :: (action ++ tail) →
      ∃ g' ∈ issued, g'.1.subject = subject ∧ g'.1.action = action

theorem ascii_of_signMessage {secret message signature : Str}
    (h : signMessage secret message = .ok signature) : ∀ c ∈ signature, c < 128 := by
  obtain ⟨key, -, h⟩ := bind_eq_ok.mp h
  obtain ⟨raw, -, h⟩ := bind_eq_ok.mp h
  cases h
  exact hex_lt _

theorem verify_eq_ok {grant : ConfigGrant} {action : Str} {now : Int} :
    provider.verify grant action now = .ok () ↔ now ≤ grant.expiresAt ∧ grant.action = action ∧
      signMessage provider.secret grant.message = .ok grant.signature := by
  unfold verify ConfigGrant.isValid
  by_cases hexpired : grant.expiresAt < now
  · simp [hexpired, raiseIf, raise, hexpired.not_ge]
  by_cases haction : grant.action = action
  · subst haction
    rw [if_neg hexpired, if_neg (by simp)]
    constructor
    · intro h
      obtain ⟨valid, hvalid, hraise⟩ := bind_eq_ok.mp h
      obtain ⟨expected, hexpected, hcompare⟩ := bind_eq_ok.mp hvalid
      obtain ⟨_, -, hequal⟩ := bind_eq_ok.mp hcompare
      cases hequal
      have : expected = grant.signature := by simpa [raiseIf, raise] using hraise
      exact ⟨not_lt.mp hexpired, rfl, this ▸ hexpected⟩
    · rintro ⟨-, -, hsigned⟩
      have hascii := ascii_of_signMessage hsigned
      rw [hsigned, ok_bind, compareDigest_of_ascii hascii hascii]
      simp [raiseIf]
  · simp [hexpired, haction, raiseIf, raise, Ne.symm haction]

theorem signMessage_of_issued (g : provider.IssuedGrant) :
    signMessage provider.secret g.1.message = .ok g.1.signature ∧ 124 ∉ g.1.nonce := by
  obtain ⟨grant, action, subject, ttl, now, random, -, h⟩ := g
  obtain ⟨signature, hsignature, h⟩ := bind_eq_ok.mp h
  cases h
  refine ⟨hsignature, fun hbar => ?_⟩
  have := hexOfBytes_bounds random 124 hbar
  omega

omit [Runtime] in
theorem bar_notMem_timeText (micros : Int) : 124 ∉ timeText micros := by
  have hdigits : ∀ n, 124 ∉ printNat n := fun n h => by
    have := printNat_digits n 124 h
    revert this
    decide
  simp only [timeText, mem_append, mem_cons, not_or]
  refine ⟨⟨?_, hdigits _⟩, by decide, fun h => hdigits _ (mem_of_mem_tail h)⟩
  split <;> decide

omit [Runtime] in
/-- A text without a bar is what follows the last bar, or the last one of the other side is in it. -/
theorem split_last {left right left' right' : Str} (hright : 124 ∉ right)
    (h : left ++ 124 :: right = left' ++ 124 :: right') :
    (left = left' ∧ right = right') ∨
      ∃ between, right' = between ++ 124 :: right ∧ left = left' ++ 124 :: between := by
  rcases append_eq_append_iff.mp h with ⟨between, hleft, hbar⟩ | ⟨between, hleft, hbar⟩
  · cases between with
    | nil => exact .inl ⟨by simpa using hleft.symm, (cons.inj hbar).2⟩
    | cons c between =>
      rw [(cons.inj hbar).2] at hright
      simp at hright
  · cases between with
    | nil => exact .inl ⟨by simpa using hleft, (cons.inj hbar).2.symm⟩
    | cons c between =>
      rw [cons_append] at hbar
      obtain ⟨rfl, hrest⟩ := cons.inj hbar
      exact .inr ⟨between, hrest, hleft⟩

omit [Runtime] in
/-- The last bar of a text with a time behind it. -/
theorem split_time {left left' : Str} {t t' : Int}
    (h : left ++ 124 :: timeText t = left' ++ 124 :: timeText t') :
    left = left' ∧ timeText t = timeText t' := by
  rcases split_last (bar_notMem_timeText t) h with h | ⟨between, h, -⟩
  · exact h
  · exact absurd (h ▸ by simp) (bar_notMem_timeText t')

omit [Runtime] in
/-- A message is that of an issued grant just when the rest of the issued subject and action is a tail. -/
theorem exists_message_iff {g : ConfigGrant} (hnonce : 124 ∉ g.nonce) (subject action : Str) :
    (∃ issuedAt expiresAt nonce, (⟨subject, action, issuedAt, expiresAt, nonce, []⟩ : ConfigGrant).message =
      g.message) ↔
    ∃ tail, Tail tail ∧ g.subject ++ 124 :: g.action = subject ++ 124 :: (action ++ tail) := by
  have hform : ∀ grant : ConfigGrant, grant.message = (((grant.subject ++ 124 :: grant.action) ++
      124 :: timeText grant.issuedAt) ++ 124 :: timeText grant.expiresAt) ++ 124 :: grant.nonce := by
    intro grant
    simp [ConfigGrant.message]
  constructor
  · rintro ⟨issuedAt, expiresAt, nonce, hmessage⟩
    rw [hform, hform] at hmessage
    dsimp only at hmessage
    -- the bars are read from the last one on, as far as the nonce of the other grant goes
    rcases split_last hnonce hmessage.symm with ⟨hleft, -⟩ | ⟨after, -, hafter⟩
    · obtain ⟨hleft, -⟩ := split_time hleft
      obtain ⟨hleft, -⟩ := split_time hleft
      exact ⟨[], .empty, by simpa using hleft⟩
    rcases split_last (bar_notMem_timeText _) hafter with ⟨hleft, -⟩ | ⟨between, -, hbetween⟩
    · obtain ⟨hleft, -⟩ := split_time hleft
      exact ⟨_, .time issuedAt, by simpa using hleft⟩
    rcases split_last (bar_notMem_timeText _) hbetween with ⟨hleft, -⟩ | ⟨rest, -, hrest⟩
    · exact ⟨_, .times issuedAt expiresAt, by simpa using hleft⟩
    · exact ⟨_, .longer issuedAt expiresAt rest, by simpa using hrest⟩
  · rintro ⟨tail, htail, hsplit⟩
    simp only [hform, hsplit]
    cases htail with
    | empty => exact ⟨g.issuedAt, g.expiresAt, g.nonce, by simp⟩
    | time t => exact ⟨t, g.issuedAt, timeText g.expiresAt ++ 124 :: g.nonce, by simp⟩
    | times t t' =>
      exact ⟨t, t', timeText g.issuedAt ++ 124 :: (timeText g.expiresAt ++ 124 :: g.nonce), by simp⟩
    | longer t t' rest =>
      exact ⟨t, t', rest ++ 124 :: (timeText g.issuedAt ++ 124 :: (timeText g.expiresAt ++
        124 :: g.nonce)), by simp⟩

theorem authentic_iff (issued : Set provider.IssuedGrant) : Authentic issued ↔ SplitsIssued issued := by
  constructor
  · intro h g hg subject action tail htail hsplit
    obtain ⟨hsigned, hnonce⟩ := signMessage_of_issued g
    obtain ⟨issuedAt, expiresAt, nonce, hmessage⟩ :=
      (exists_message_iff hnonce subject action).mpr ⟨tail, htail, hsplit⟩
    exact h ⟨subject, action, issuedAt, expiresAt, nonce, g.1.signature⟩ action expiresAt
      (verify_eq_ok.mpr ⟨le_refl _, rfl, hmessage ▸ hsigned⟩) ⟨g, hg, hmessage⟩
  · rintro h grant action now hverify ⟨g, hg, hmessage⟩
    obtain ⟨-, rfl, -⟩ := verify_eq_ok.mp hverify
    obtain ⟨tail, htail, hsplit⟩ := (exists_message_iff (signMessage_of_issued g).2 grant.subject
      grant.action).mp ⟨grant.issuedAt, grant.expiresAt, grant.nonce, hmessage⟩
    exact h g hg grant.subject grant.action tail htail hsplit

theorem splitsIssued_of_barless {issued : Set provider.IssuedGrant}
    (h : ∀ g ∈ issued, 124 ∉ g.1.subject ∧ 124 ∉ g.1.action) : SplitsIssued issued := by
  intro g hg subject action tail htail hsplit
  obtain ⟨hsubject, haction⟩ := h g hg
  have hcount := congrArg (count 124) hsplit
  simp only [count_append, count_cons_self, count_eq_zero.mpr hsubject, count_eq_zero.mpr haction]
    at hcount
  have hsubject' : 124 ∉ subject := count_eq_zero.mp (by omega)
  have htail' : 124 ∉ tail := count_eq_zero.mp (by omega)
  obtain rfl : tail = [] := by
    cases htail with
    | empty => rfl
    | _ => simp at htail'
  -- the text up to the first bar is the subject, and the rest is the action
  have hcut := (cut_eq_some.mpr ⟨rfl, hsubject⟩).symm.trans (cut_eq_some.mpr ⟨hsplit, hsubject'⟩)
  simp only [append_nil, Option.some.injEq, Prod.mk.injEq] at hcut
  exact ⟨g, hg, hcut.1, hcut.2⟩

/-- **Grants.** What `verify` accepts was issued, just when every pair that can be read off the text of an
issued subject and action was issued too. That is so if no subject and no action has a bar. -/
theorem authentic_iff_splitsIssued (provider : LocalAuthProvider) (issued : Set provider.IssuedGrant) :
    (Authentic issued ↔ SplitsIssued issued) ∧
      ((∀ g ∈ issued, 124 ∉ g.1.subject ∧ 124 ∉ g.1.action) → Authentic issued) :=
  ⟨authentic_iff issued, fun h => (authentic_iff issued).mpr (splitsIssued_of_barless h)⟩

end LocalAuthProvider

end Signing

section Sample

attribute [local instance] FileSystem.sampleRuntime

def sampleProvider : LocalAuthProvider := ⟨lit "secret", lit "local-admin"⟩

/-- A grant for `c` to `a|b` is accepted as one for `b|c` to `a`. -/
theorem forged_grant_sample : ∃ (g : sampleProvider.IssuedGrant) (grant : ConfigGrant),
    g.1.subject = lit "a|b" ∧ g.1.action = lit "c" ∧ grant.subject = lit "a" ∧
      grant.message = g.1.message ∧ sampleProvider.verify grant (lit "b|c") 0 = .ok () := by
  let nonce := hexOfBytes (replicate 12 0)
  let signed := ConfigGrant.message ⟨lit "a|b", lit "c", 0, 300000000, nonce, []⟩
  obtain ⟨key, hkey⟩ := exists_encodeText_iff.mpr (show (lit "secret").all isScalar = true by decide)
  obtain ⟨raw, hraw⟩ := exists_encodeText_iff.mpr (show signed.all isScalar = true by decide +kernel)
  have hsignature : signMessage (lit "secret") signed = .ok (hmacSha256 key raw).hex := by
    rw [signMessage, hkey, ok_bind, hraw]
    rfl
  exact ⟨⟨⟨lit "a|b", lit "c", 0, 300000000, nonce, _⟩, lit "c", some (lit "a|b"), 300, 0,
    replicate 12 0, rfl, bind_eq_ok.mpr ⟨_, hsignature, rfl⟩⟩,
    ⟨lit "a", lit "b|c", 0, 300000000, nonce, _⟩, rfl, rfl, rfl, rfl,
    LocalAuthProvider.verify_eq_ok.mpr ⟨show (0 : Int) ≤ 300000000 by decide, rfl, hsignature⟩⟩

end Sample

end Admin
