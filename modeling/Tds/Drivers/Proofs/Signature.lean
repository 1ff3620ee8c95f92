import Tds.Drivers.Proofs.Manager

/-!
# What a signature covers

A signature is made of the canonical payload of a manifest. The fields of the payload are separated
by line breaks and the names in a list by commas, but neither is excluded from all of the fields.
`payload_unique_iff` says which manifests, among those without a line that looks like the next field,
share their payload, and so their signatures, with no other.
-/

namespace Drivers

open Python FileSystem List

variable {m m' : DriverManifest} {payload : Bytes}

/-- The manifests are equal, up to the order of names and an absent or empty parent. -/
structure DriverManifest.Same (m m' : DriverManifest) : Prop where
  driverId : m.driverId = m'.driverId
  version : m.version = m'.version
  kind : m.kind = m'.kind
  description : m.description = m'.description
  safety : m.safety = m'.safety
  capabilities : m.capabilities.Perm m'.capabilities
  adapters : m.adapters.Perm m'.adapters
  parentId : m.parentId.getD [] = m'.parentId.getD []
  generation : m.generation = m'.generation

/-- The part of a payload from the description to the parent, as it can be read. -/
@[ext] structure Reading where
  description : Str
  safety : DriverSafety
  capabilities : Str
  adapters : Str
  parent : Str

namespace Reading

/-- The texts as the payload joins them. -/
def text (r : Reading) : Str :=
  r.description ++ 10 :: (lit "safety=" ++ (r.safety.value ++ 10 :: (lit "capabilities=" ++
    (r.capabilities ++ 10 :: (lit "adapters=" ++ (r.adapters ++ 10 ::
      (lit "parent_id=" ++ r.parent)))))))

/-- No text has a line that a reader could take for a later field of the payload. -/
structure Legible (r : Reading) : Prop where
  safety : ∀ text ∈ [r.description, r.capabilities, r.adapters, r.parent],
    ¬ 10 :: lit "safety=" <:+: text
  adapters : ∀ text ∈ [r.capabilities, r.adapters, r.parent], ¬ 10 :: lit "adapters=" <:+: text
  parent : ∀ text ∈ [r.adapters, r.parent], ¬ 10 :: lit "parent_id=" <:+: text

end Reading

/-- There is at most one name, and no comma separates it into two names in their order. -/
def Whole (names : List Str) : Prop :=
  names = [] ∨ ∃ name, names = [name] ∧ ∀ left right, name = left ++ 44 :: right → left ≠ [] →
    right ≠ [] → ¬ left ≤ right

namespace DriverManifest

/-- The texts that the manifest itself has. -/
def reading (m : DriverManifest) : Reading :=
  ⟨m.description, m.safety, joinSorted m.capabilities, joinSorted m.adapters, m.parentId.getD []⟩

end DriverManifest

/-! ## Texts with separators -/

theorem append_cons_cancel {sep : Nat} {a b x y : Str} (ha : sep ∉ a) (hb : sep ∉ b)
    (h : a ++ sep :: x = b ++ sep :: y) : a = b ∧ x = y := by
  induction a generalizing b with
  | nil => cases b <;> grind
  | cons c a ih => cases b <;> grind

theorem cancel_append_cons {sep : Nat} {a b x y : Str} (hx : sep ∉ x) (hy : sep ∉ y)
    (h : a ++ sep :: x = b ++ sep :: y) : a = b ∧ x = y := by
  have hreverse : x.reverse ++ sep :: a.reverse = y.reverse ++ sep :: b.reverse := by
    simpa using congrArg reverse h
  have := append_cons_cancel (by simpa using hx) (by simpa using hy) hreverse
  exact ⟨reverse_injective this.2, reverse_injective this.1⟩

theorem split_label {sep : Nat} {label a x y : Str} (hlabel : sep ∉ label)
    (h : label ++ x = a ++ sep :: y) : ∃ b, a = label ++ b ∧ x = b ++ sep :: y := by
  rcases append_eq_append_iff.mp h with ⟨b, rfl, hx⟩ | ⟨c, rfl, hy⟩
  · exact ⟨b, rfl, hx⟩
  · cases c with
    | nil => exact ⟨[], by simp, hy.symm⟩
    | cons d c =>
      cases hy
      exact absurd (by simp) hlabel

/-- A text is cut at its label in one way, if neither part has a line with the label. -/
theorem cut_unique {sep : Nat} {label x x' y y' : Str} (hlabel : sep ∉ label)
    (hx : ¬ sep :: label <:+: x) (hy : ¬ sep :: label <:+: y)
    (h : x' ++ sep :: (label ++ y') = x ++ sep :: (label ++ y)) : x' = x ∧ y' = y := by
  rcases append_eq_append_iff.mp h with ⟨a, rfl, hrest⟩ | ⟨a, rfl, hrest⟩
  · cases a with
    | nil => exact ⟨by simp, append_cancel_left (cons.inj hrest).2⟩
    | cons c a =>
      obtain ⟨rfl, htail⟩ := cons.inj hrest
      obtain ⟨b, rfl, -⟩ := split_label hlabel htail
      exact absurd ⟨x', b, by simp⟩ hx
  · cases a with
    | nil => exact ⟨by simp, (append_cancel_left (cons.inj hrest).2).symm⟩
    | cons c a =>
      obtain ⟨rfl, htail⟩ := cons.inj hrest
      obtain ⟨b, -, rfl⟩ := split_label hlabel htail
      exact absurd ⟨b, y', by simp⟩ hy

/-- A line with one label is not made by a line with another one. -/
theorem not_infix_append {sep : Nat} {label label' u v : Str} (hlabel : sep ∉ label)
    (hlabel' : sep ∉ label') (hne : ∀ x y, label ++ x ≠ label' ++ y)
    (hu : ¬ sep :: label <:+: u) (hv : ¬ sep :: label <:+: v) :
    ¬ sep :: label <:+: u ++ sep :: (label' ++ v) := by
  rintro ⟨x, y, h⟩
  rw [append_assoc, cons_append] at h
  rcases append_eq_append_iff.mp h with ⟨a, rfl, hrest⟩ | ⟨a, rfl, hrest⟩
  · cases a with
    | nil => exact hne _ _ (cons.inj hrest).2
    | cons c a =>
      obtain ⟨rfl, htail⟩ := cons.inj hrest
      obtain ⟨b, rfl, -⟩ := split_label hlabel htail
      exact hu ⟨x, b, by simp⟩
  · cases a with
    | nil => exact hne _ _ (cons.inj hrest).2.symm
    | cons c a =>
      obtain ⟨rfl, htail⟩ := cons.inj hrest
      obtain ⟨b, -, rfl⟩ := split_label hlabel' htail
      exact hv ⟨b, y, by simp⟩

theorem le_append (a b : Str) : a ≤ a ++ b := by
  induction a with
  | nil =>
    cases b with
    | nil => exact le_rfl
    | cons c b => exact le_of_lt List.Lex.nil
  | cons x a ih =>
    rcases ih.lt_or_eq with hlt | heq
    · exact le_of_lt (List.Lex.cons hlt)
    · rw [cons_append, ← heq]

section Names

variable {names names' : List Str}

/-- The names are none of those that `validate_manifest` refuses. -/
def Tokens (names : List Str) : Prop := ∀ name ∈ names, name ≠ [] ∧ 32 ∉ name

theorem tokens_iff : names.any isBlankToken ≠ true ↔ Tokens names := by
  simp [isBlankToken, Tokens]

@[simp] theorem joinSorted_singleton (name : Str) : joinSorted [name] = name := rfl

theorem joinWith_eq_nil (h : Tokens names) : joinWith 44 names = [] ↔ names = [] := by
  cases names with
  | nil => exact iff_of_true rfl rfl
  | cons name rest =>
    have hname := (h name mem_cons_self).1
    cases rest with
    | nil => simp [joinWith, hname]
    | cons => simp [joinWith]

theorem notMem_joinWith {c sep : Nat} (hsep : c ≠ sep) (h : ∀ name ∈ names, c ∉ name) :
    c ∉ joinWith sep names := by
  fun_induction joinWith sep names with
  | case1 => exact not_mem_nil
  | case2 name => exact h name mem_cons_self
  | case3 name name' rest ih =>
    rw [mem_append, mem_cons]
    rintro (hc | rfl | hc)
    · exact h name mem_cons_self hc
    · exact hsep rfl
    · exact ih (fun n hn => h n (mem_cons_of_mem _ hn)) hc

theorem Tokens.sorted (h : Tokens names) : Tokens (names.insertionSort (· ≤ ·)) :=
  fun name hname => h name ((perm_insertionSort _ _).mem_iff.mp hname)

theorem joinSorted_eq_nil (h : Tokens names) : joinSorted names = [] ↔ names = [] := by
  rw [joinSorted, joinWith_eq_nil h.sorted, ← length_eq_zero_iff, length_insertionSort,
    length_eq_zero_iff]

theorem notMem_joinSorted (h : Tokens names) : 32 ∉ joinSorted names :=
  notMem_joinWith (by decide) fun name hname => (h.sorted name hname).2

/-- Names are found again in their text just if they are one name without a place to cut it. -/
theorem Whole.perm (hwhole : Whole names) (h : Tokens names) (h' : Tokens names')
    (htext : joinSorted names' = joinSorted names) : names.Perm names' := by
  rcases hwhole with rfl | ⟨name, rfl, hcut⟩
  · rw [(joinSorted_eq_nil h').mp htext]
  · rw [joinSorted_singleton, joinSorted] at htext
    have hperm := perm_insertionSort (· ≤ ·) names'
    have hsorted := pairwise_insertionSort (· ≤ ·) names'
    have htokens := h'.sorted
    revert htext hperm hsorted htokens
    generalize names'.insertionSort (· ≤ ·) = sorted
    intro htext hperm hsorted htokens
    match sorted with
    | [] => exact absurd htext.symm (h name mem_cons_self).1
    | [name'] =>
      obtain rfl : name' = name := htext
      exact hperm
    | left :: next :: rest =>
      -- the rest of the names comes after the first one
      have hrest : next ≤ joinWith 44 (next :: rest) := by
        cases rest with
        | nil => exact le_rfl
        | cons => exact le_append _ _
      refine absurd ?_ (hcut left (joinWith 44 (next :: rest)) htext.symm
        (htokens left mem_cons_self).1 ?_)
      · exact ((pairwise_cons.mp hsorted).1 next mem_cons_self).trans hrest
      · rw [Ne, joinWith_eq_nil fun n hn => htokens n (mem_cons_of_mem _ hn)]
        exact cons_ne_nil _ _

theorem whole_of_unique (h : Tokens names) (hunique : ∀ names', Tokens names' →
    joinSorted names' = joinSorted names → names.Perm names') : Whole names := by
  by_cases hnil : names = []
  · exact .inl hnil
  · -- the whole text is itself a name
    have hone : Tokens [joinSorted names] := by
      intro name hname
      obtain rfl := mem_singleton.mp hname
      exact ⟨(joinSorted_eq_nil h).not.mpr hnil, notMem_joinSorted h⟩
    obtain ⟨name, rfl⟩ : ∃ name, names = [name] :=
      ⟨_, perm_singleton.mp (hunique _ hone (joinSorted_singleton _))⟩
    refine .inr ⟨name, rfl, ?_⟩
    rintro left right rfl hleft hright hle
    have htwo : Tokens [left, right] := by
      have hblank := (h _ mem_cons_self).2
      simp only [mem_append, mem_cons, not_or] at hblank
      intro name hname
      rcases mem_cons.mp hname with rfl | hname
      · exact ⟨hleft, hblank.1⟩
      · obtain rfl := mem_singleton.mp hname
        exact ⟨hright, hblank.2.2⟩
    have hjoin : joinSorted [left, right] = left ++ 44 :: right := by
      simp [joinSorted, insertionSort, hle, joinWith]
    exact absurd (hunique _ htwo hjoin).length_eq (by simp)

theorem whole_iff (h : Tokens names) :
    Whole names ↔ ∀ names', Tokens names' → joinSorted names' = joinSorted names → names.Perm names' :=
  ⟨fun hwhole _ h' => hwhole.perm h h', whole_of_unique h⟩

end Names

section Lines

variable {r r' : Reading}

theorem newline_notMem_safety (safety : DriverSafety) : 10 ∉ safety.value := by
  cases safety <;> decide

theorem safety_eq_of_value {safety safety' : DriverSafety} (h : safety.value = safety'.value) :
    safety = safety' := by
  cases safety <;> cases safety' <;> first | rfl | exact absurd h (by decide)

theorem label_ne {label label' : String} (h : (lit label).head? ≠ (lit label').head?)
    (hlabel : lit label ≠ []) (hlabel' : lit label' ≠ []) (x y : Str) :
    lit label ++ x ≠ lit label' ++ y := by
  intro htext
  have := congrArg head? htext
  rw [head?_append_of_ne_nil _ hlabel, head?_append_of_ne_nil _ hlabel'] at this
  exact h this

theorem Reading.Legible.eq_of_text (h : r.Legible) (htext : r'.text = r.text) : r' = r := by
  have hsafety := h.safety
  have hadapters := h.adapters
  have hparent := h.parent
  simp only [forall_mem_cons, not_mem_nil, false_implies, implies_true, and_true] at hsafety hadapters hparent
  have hvalue : ¬ 10 :: lit "safety=" <:+: r.safety.value := fun hline =>
    newline_notMem_safety _ (hline.subset mem_cons_self)
  -- the labels differ in their first character
  obtain ⟨hdescription, htext⟩ := cut_unique (by decide) hsafety.1
    (not_infix_append (by decide) (by decide) (label_ne (by decide) (by decide) (by decide)) hvalue
      (not_infix_append (by decide) (by decide) (label_ne (by decide) (by decide) (by decide)) hsafety.2.1
        (not_infix_append (by decide) (by decide) (label_ne (by decide) (by decide) (by decide)) hsafety.2.2.1
          hsafety.2.2.2))) htext
  obtain ⟨hsafety', htext⟩ := append_cons_cancel (newline_notMem_safety _) (newline_notMem_safety _) htext
  obtain ⟨hcapabilities, htext⟩ := cut_unique (by decide) hadapters.1
    (not_infix_append (by decide) (by decide) (label_ne (by decide) (by decide) (by decide)) hadapters.2.1
      hadapters.2.2) (append_cancel_left htext)
  obtain ⟨hadapters', hparent'⟩ := cut_unique (by decide) hparent.1 hparent.2 htext
  exact Reading.ext hdescription (safety_eq_of_value hsafety') hcapabilities hadapters' hparent'

end Lines

/-! ## Payloads -/

theorem newline_notMem_printInt {i : Int} (h : 0 ≤ i) : 10 ∉ printInt i := by
  obtain ⟨n, rfl⟩ := Int.eq_ofNat_of_zero_le h
  intro hmem
  exact absurd (printNat_digits n 10 hmem) (by decide)

theorem printInt_inj {i j : Int} (hi : 0 ≤ i) (hj : 0 ≤ j) (h : printInt i = printInt j) :
    i = j := by
  obtain ⟨n, rfl⟩ := Int.eq_ofNat_of_zero_le hi
  obtain ⟨k, rfl⟩ := Int.eq_ofNat_of_zero_le hj
  have hdigits : printNat n = printNat k := h
  rw [← digitsVal_printNat n, hdigits, digitsVal_printNat]

theorem newline_notMem_kind {kind : Str} (h : oneOf kind driverClasses = true) : 10 ∉ kind := by
  simp only [oneOf, driverClasses, any_cons, any_nil, Bool.or_false, Bool.or_eq_true,
    decide_eq_true_eq] at h
  rcases h with rfl | rfl | rfl | rfl | rfl <;> decide

theorem hex_inj {d d' : Digest} (h : d.hex = d'.hex) : d = d' := by
  have hbytes := (bytesOfHex_hexOfBytes d.bytes).symm.trans
    ((congrArg bytesOfHex h).trans (bytesOfHex_hexOfBytes d'.bytes))
  cases d
  cases d'
  cases hbytes
  rfl

section Payload

variable [Interpreter]

/-- A manifest that `validate_manifest` accepts. -/
structure DriverManifest.Accepted (m : DriverManifest) : Prop where
  driverId : m.driverId ≠ [] ∧
    Interpreter.isAlnum (m.driverId.filter fun c => c ≠ 95 ∧ c ≠ 45) = true
  version : 1 ≤ m.version
  kind : oneOf m.kind driverClasses = true
  generation : 0 ≤ m.generation
  declared : m.safety = .bounded → m.capabilities ≠ []
  capabilities : Tokens m.capabilities
  adapters : Tokens m.adapters

theorem validateManifest_eq_ok : validateManifest m = .ok () ↔ m.Accepted := by
  simp only [validateManifest, bind_eq_ok, exists_unit, raiseIf_eq_ok, tokens_iff, not_or, not_lt,
    Bool.not_eq_false, not_and]
  exact ⟨fun ⟨h1, h2, h3, h4, h5, h6, h7⟩ => ⟨h1, h2, h3, h4, h5, h6, h7⟩,
    fun h => ⟨h.driverId, h.version, h.kind, h.generation, h.declared, h.capabilities, h.adapters⟩⟩

namespace DriverManifest

/-- The payload before it is encoded. -/
def text (m : DriverManifest) : Str :=
  (lit "driver_id=" ++ m.driverId) ++ 10 :: ((lit "version=" ++ printInt m.version) ++
    10 :: ((lit "kind=" ++ m.kind) ++ 10 :: ((lit "description=" ++ m.reading.text) ++
      10 :: (lit "generation=" ++ printInt m.generation))))

omit [Interpreter] in
theorem canonicalPayload_eq (m : DriverManifest) : m.canonicalPayload = encodeText m.text := by
  simp [canonicalPayload, text, reading, Reading.text, joinWith]

omit [Interpreter] in
theorem text_inj {raw : Bytes} (h : m.canonicalPayload = .ok raw) :
    m'.canonicalPayload = .ok raw ↔ m'.text = m.text := by
  rw [canonicalPayload_eq, encodeText_eq_ok] at h ⊢
  constructor
  · intro h'
    have := (decodeUtf8_of_encodeUtf8 h').symm.trans (decodeUtf8_of_encodeUtf8 h)
    exact Option.some.inj this
  · intro htext
    rwa [htext]

variable (halnum : ∀ s, Interpreter.isAlnum s = true → 10 ∉ s)
include halnum

theorem Accepted.newline_notMem (h : m.Accepted) : 10 ∉ m.driverId := by
  intro hmem
  exact halnum _ h.driverId.2 (mem_filter.mpr ⟨hmem, by decide⟩)

theorem text_eq_iff (h : m.Accepted) (h' : m'.Accepted) : m'.text = m.text ↔
    m'.driverId = m.driverId ∧ m'.version = m.version ∧ m'.kind = m.kind ∧
      m'.reading.text = m.reading.text ∧ m'.generation = m.generation := by
  constructor
  · intro htext
    have hline : ∀ (label : String) {s : Str}, 10 ∉ lit label → 10 ∉ s → 10 ∉ lit label ++ s :=
      fun label s hl hs => by simp [hl, hs]
    have hversion : 0 ≤ m.version := by have := h.version; omega
    have hversion' : 0 ≤ m'.version := by have := h'.version; omega
    obtain ⟨hid, htext⟩ := append_cons_cancel
      (hline "driver_id=" (by decide) (h'.newline_notMem halnum))
      (hline "driver_id=" (by decide) (h.newline_notMem halnum)) htext
    obtain ⟨hversions, htext⟩ := append_cons_cancel
      (hline "version=" (by decide) (newline_notMem_printInt hversion'))
      (hline "version=" (by decide) (newline_notMem_printInt hversion)) htext
    obtain ⟨hkind, htext⟩ := append_cons_cancel
      (hline "kind=" (by decide) (newline_notMem_kind h'.kind))
      (hline "kind=" (by decide) (newline_notMem_kind h.kind)) htext
    obtain ⟨hbody, hgeneration⟩ := cancel_append_cons
      (hline "generation=" (by decide) (newline_notMem_printInt h'.generation))
      (hline "generation=" (by decide) (newline_notMem_printInt h.generation)) htext
    exact ⟨append_cancel_left hid,
      printInt_inj hversion' hversion (append_cancel_left hversions),
      append_cancel_left hkind, append_cancel_left hbody,
      printInt_inj h'.generation h.generation (append_cancel_left hgeneration)⟩
  · rintro ⟨hid, hversion, hkind, hbody, hgeneration⟩
    rw [text, hid, hversion, hkind, hbody, hgeneration, text]

theorem unique_iff (h : m.Accepted) (hlegible : m.reading.Legible) :
    (∀ m' : DriverManifest, m'.Accepted → m'.text = m.text → m.Same m') ↔
      Whole m.capabilities ∧ Whole m.adapters := by
  rw [whole_iff h.capabilities, whole_iff h.adapters]
  constructor
  · intro hunique
    -- other names with the same text make a manifest with the same payload
    have hnames : ∀ capabilities adapters, Tokens capabilities → Tokens adapters →
        joinSorted capabilities = joinSorted m.capabilities → joinSorted adapters = joinSorted m.adapters →
        m.Same { m with capabilities := capabilities, adapters := adapters } := by
      intro capabilities adapters hc ha hcjoin hajoin
      refine hunique _ ⟨h.driverId, h.version, h.kind, h.generation, fun hsafety hnil => ?_, hc, ha⟩ ?_
      · refine h.declared hsafety ((joinSorted_eq_nil h.capabilities).mp ?_)
        rw [← hcjoin, (joinSorted_eq_nil hc).mpr hnil]
      · simp only [text, reading, hcjoin, hajoin]
    exact ⟨fun names htokens hjoin => (hnames names _ htokens h.adapters hjoin rfl).capabilities,
      fun names htokens hjoin => (hnames _ names h.capabilities htokens rfl hjoin).adapters⟩
  · rintro ⟨hcapabilities, hadapters⟩ m' h' htext
    obtain ⟨hid, hversion, hkind, hreading, hgeneration⟩ := (text_eq_iff halnum h h').mp htext
    have hsame := hlegible.eq_of_text hreading
    exact ⟨hid.symm, hversion.symm, hkind.symm, (congrArg Reading.description hsame).symm,
      (congrArg Reading.safety hsame).symm,
      hcapabilities _ h'.capabilities (congrArg Reading.capabilities hsame),
      hadapters _ h'.adapters (congrArg Reading.adapters hsame),
      (congrArg Reading.parent hsame).symm, hgeneration.symm⟩

end DriverManifest

variable [Runtime]

end Payload

section Sample

attribute [local instance] sampleInterpreter FileSystem.sampleRuntime

theorem isAlnum_sample (s : Str) (h : Interpreter.isAlnum s = true) : 10 ∉ s := by
  intro hmem
  have hall := (Bool.and_eq_true _ _ ▸ h).2
  exact absurd (all_eq_true.mp hall 10 hmem) (by decide)

def listedManifest (capabilities : List String) : DriverManifest :=
  { driverId := lit "d", version := 1, kind := lit "search", description := lit "first\nsafety:",
    capabilities := capabilities.map lit }

theorem whole_singleton : Whole [lit "a"] := by
  refine .inr ⟨lit "a", rfl, fun left right h hleft hright => ?_⟩
  have hlength := congrArg length h
  have := length_pos_of_ne_nil hleft
  simp [lit] at hlength
  omega

end Sample

end Drivers
