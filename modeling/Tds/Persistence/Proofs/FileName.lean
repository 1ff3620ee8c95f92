import Tds.Persistence.Mount

/-!
# Which paths have a file of their own

The name of a file determines the components of the path except for underscores at their ends: from the
right of one boundary such an underscore can be moved to its left, and back.
-/

namespace Persistence

open Python
open List hiding splitOn

/-- `encodeComponent`, in one pass. -/
def escape : Str → Str
  | [] => []
  | 95 :: 95 :: s => lit "%5F%5F" ++ escape s
  | c :: s => if c = 37 then lit "%25" ++ escape s else c :: escape s

variable {p q : List Str} {c s a : Str}

theorem escape_cons {c : Nat} (hc : c ≠ 37) (h : c = 95 → s.head? ≠ some 95) :
    escape (c :: s) = c :: escape s := by
  rw [escape.eq_def]
  split
  · next heq => cases heq
  · next heq =>
    cases heq
    exact absurd rfl (h rfl)
  · next heq =>
    cases heq
    exact if_neg hc

theorem replace_percent (s : Str) :
    replace s (lit "%") (lit "%25") = s.flatMap fun c => if c = 37 then lit "%25" else [c] := by
  unfold replace
  induction s with
  | nil => rfl
  | cons c s ih =>
    have hstarts : (lit "%").isPrefixOf (c :: s) = true ↔ c = 37 := by
      rw [List.isPrefixOf_iff_prefix]
      exact cons_prefix_cons.trans ⟨fun h => h.1.symm, fun h => ⟨h.symm, nil_prefix⟩⟩
    rw [replaceFrom, flatMap_cons]
    by_cases hc : c = 37
    · rw [if_pos (hstarts.mpr hc), if_pos hc, ← ih]
      rfl
    · rw [if_neg (hstarts.not.mpr hc), if_neg hc, ← ih]
      rfl

theorem replaceFrom_underscores_of_ne {c : Nat} (h : c = 95 → s.head? ≠ some 95) (new : Str) :
    replaceFrom (lit "__") new 0 (c :: s) = c :: replaceFrom (lit "__") new 0 s := by
  have hstarts : ¬ (lit "__").isPrefixOf (c :: s) = true := by
    rw [List.isPrefixOf_iff_prefix]
    rintro ⟨t, ht⟩
    obtain ⟨rfl, rfl⟩ := cons.inj ht
    exact h rfl rfl
  rw [replaceFrom, if_neg hstarts]

theorem encodeComponent_eq (s : Str) : encodeComponent s = escape s := by
  rw [encodeComponent, replace_percent, replace]
  fun_induction escape s with
  | case1 => rfl
  | case2 s ih =>
    rw [← ih]
    rfl
  | case3 s hne ih =>
    rw [← ih, flatMap_cons, if_pos rfl]
    show replaceFrom _ _ 0 (37 :: 50 :: 53 :: _) = 37 :: 50 :: 53 :: _
    rw [replaceFrom_underscores_of_ne (by simp), replaceFrom_underscores_of_ne (by simp),
      replaceFrom_underscores_of_ne (by simp)]
    rfl
  | case4 c s hne hc ih =>
    rw [← ih, flatMap_cons, if_neg hc]
    refine replaceFrom_underscores_of_ne ?_ _
    rintro rfl hhead
    cases s with
    | nil => cases hhead
    | cons d s =>
      rw [flatMap_cons] at hhead
      split at hhead
      · cases hhead
      · exact hne s rfl (congrArg (· :: s) (Option.some.inj hhead))

theorem escape_eq_nil_iff : escape s = [] ↔ s = [] := by
  fun_cases escape s <;> simp [lit]

theorem escape_eq_underscore {w : Str} (h : escape s = 95 :: w) :
    ∃ t, s = 95 :: t ∧ t.head? ≠ some 95 ∧ w = escape t := by
  revert h
  fun_cases escape s with
  | case1 | case2 | case3 => exact fun h => by cases h
  | case4 c s hne hc =>
    intro h
    obtain ⟨rfl, rfl⟩ := cons.inj h
    refine ⟨s, rfl, fun hhead => ?_, rfl⟩
    obtain ⟨t, rfl⟩ := head?_eq_some_iff.mp hhead
    exact hne t rfl rfl

theorem not_double_escape (s : Str) : ¬ [95, 95] <:+: escape s := by
  fun_induction escape s with
  | case1 => simp
  | case2 s ih => simpa [lit, infix_cons_iff, cons_prefix_cons] using ih
  | case3 s hne ih => simpa [lit, infix_cons_iff, cons_prefix_cons] using ih
  | case4 c s hne hc ih =>
    rw [infix_cons_iff]
    rintro (⟨w, hw⟩ | h)
    · obtain ⟨rfl, hs⟩ := cons.inj hw
      obtain ⟨t, rfl, -⟩ := escape_eq_underscore hs.symm
      exact hne t rfl rfl
    · exact ih h

def unescape : Str → Str
  | [] => []
  | 37 :: 50 :: 53 :: s => 37 :: unescape s
  | 37 :: 53 :: 70 :: s => 95 :: unescape s
  | c :: s => c :: unescape s

theorem unescape_escape (s : Str) : unescape (escape s) = s := by
  fun_induction escape s with
  | case1 => rfl
  | case2 s ih => exact congrArg (95 :: 95 :: ·) ih
  | case3 s hne ih => exact congrArg (37 :: ·) ih
  | case4 c s hne hc ih =>
    rw [unescape]
    · rw [ih]
    · rintro _ rfl
      exact absurd rfl hc
    · rintro _ rfl
      exact absurd rfl hc

theorem escape_injective : Function.Injective escape :=
  Function.LeftInverse.injective unescape_escape

/-- A pair of underscores is told from a single one that comes first. -/
theorem head_ne_of_escape {x w u v : Str} (hx : escape x = 95 :: w) (hw : w ≠ [])
    (h : w ++ u = escape a ++ v) : a.head? ≠ some 95 := by
  obtain ⟨t, rfl, ht, rfl⟩ := escape_eq_underscore hx
  intro ha
  obtain ⟨b, rfl⟩ := head?_eq_some_iff.mp ha
  by_cases hb : b.head? = some 95
  · obtain ⟨b, rfl⟩ := head?_eq_some_iff.mp hb
    revert h
    fun_cases escape t with
    | case1 => exact absurd rfl hw
    | case2 => exact absurd rfl ht
    | case3 => exact fun h => by cases (cons.inj (cons.inj h).2).1
    | case4 c t hne hc => exact fun h => hc (cons.inj h).1
  · rw [escape_cons (by decide) fun _ => hb] at h
    obtain ⟨c, w', hw'⟩ := exists_cons_of_ne_nil hw
    rw [hw'] at h
    obtain ⟨rfl, -⟩ := cons.inj h
    obtain ⟨t', rfl, -⟩ := escape_eq_underscore hw'
    exact ht rfl

/-! ## Files and boundaries -/

/-- The components in the name of a file, each after two underscores. -/
def joined (components : List Str) : Str := components.flatMap fun c => 95 :: 95 :: escape c

theorem joined_cons (c : Str) (components : List Str) :
    joined (c :: components) = 95 :: 95 :: (escape c ++ joined components) := by
  simp [joined]

theorem joined_append (left right : List Str) : joined (left ++ right) = joined left ++ joined right :=
  flatMap_append

theorem joined_replicate (k : Nat) : joined (replicate k (lit "_")) = replicate (3 * k) 95 := by
  induction k with
  | zero => rfl
  | succ k ih =>
    rw [replicate_succ, joined_cons, ih]
    rfl

theorem double_of_joined (h : joined p ≠ []) : ∃ t, joined p = 95 :: 95 :: t := by
  cases p with
  | nil => exact absurd rfl h
  | cons c p => exact ⟨_, joined_cons c p⟩

/-- Two escaped components, each followed by other ones, are equal up to an underscore at the end. -/
theorem escape_cases {d : Str} (h : escape c ++ joined p = escape d ++ joined q) :
    (escape c = escape d ∧ joined p = joined q) ∨
    (escape c = escape d ++ [95] ∧ 95 :: joined p = joined q) ∨
    (escape d = escape c ++ [95] ∧ 95 :: joined q = joined p) := by
  -- what is left over on one side starts like what follows on the other
  have hleft : ∀ {c d : Str} {p q : List Str} {x : Str}, escape d = escape c ++ x →
      joined p = x ++ joined q → x ≠ [] → x = [95] := by
    intro c d p q x hd hp hx
    obtain ⟨t, ht⟩ := double_of_joined (p := p) (by simp [hp, hx])
    rw [ht] at hp
    cases x with
    | nil => exact absurd rfl hx
    | cons y x =>
      obtain ⟨rfl, hrest⟩ := cons.inj hp
      cases x with
      | nil => rfl
      | cons z x =>
        obtain ⟨rfl, -⟩ := cons.inj hrest
        exact absurd ⟨escape c, x, by simp [hd]⟩ (not_double_escape d)
  rcases append_eq_append_iff.mp h with ⟨x, hd, hp⟩ | ⟨x, hc, hq⟩
  · by_cases hx : x = []
    · subst hx
      exact .inl ⟨by simp [hd], by simpa using hp⟩
    · obtain rfl := hleft hd hp hx
      exact .inr (.inr ⟨hd, hp.symm⟩)
  · by_cases hx : x = []
    · subst hx
      exact .inl ⟨by simp [hc], by simpa using hq.symm⟩
    · obtain rfl := hleft hc hq hx
      exact .inr (.inl ⟨hc, hq.symm⟩)

/-- An underscore that was taken from the left is found again at the first component that is not just one
underscore. -/
theorem exists_shifted (hp : ∀ c ∈ p, c ≠ []) (hq : ∀ c ∈ q, c ≠ [])
    (h : 95 :: joined p = joined q) :
    ∃ (k : Nat) (a x : Str) (p' q' : List Str),
      p = replicate k (lit "_") ++ a :: p' ∧ q = replicate k (lit "_") ++ x :: q' ∧
      a ≠ lit "_" ∧ a.head? ≠ some 95 ∧ x ≠ lit "_" ∧ (escape x).head? = some 95 := by
  induction p generalizing q with
  | nil =>
    obtain ⟨t, ht⟩ := double_of_joined (p := q) (by rw [← h]; simp)
    rw [ht] at h
    cases h
  | cons a p ih =>
    cases q with
    | nil => cases h
    | cons x q =>
      rw [joined_cons, joined_cons] at h
      have h : 95 :: (escape a ++ joined p) = escape x ++ joined q :=
        (cons.inj (cons.inj h).2).2
      obtain ⟨y, w, hw⟩ := exists_cons_of_ne_nil
        (mt escape_eq_nil_iff.mp (hq x mem_cons_self))
      rw [hw, cons_append] at h
      obtain ⟨rfl, hrest⟩ := cons.inj h
      by_cases hnil : w = []
      · -- both components are one underscore
        have hx : x = lit "_" := escape_injective (hw.trans (by rw [hnil]; rfl))
        rw [hnil, nil_append] at hrest
        obtain ⟨b, v, hv⟩ := exists_cons_of_ne_nil
          (mt escape_eq_nil_iff.mp (hp a mem_cons_self))
        obtain ⟨t, ht⟩ := double_of_joined (p := q) (by rw [← hrest, hv]; simp)
        rw [ht, hv, cons_append] at hrest
        obtain ⟨rfl, hrest'⟩ := cons.inj hrest
        have hvnil : v = [] := by
          cases v with
          | nil => rfl
          | cons z v =>
            obtain ⟨rfl, -⟩ := cons.inj hrest'
            exact absurd ⟨[], v, hv.symm⟩ (not_double_escape a)
        have ha : a = lit "_" := escape_injective (hv.trans (by rw [hvnil]; rfl))
        obtain ⟨k, a', x', p', q', rfl, rfl, hshifted⟩ := ih
          (fun c hc => hp c (mem_cons_of_mem _ hc)) (fun c hc => hq c (mem_cons_of_mem _ hc))
          (q := q) (by rw [ht, ← hrest', hvnil]; rfl)
        exact ⟨k + 1, a', x', p', q', by rw [ha]; rfl, by rw [hx]; rfl, hshifted⟩
      · have hhead := head_ne_of_escape hw hnil hrest.symm
        refine ⟨0, a, x, p, q, rfl, rfl, ?_, hhead, ?_, by rw [hw]; rfl⟩
        · rintro rfl
          exact hhead rfl
        · rintro rfl
          exact hnil (cons.inj hw).2.symm

theorem eq_of_joined (hp : ∀ c ∈ p, c ≠ []) (hq : ∀ c ∈ q, c ≠ []) (h : ¬ Ambiguous p)
    (heq : joined p = joined q) : p = q := by
  induction p generalizing q with
  | nil =>
    cases q with
    | nil => rfl
    | cons d q => cases heq
  | cons c p ih =>
    cases q with
    | nil => cases heq
    | cons d q =>
      have hp' : ∀ c ∈ p, c ≠ [] := fun c hc => hp c (mem_cons_of_mem _ hc)
      have hq' : ∀ c ∈ q, c ≠ [] := fun c hc => hq c (mem_cons_of_mem _ hc)
      rw [joined_cons, joined_cons] at heq
      rcases escape_cases (cons.inj (cons.inj heq).2).2 with
        ⟨hcd, hrest⟩ | ⟨hcd, hrest⟩ | ⟨hcd, hrest⟩
      · have hamb : ¬ Ambiguous p := by
          rintro ⟨left, c', k, d', right, rfl, hother⟩
          exact h ⟨c :: left, c', k, d', right, rfl, hother⟩
        rw [escape_injective hcd, ih hp' hq' hamb hrest]
      · obtain ⟨k, a, x, p', q', rfl, -, ha, hhead, -⟩ := exists_shifted hp' hq' hrest
        refine absurd ⟨[], c, k, a, p', rfl, ?_, ha, .inl ⟨?_, hhead⟩⟩ h
        · rintro rfl
          have hnil : escape d = [] := by simpa [escape, lit] using hcd.symm
          exact hq d mem_cons_self (escape_eq_nil_iff.mp hnil)
        · rw [encodeComponent_eq, hcd, getLast?_concat]
      · obtain ⟨k, x, a, q', p', -, rfl, -, -, ha, hhead⟩ := exists_shifted hq' hp' hrest
        have hlast : (escape c).getLast? ≠ some 95 := by
          intro hlast
          obtain ⟨u, hu⟩ := getLast?_eq_some_iff.mp hlast
          exact not_double_escape d ⟨u, [], by simp [hcd, hu]⟩
        refine absurd ⟨[], c, k, a, p', rfl, ?_, ha, .inr ⟨?_, ?_⟩⟩ h
        · rintro rfl
          exact hlast rfl
        · rwa [encodeComponent_eq]
        · rwa [encodeComponent_eq]

/-! ## Moving an underscore -/

theorem getLast?_append_eq_some {u v : Str} (hu : u.getLast? ≠ some 95) :
    (u ++ v).getLast? = some 95 ↔ v.getLast? = some 95 := by
  rw [getLast?_append]
  cases v.getLast? with
  | none => simpa using hu
  | some y => rfl

theorem escape_of_getLast (h : (escape c).getLast? = some 95) :
    ∃ b, c = b ++ [95] ∧ escape c = escape b ++ [95] := by
  revert h
  fun_induction escape c with
  | case1 => exact fun h => by cases h
  | case2 s ih =>
    intro h
    obtain ⟨b, rfl, hb⟩ := ih ((getLast?_append_eq_some (by decide)).mp h)
    exact ⟨95 :: 95 :: b, rfl, by rw [hb]; rfl⟩
  | case3 s hne ih =>
    intro h
    obtain ⟨b, rfl, hb⟩ := ih ((getLast?_append_eq_some (by decide)).mp h)
    exact ⟨37 :: b, rfl, by rw [hb]; rfl⟩
  | case4 c s hne hc ih =>
    intro h
    by_cases hs : s = []
    · subst hs
      obtain rfl : c = 95 := Option.some.inj h
      exact ⟨[], rfl, rfl⟩
    · rw [getLast?_cons_of_ne_nil (mt escape_eq_nil_iff.mp hs)] at h
      obtain ⟨b, rfl, hb⟩ := ih h
      refine ⟨c :: b, rfl, ?_⟩
      rw [hb, escape_cons hc]
      · rfl
      · rintro rfl hhead
        obtain ⟨b, rfl⟩ := head?_eq_some_iff.mp hhead
        exact hne _ rfl rfl

theorem escape_concat (h : (escape c).getLast? ≠ some 95) :
    escape (c ++ [95]) = escape c ++ [95] := by
  revert h
  fun_induction escape c with
  | case1 => exact fun _ => rfl
  | case2 s ih =>
    intro h
    have hs := ih (mt (getLast?_append_eq_some (by decide)).mpr h)
    exact congrArg (lit "%5F%5F" ++ ·) hs
  | case3 s hne ih =>
    intro h
    have hs := ih (mt (getLast?_append_eq_some (by decide)).mpr h)
    exact congrArg (lit "%25" ++ ·) hs
  | case4 c s hne hc ih =>
    intro h
    cases s with
    | nil => exact escape_cons hc fun h95 => absurd (congrArg some h95) h
    | cons d s =>
      have hlast : (escape (d :: s)).getLast? ≠ some 95 := by
        rwa [getLast?_cons_of_ne_nil (mt escape_eq_nil_iff.mp (cons_ne_nil _ _))] at h
      rw [cons_append, escape_cons hc, ih hlast]
      · rfl
      · rintro rfl hhead
        exact hne s rfl (congrArg (· :: s) (Option.some.inj hhead))

theorem joined_shift (left right : List Str) (b d : Str) (k : Nat) {e : Str}
    (hc : escape c = escape b ++ [95]) (he : escape e = 95 :: escape d) :
    joined (left ++ c :: (replicate k (lit "_") ++ d :: right)) =
      joined (left ++ b :: (replicate k (lit "_") ++ e :: right)) := by
  have hmove : (95 :: (replicate (3 * k) 95 ++ [95, 95]) : Str) =
      replicate (3 * k) 95 ++ [95, 95, 95] := by
    rw [← cons_append, ← replicate_succ, replicate_succ', append_assoc]
    rfl
  simp only [joined_append, joined_cons, joined_replicate, hc, he]
  have := congrArg (fun s => joined left ++ 95 :: 95 :: (escape b ++ (s ++ (escape d ++ joined right)))) hmove
  simpa using this

theorem exists_joined_eq (hp : ∀ c ∈ p, IsComponent c) (h : Ambiguous p) :
    ∃ q, (∀ c ∈ q, IsComponent c) ∧ joined q = joined p ∧ q ≠ p := by
  obtain ⟨left, c, k, d, right, rfl, hc, hd, hshifts⟩ := h
  have hcomponent := hp c (by simp)
  have hdcomponent := hp d (by simp)
  -- the new path has other components in the places of `c` and `d`
  have hnew : ∀ b e, IsComponent b → IsComponent e →
      ∀ x ∈ left ++ b :: (replicate k (lit "_") ++ e :: right), IsComponent x := by
    intro b e hb he x hx
    rw [mem_append, mem_cons, mem_append, mem_cons] at hx
    rcases hx with hx | rfl | hx | rfl | hx
    · exact hp x (by simp [hx])
    · exact hb
    · exact hp x (by simp [hx])
    · exact he
    · exact hp x (by simp [hx])
  simp only [Shifts, encodeComponent_eq] at hshifts
  rcases hshifts with ⟨hlast, hhead⟩ | ⟨hlast, hhead⟩
  · obtain ⟨b, rfl, hb⟩ := escape_of_getLast hlast
    have hbnil : b ≠ [] := by
      rintro rfl
      exact hc rfl
    refine ⟨left ++ b :: (replicate k (lit "_") ++ (95 :: d) :: right), hnew _ _ ⟨hbnil, ?_⟩ ⟨?_, ?_⟩,
      (joined_shift left right b d k hb (escape_cons (by decide) fun _ => hhead)).symm, ?_⟩
    · exact fun hmem => hcomponent.2 (mem_append_left _ hmem)
    · exact cons_ne_nil _ _
    · simpa using hdcomponent.2
    · simp
  · obtain ⟨w, hw⟩ := head?_eq_some_iff.mp hhead
    obtain ⟨e, rfl, -, rfl⟩ := escape_eq_underscore hw
    refine ⟨left ++ (c ++ [95]) :: (replicate k (lit "_") ++ e :: right), hnew _ _ ⟨?_, ?_⟩ ⟨?_, ?_⟩,
      joined_shift left right c e k (escape_concat hlast) hw, ?_⟩
    · simp
    · simpa using hcomponent.2
    · rintro rfl
      exact hd rfl
    · exact fun hmem => hdcomponent.2 (mem_cons_of_mem _ hmem)
    · simp

/-! ## The name of the file -/

theorem splitOn_of_not_mem (h : 47 ∉ a) : splitOn 47 a = [a] := by
  induction a with
  | nil => rfl
  | cons c a ih =>
    obtain ⟨hc, ha⟩ := not_or.mp (mem_cons.not.mp h)
    rw [splitOn, if_neg (Ne.symm hc), ih ha]

theorem splitOn_append (h : 47 ∉ a) (s : Str) : splitOn 47 (a ++ 47 :: s) = a :: splitOn 47 s := by
  induction a with
  | nil => rfl
  | cons c a ih =>
    obtain ⟨hc, ha⟩ := not_or.mp (mem_cons.not.mp h)
    rw [cons_append, splitOn, if_neg (Ne.symm hc), ih ha]

theorem intercalate_cons_cons (sep a b : Str) (rest : List Str) :
    sep.intercalate (a :: b :: rest) = a ++ (sep ++ sep.intercalate (b :: rest)) := by
  simp [intercalate]

theorem splitOn_intercalate (hp : ∀ a ∈ c :: p, IsComponent a) :
    splitOn 47 ((lit "/").intercalate (c :: p)) = c :: p := by
  induction p generalizing c with
  | nil => simpa [intercalate] using splitOn_of_not_mem (hp c mem_cons_self).2
  | cons d p ih =>
    rw [intercalate_cons_cons]
    exact (splitOn_append (hp c mem_cons_self).2 _).trans
      (congrArg (c :: ·) (ih fun a ha => hp a (mem_cons_of_mem _ ha)))

theorem exists_intercalate (c : Str) (p : List Str) :
    (∃ t, (lit "/").intercalate (c :: p) = c ++ t) ∧
      ∃ t, ∃ a ∈ c :: p, (lit "/").intercalate (c :: p) = t ++ a := by
  induction p generalizing c with
  | nil => exact ⟨⟨[], by simp [intercalate]⟩, [], c, by simp, by simp [intercalate]⟩
  | cons d p ih =>
    obtain ⟨-, t, a, ha, ht⟩ := ih d
    rw [intercalate_cons_cons]
    refine ⟨⟨_, rfl⟩, c ++ (lit "/" ++ t), a, mem_cons_of_mem _ ha, ?_⟩
    rw [ht]
    simp

theorem stripSlashes_nodePath (hp : ∀ a ∈ c :: p, IsComponent a) :
    stripSlashes (nodePath (c :: p)) = (lit "/").intercalate (c :: p) := by
  obtain ⟨⟨t, ht⟩, u, a, ha, hu⟩ := exists_intercalate c p
  obtain ⟨y, c', hc⟩ := exists_cons_of_ne_nil (hp c mem_cons_self).1
  have hy : y ≠ 47 := fun hy => (hp c mem_cons_self).2 (by simp [hc, hy])
  have hdrop : (nodePath (c :: p)).dropWhile (· = 47) = (lit "/").intercalate (c :: p) := by
    show ((lit "/").intercalate (c :: p)).dropWhile (· = 47) = _
    rw [ht, hc, cons_append, dropWhile_cons, if_neg (by simpa using hy)]
  rw [stripSlashes, hdrop, rdropWhile_eq_self_iff]
  intro hne hlast
  have hlast : ((lit "/").intercalate (c :: p)).getLast hne = 47 := by simpa using hlast
  have hmem : 47 ∈ a := by
    rw [← hlast]
    simp only [hu, getLast_append_of_ne_nil _ (hp a ha).1]
    exact getLast_mem _
  exact (hp a ha).2 hmem

theorem nodePathToFilename_nodePath (hp : ∀ c ∈ p, IsComponent c) :
    nodePathToFilename (nodePath p) = (lit "__").intercalate (p.map escape) ++ lit ".tds" := by
  have hparts : (splitOn 47 (stripSlashes (nodePath p))).filter (· ≠ []) = p := by
    cases p with
    | nil => rfl
    | cons c p =>
      rw [stripSlashes_nodePath hp, splitOn_intercalate hp, filter_eq_self]
      exact fun a ha => by simpa using (hp a ha).1
  rw [nodePathToFilename, hparts, funext encodeComponent_eq]

theorem joined_eq (c : Str) (p : List Str) :
    joined (c :: p) = 95 :: 95 :: (lit "__").intercalate ((c :: p).map escape) := by
  induction p generalizing c with
  | nil => simp [joined, intercalate]
  | cons d p ih =>
    rw [joined_cons, ih d]
    exact congrArg (95 :: 95 :: ·) (intercalate_cons_cons (lit "__") (escape c) (escape d) _).symm

theorem nodePathToFilename_inj (hp : ∀ c ∈ p, IsComponent c) (hq : ∀ c ∈ q, IsComponent c) :
    nodePathToFilename (nodePath p) = nodePathToFilename (nodePath q) ↔ joined p = joined q := by
  have hne : ∀ {c : Str} {p : List Str}, IsComponent c →
      (lit "__").intercalate ((c :: p).map escape) ≠ [] := by
    intro c p hc hnil
    cases p with
    | nil => exact hc.1 (escape_eq_nil_iff.mp (by simpa [intercalate] using hnil))
    | cons d p =>
      rw [map_cons, map_cons, intercalate_cons_cons] at hnil
      exact hc.1 (escape_eq_nil_iff.mp (append_eq_nil_iff.mp hnil).1)
  rw [nodePathToFilename_nodePath hp, nodePathToFilename_nodePath hq, append_left_inj]
  cases p with
  | nil =>
    cases q with
    | nil => exact iff_of_true rfl rfl
    | cons d q => exact iff_of_false (hne (hq d mem_cons_self)).symm (by simp [joined])
  | cons c p =>
    cases q with
    | nil => exact iff_of_false (hne (hp c mem_cons_self)) (by simp [joined])
    | cons d q => simp [joined_eq]

/-- A node has a file of its own exactly if its path has no boundary over which an underscore can be
moved. -/
theorem file_unshared_iff (p : List Str) (hp : ∀ c ∈ p, IsComponent c) :
    (∀ q, (∀ c ∈ q, IsComponent c) →
      nodePathToFilename (nodePath q) = nodePathToFilename (nodePath p) → q = p) ↔ ¬ Ambiguous p := by
  constructor
  · intro h hamb
    obtain ⟨q, hq, heq, hne⟩ := exists_joined_eq hp hamb
    exact hne (h q hq ((nodePathToFilename_inj hq hp).mpr heq))
  · intro h q hq heq
    have hjoined := (nodePathToFilename_inj hq hp).mp heq
    exact (eq_of_joined (fun c hc => (hp c hc).1) (fun c hc => (hq c hc).1) h hjoined.symm).symm

theorem not_ambiguous_sample : ¬ Ambiguous [lit "a", lit "b"] := by
  rintro ⟨left, c, k, d, right, heq, -, -, hshifts⟩
  have hlength := congrArg length heq
  simp only [length_append, length_cons, length_replicate, length_nil] at hlength
  obtain rfl := eq_nil_of_length_eq_zero (l := left) (by omega)
  obtain rfl : k = 0 := by omega
  cases heq
  exact absurd hshifts (by unfold Shifts; decide)

/-- No underscore can be moved over the boundary of the two components. -/
theorem file_unshared_sample : (∀ c ∈ [lit "a", lit "b"], IsComponent c) ∧
    ∀ q, (∀ c ∈ q, IsComponent c) →
      nodePathToFilename (nodePath q) = nodePathToFilename (nodePath [lit "a", lit "b"]) →
      q = [lit "a", lit "b"] := by
  have hp : ∀ c ∈ [lit "a", lit "b"], IsComponent c := by unfold IsComponent; decide
  exact ⟨hp, (file_unshared_iff [lit "a", lit "b"] hp).mpr not_ambiguous_sample⟩

/-- Two nodes with one file. -/
theorem file_shared_sample :
    (∀ c ∈ [lit "a_", lit "b"], IsComponent c) ∧ (∀ c ∈ [lit "a", lit "_b"], IsComponent c) ∧
      [lit "a_", lit "b"] ≠ [lit "a", lit "_b"] ∧
      nodePathToFilename (nodePath [lit "a_", lit "b"]) = lit "a___b.tds" ∧
      nodePathToFilename (nodePath [lit "a", lit "_b"]) = lit "a___b.tds" := by
  unfold IsComponent
  decide

end Persistence
