import Tds.FileSystem.Proofs.Frame

/-!
# What a chunked write leaves under its name

A chunked write deletes the chunks of the text that it replaces, stores its own chunks one by one, and
then the manifest. Where it succeeds its text is read back, unless one of its chunks has the very name
of the text. Where it fails on the way, the old text is gone unless all its chunks happen to have been
stored again.
-/

namespace FileSystem

open Python Process List Prog Function Contents ChecksumAlgorithm

/-! ## Chunks in their order -/

theorem digitsVal_pad6 (i : Nat) : digitsVal (pad6 i) = i := by
  have hzeros : ∀ k : Nat, (replicate k 48).foldl (fun n c => 10 * n + (c - 48)) 0 = 0 := by
    intro k
    induction k with
    | zero => rfl
    | succ k ih => rw [replicate_succ, foldl_cons, ih]
  rw [pad6, digitsVal, foldl_append, hzeros]
  exact digitsVal_printNat i

theorem chunkKey_injective (b : Key) : Function.Injective (chunkKey b) := by
  intro i j h
  have hname : chunkName b i = chunkName b j := congrArg Subtype.val h
  have hpad := append_cancel_left hname
  rw [← digitsVal_pad6 i, hpad, digitsVal_pad6]

/-- The texts of the chunks of a text; the empty text has one chunk. -/
def textsOf (chunkSize : Nat) (text : Str) : List Str :=
  if chunkTexts chunkSize text = [] then [[]] else chunkTexts chunkSize text

theorem flatten_textsOf (chunkSize : Nat) (text : Str) : (textsOf chunkSize text).flatten = text := by
  have hflat := flatten_chunkTexts chunkSize text
  unfold textsOf
  split
  · next h => rw [← hflat, h]; rfl
  · exact hflat

theorem all_isScalar_textsOf {chunkSize : Nat} {text : Str} (h : text.all isScalar = true) :
    ∀ part ∈ textsOf chunkSize text, part.all isScalar = true := by
  intro part hpart
  rw [all_eq_true] at h ⊢
  intro c hc
  refine h c ?_
  rw [← flatten_textsOf chunkSize text]
  exact mem_flatten.mpr ⟨part, hpart, hc⟩

theorem map_utf8_textsOf (chunkSize : Nat) (text : Str) :
    (if (chunkTexts chunkSize text).map utf8 = [] then [[]] else (chunkTexts chunkSize text).map utf8) =
      (textsOf chunkSize text).map utf8 := by
  unfold textsOf
  by_cases h : chunkTexts chunkSize text = []
  · simp [h]
  · simp [h]

/-- The texts are stored as the chunks from the `i`-th on, and all other entries are as before. -/
structure Contents.Stores (b : Key) (i : Nat) (texts : List Str) (c c' : Contents) : Prop where
  frame : ∀ n, (∀ j < texts.length, n ≠ chunkKey b (i + j)) → c'.entries n = c.entries n
  chunk : ∀ j text, texts[j]? = some text → c'.value (chunkKey b (i + j)) = some (.str text)

namespace Contents.Stores

variable {b : Key} {i : Nat} {texts : List Str} {text : Str} {c c₁ c' : Contents}

theorem nil (h : c'.entries = c.entries) : c.Stores b i [] c' :=
  ⟨fun n _ => congrFun h n, by simp⟩

theorem cons {entry : Entry} (hentries : c₁.entries = c.entries) (hdata : entry.data = .str text)
    (h : (c₁.put (chunkKey b i) entry).Stores b (i + 1) texts c') :
    c.Stores b i (text :: texts) c' := by
  constructor
  · intro n hn
    have hhead : n ≠ chunkKey b i := hn 0 (Nat.succ_pos _)
    rw [h.frame n fun j hj => ?_]
    · exact (update_of_ne hhead _ _).trans (congrFun hentries n)
    · rw [Nat.add_right_comm]
      exact hn (j + 1) (Nat.succ_lt_succ hj)
  · intro j part hpart
    cases j with
    | zero =>
      obtain rfl : text = part := by simpa using hpart
      -- no later chunk has the name of the first one
      have hkept := h.frame (chunkKey b i) fun j _ heq => by
        have := chunkKey_injective b heq
        omega
      rw [Nat.add_zero, value, hkept]
      exact (value_put_self c₁ (chunkKey b i) entry).trans (congrArg some hdata)
    | succ j =>
      have := h.chunk j part (by simpa using hpart)
      rwa [Nat.add_right_comm] at this

theorem congr (h : c.Stores b i texts c₁) (hentries : c'.entries = c₁.entries) :
    c.Stores b i texts c' := by
  constructor
  · intro n hn
    rw [hentries]
    exact h.frame n hn
  · intro j text htext
    rw [value, hentries]
    exact h.chunk j text htext

end Contents.Stores

variable {config : RuntimeConfig} {args : ChunkedArgs}

section Write

variable [Runtime] [Objects]

/-- How many chunks, from the `i`-th on, can be stored until the first that cannot. -/
def Contents.storable (c : Contents) (config : RuntimeConfig) (b : Key) (compress : Option Bool)
    (codec : Str) : List Str → Nat → Nat
  | [], _ => 0
  | text :: texts, i =>
    match c.validate (chunkName b i) (.str text),
      c.prepare config ⟨chunkName b i, .str text, textUtf8, compress, codec⟩ with
    | .ok _, .ok _ => c.storable config b compress codec texts (i + 1) + 1
    | _, _ => 0

theorem Contents.prepare_congr {c c' : Contents}
    (h : (c'.renew config).compressionPolicy = (c.renew config).compressionPolicy)
    (args : WriteArgs) : c'.prepare config args = c.prepare config args := by
  rw [prepare, prepare, h]

theorem Contents.storable_congr {c c' : Contents} (hschemas : c'.schemas = c.schemas)
    (hpolicy : (c'.renew config).compressionPolicy = (c.renew config).compressionPolicy) (b : Key)
    (compress : Option Bool) (codec : Str) (texts : List Str) (i : Nat) :
    c'.storable config b compress codec texts i = c.storable config b compress codec texts i := by
  induction texts generalizing i with
  | nil => rfl
  | cons text texts ih =>
    rw [storable, storable, validate_congr hschemas, prepare_congr hpolicy, ih]

variable (c : Contents)

omit [Runtime] [Objects] in
theorem Contents.renew_put_renew (config : RuntimeConfig) (key : Key) (entry : Entry) :
    ((c.renew config).put key entry).renew config = (c.renew config).put key entry := by
  unfold renew
  split
  · next h => exact if_pos h
  · exact if_pos rfl

theorem run_writeChunks (config : RuntimeConfig) (b : Key) (compress : Option Bool)
    (codec : Str) {texts : List Str} (htexts : ∀ text ∈ texts, text.all isScalar = true) (i : Nat) :
    ∃ failed c', (writeChunks config b compress codec (texts.map utf8) i).run Contents.exec c =
        (.ok failed, c') ∧
      c.Stores b i (texts.take (c.storable config b compress codec texts i)) c' ∧
      (failed = none ↔ c.storable config b compress codec texts i = texts.length) := by
  induction texts generalizing c i with
  | nil => exact ⟨none, c, rfl, .nil rfl, by simp [storable]⟩
  | cons text texts ih =>
    have htext := htexts text mem_cons_self
    rw [map_cons, writeChunks, run_bind, run_tryExcept, decodeChunk_utf8 htext,
      liftM_ok_bind, run_writeEntry, storable]
    dsimp only
    cases hvalid : c.validate (chunkName b i) (.str text) with
    | error e => exact ⟨some e, c, rfl, .nil rfl, by simp⟩
    | ok _ =>
      dsimp only
      cases hprepare : c.prepare config ⟨chunkName b i, .str text, textUtf8, compress, codec⟩ with
      | error e => exact ⟨some e, c.renew config, rfl, .nil (entries_renew c config), by simp⟩
      | ok item =>
        obtain ⟨key, entry⟩ := item
        obtain ⟨hname, hstored⟩ := of_prepare hprepare
        obtain rfl : key = chunkKey b i := Subtype.ext hname
        rw [storedValue_text htext] at hstored
        obtain ⟨failed, c', hrun, hstores, hfailed⟩ :=
          ih ((c.renew config).put (chunkKey b i) entry)
            (fun t ht => htexts t (mem_cons_of_mem _ ht)) (i + 1)
        have hschemas : ((c.renew config).put (chunkKey b i) entry).schemas = c.schemas :=
          (c.upto_renew (P := fun _ => True) config).schemas
        have hpolicy : (((c.renew config).put (chunkKey b i) entry).renew config).compressionPolicy =
            (c.renew config).compressionPolicy := by
          rw [renew_put_renew]
          rfl
        rw [storable_congr hschemas hpolicy] at hstores hfailed
        dsimp only
        refine ⟨failed, c', hrun, ?_, ?_⟩
        · rw [take_succ_cons]
          exact .cons (entries_renew c config) (Except.ok.inj hstored).symm hstores
        · rw [hfailed, length_cons]
          omega

/-! ## The outcome of a chunked write -/

/-- A call has failed: it has raised, or returned a result that says so. -/
inductive Failed : Check Result → Prop
  | raised (e : PyException) : Failed (.error e)
  | refused (result : Result) (h : result.ok = false) : Failed (.ok result)

omit [Runtime] [Objects] in
theorem failed_ok_iff {result : Result} : Failed (.ok result) ↔ result.ok = false :=
  ⟨fun h => by cases h; assumption, .refused result⟩

instance : DecidablePred Failed
  | .error e => .isTrue (.raised e)
  | .ok result => decidable_of_iff (result.ok = false) failed_ok_iff.symm

omit [Runtime] [Objects] in
theorem exists_of_not_failed {r : Check Result} (h : ¬ Failed r) :
    ∃ result, r = .ok result ∧ result.ok = true := by
  cases r with
  | error e => exact absurd (.raised e) h
  | ok result => exact ⟨result, rfl, by simpa [failed_ok_iff] using h⟩

def Contents.storedTexts (c : Contents) (config : RuntimeConfig) (args : ChunkedArgs) (b : Key) :
    List Str :=
  match args.text with
  | .str text =>
    if text.all isScalar then
      let texts := textsOf args.chunkSize.toNat text
      texts.take (c.storable config b args.compress args.codec texts 0)
    else []
  | _ => []

/-- The call raises before it writes. -/
def Contents.Refuses (c : Contents) (args : ChunkedArgs) (b : Key) : Prop :=
  (∀ text, args.text ≠ .str text) ∨ args.chunkSize ≤ 0 ∨
    ((c.entries b).isSome = true ∧ args.overwrite = false)

/-- From the point on where the old chunks are gone: the write fails with some chunks stored, or it
stores all its chunks and then its manifest. -/
theorem storeChunks_cases (self : Self) (config : RuntimeConfig) {b : Key}
    (hb : args.name = b.val) {text : Str} (htext : args.text = .str text) (found : Bool) :
    (∃ r c', (storeChunks self config args text found).run Contents.exec c = (r, c') ∧ Failed r ∧
      c.Stores b 0 (c.storedTexts config args b) c') ∨
    ∃ result c₁ entry, (storeChunks self config args text found).run Contents.exec c =
        (.ok result, (c₁.renew config).put b entry) ∧ result.ok = true ∧ text.all isScalar = true ∧
      c.Stores b 0 (textsOf args.chunkSize.toNat text) c₁ ∧
      storedValue ⟨b.val, chunkManifest b args.chunkSize.toNat (utf8 text)
        ((textsOf args.chunkSize.toNat text).map utf8), jsonUtf8, some false, []⟩ = .ok entry.data := by
  rw [storedTexts, htext, storeChunks]
  dsimp only
  by_cases hscalar : text.all isScalar = true
  · have hencode : encodeText text = .ok (utf8 text) := by rw [encodeText, encodeUtf8, if_pos hscalar]
    rw [if_pos hscalar, hencode, liftM_ok_bind, hb, keyOf_val, liftM_ok_bind,
      splitUtf8Chunks_utf8 hscalar, liftM_ok_bind, map_utf8_textsOf]
    obtain ⟨failed, c₁, hrun, hstores, hfailed⟩ := run_writeChunks c config b args.compress args.codec
      (all_isScalar_textsOf hscalar) 0
    rw [run_bind, hrun]
    cases failed with
    | some e => exact .inl ⟨_, c₁, rfl, .refused _ rfl, hstores⟩
    | none =>
      rw [hfailed.mp rfl, take_length] at hstores ⊢
      dsimp only
      rw [run_bind]
      rcases writeEntry_cases c₁ config ⟨b.val, chunkManifest b args.chunkSize.toNat (utf8 text)
        ((textsOf args.chunkSize.toNat text).map utf8), jsonUtf8, some false, []⟩ with
        ⟨e, c₂, hwrite, hupto⟩ | ⟨key, entry, hwrite, hname, -, hstored⟩
      · refine .inl ⟨.error e, c₂, by rw [hwrite], .raised e, hstores.congr ?_⟩
        funext n
        exact (hupto fun _ => False).entries n id
      · obtain rfl : key = b := Subtype.ext hname
        refine .inr ⟨_, c₁, entry, by rw [hwrite]; rfl, rfl, hscalar, hstores, hstored⟩
  · have hencode : ∃ e, encodeText text = .error e := by
      rw [encodeText, encodeUtf8, if_neg hscalar]
      exact ⟨_, rfl⟩
    obtain ⟨e, hencode⟩ := hencode
    rw [if_neg hscalar, hencode]
    exact .inl ⟨.error e, c, rfl, .raised e, .nil rfl⟩

/-- A chunked write is turned down, or it deletes the old chunks and goes on with its own. -/
theorem writeTextChunked_cases (self : Self) (config : RuntimeConfig) {b : Key}
    (hb : args.name = b.val) :
    (c.Refuses args b ∧ ∃ result, (writeTextChunked self config args).run Contents.exec c =
      (.ok result, c) ∧ result.ok = false) ∨
    ∃ text keys, args.text = .str text ∧ ¬ c.Refuses args b ∧
      (writeTextChunked self config args).run Contents.exec c =
        (storeChunks self config args text (c.entries b).isSome).run Contents.exec (c.deleteAll keys) ∧
      ∀ n, n ∈ keys ↔ ∃ chunks, c.Lists b chunks ∧ n ∈ deletable chunks := by
  unfold writeTextChunked
  cases htext : args.text with
  | str text =>
    dsimp only
    by_cases hsize : args.chunkSize ≤ 0
    · rw [if_pos hsize]
      exact .inl ⟨.inr (.inl hsize), _, rfl, rfl⟩
    · rw [if_neg hsize, run_bind, run_exists?, hb, keyOf_val, map_ok]
      dsimp only
      by_cases htaken : ((c.entries b).isSome && !args.overwrite) = true
      · rw [if_pos htaken]
        exact .inl ⟨.inr (.inr (by simpa using htaken)), _, rfl, rfl⟩
      · rw [if_neg htaken]
        obtain ⟨keys, hremove, hkeys⟩ := run_removePriorChunks c self b (c.entries b).isSome
        have haccepted : ¬ c.Refuses args b := by
          rintro (hnotext | hsmall | ⟨hexists, hkeep⟩)
          · exact hnotext text htext
          · exact hsize hsmall
          · exact htaken (by rw [hexists, hkeep]; rfl)
        refine .inr ⟨text, keys, rfl, haccepted, by rw [run_bind, hremove], fun n => ?_⟩
        rw [hkeys n]
        refine and_iff_right_of_imp ?_
        rintro ⟨chunks, ⟨items, hvalue, -⟩, -⟩
        rw [value, Option.map_eq_some_iff] at hvalue
        obtain ⟨entry, hentry, -⟩ := hvalue
        rw [hentry, Option.isSome_some]
  | _ =>
    refine .inl ⟨.inl ?_, _, rfl, rfl⟩
    simp [htext]

end Write

section Parts

variable [Objects] {c : Contents} {self : Self}

theorem Contents.readParts_eq_ok_iff {chunks parts : List Value} :
    c.readParts self chunks = .ok parts ↔
      List.Forall₂ (fun chunk part => ∃ n : Key, chunk = .str n.val ∧ c.value n = some part) chunks
        parts := by
  induction chunks generalizing parts with
  | nil =>
    rw [readParts, forall₂_nil_left_iff]
    exact ⟨fun h => (Except.ok.inj h).symm, fun h => h ▸ rfl⟩
  | cons chunk chunks ih =>
    rw [readParts, bind_eq_ok]
    constructor
    · rintro ⟨name, hname, h⟩
      obtain ⟨part, hpart, h⟩ := bind_eq_ok.mp h
      obtain ⟨rest, hrest, h⟩ := bind_eq_ok.mp h
      cases h
      obtain ⟨n, rfl⟩ : ∃ n : Key, n.val = name := by
        obtain ⟨key, hkey, -⟩ := bind_eq_ok.mp hpart
        exact ⟨key, keyOf_eq_ok_iff.mp hkey⟩
      refine .cons ⟨n, ?_, read_eq_ok_iff.mp hpart⟩ (ih.mp hrest)
      cases chunk <;> cases hname
      rfl
    · rintro (_ | ⟨⟨n, rfl, hvalue⟩, hrest⟩)
      refine ⟨n.val, rfl, ?_⟩
      rw [read_eq_ok_iff.mpr hvalue, ok_bind, ih.mpr hrest]
      rfl

omit [Objects] in
theorem str_mem_of_mem_deletable {chunks : List Value} {n : Key} (h : n ∈ deletable chunks) :
    Value.str n.val ∈ chunks := by
  induction chunks with
  | nil => cases h
  | cons chunk chunks ih =>
    cases chunk with
    | str name =>
      rw [deletable] at h
      cases hkey : keyOf name with
      | error e =>
        rw [hkey] at h
        cases h
      | ok key =>
        rw [hkey] at h
        rcases mem_cons.mp h with rfl | hmem
        · rw [keyOf_eq_ok_iff.mp hkey]
          exact mem_cons_self
        · exact mem_cons_of_mem _ (ih hmem)
    | _ => cases h

omit [Objects] in
theorem mem_deletable_of_names {chunks parts : List Value} {P : Key → Value → Prop}
    (h : List.Forall₂ (fun chunk part => ∃ n : Key, chunk = .str n.val ∧ P n part) chunks parts)
    {n : Key} (hn : Value.str n.val ∈ chunks) : n ∈ deletable chunks := by
  induction h with
  | nil => cases hn
  | cons hfirst _ ih =>
    obtain ⟨key, rfl, -⟩ := hfirst
    rw [deletable, keyOf_val]
    rcases mem_cons.mp hn with heq | hmem
    · obtain rfl : n = key := Subtype.ext (Value.str.inj heq)
      exact mem_cons_self
    · exact mem_cons_of_mem _ (ih hmem)

end Parts

section Failure

variable [Runtime] [Objects]

/-- The chunks that were stored make up the text: one of them took the place of the manifest and is the
whole text, or the manifest is untouched, every chunk that it lists was stored again, and what was
stored passes its checks and is the text. -/
def Contents.Restores (c : Contents) (config : RuntimeConfig) (args : ChunkedArgs) (b : Key)
    (t : Str) : Prop :=
  (∃ j, (c.storedTexts config args b)[j]? = some t ∧ chunkKey b j = b) ∨
  ((∀ j < (c.storedTexts config args b).length, chunkKey b j ≠ b) ∧
    ∃ items chunks parts, c.value b = some (.dict items) ∧ isChunkManifest items = true ∧
      listedChunks items = .ok chunks ∧
      List.Forall₂ (fun chunk part => ∃ j text, (c.storedTexts config args b)[j]? = some text ∧
        chunk = .str (chunkName b j) ∧ part = .str text) chunks parts ∧
      assemble b.val items parts = .ok t)

theorem Contents.textOf_dict {c : Contents} {self : Self} {name : Str}
    {items : List (Value × Value)} (h : isChunkManifest items = true) {chunks : List Value}
    (hchunks : listedChunks items = .ok chunks) : c.textOf self name (.dict items) =
      (c.readParts self chunks >>= fun parts => assemble name items parts) := by
  rw [textOf, if_pos h, hchunks, ok_bind]

theorem Contents.readText_of_value {c : Contents} {self : Self} {b : Key} {value : Value}
    (h : c.value b = some value) : c.readText self b.val = c.textOf self b.val value := by
  rw [readText, read_eq_ok_iff.mpr h, ok_bind]

theorem readText_of_stores {c c' : Contents} {self : Self} {b : Key} {keys : List Key}
    {items : List (Value × Value)} {chunks : List Value} (hvalue : c.value b = some (.dict items))
    (hmanifest : isChunkManifest items = true) (hlisted : listedChunks items = .ok chunks)
    (hkeys : ∀ n, n ∈ keys ↔ ∃ chunks, c.Lists b chunks ∧ n ∈ deletable chunks)
    (hstores : (c.deleteAll keys).Stores b 0 (c.storedTexts config args b) c') (hself : b ∉ keys)
    (t : Str) : c'.readText self b.val = .ok t ↔ c.Restores config args b t := by
  have hlists : c.Lists b chunks := ⟨items, hvalue, hmanifest, hlisted⟩
  by_cases htaken : ∀ j < (c.storedTexts config args b).length, chunkKey b j ≠ b
  · -- the manifest is still the old one
    have hkept : c'.value b = some (.dict items) := by
      rw [value, hstores.frame b fun j hj => by
        rw [Nat.zero_add]; exact (htaken j hj).symm]
      rw [← hvalue, value, deleteAll]
      exact congrArg _ (if_neg hself)
    rw [readText_of_value hkept, textOf_dict hmanifest hlisted, bind_eq_ok]
    simp only [readParts_eq_ok_iff]
    constructor
    · rintro ⟨parts, hparts, htext⟩
      refine .inr ⟨htaken, items, chunks, parts, hvalue, hmanifest, hlisted, ?_, htext⟩
      refine forall₂_iff_get.mpr ⟨hparts.length_eq, fun i hi hi' => ?_⟩
      obtain ⟨n, hn, hpart⟩ := (forall₂_iff_get.mp hparts).2 i hi hi'
      -- a chunk that was not stored again is gone
      have hdeleted : n ∈ keys := (hkeys n).mpr ⟨chunks, hlists,
        mem_deletable_of_names hparts (hn ▸ get_mem chunks ⟨i, hi⟩)⟩
      have hagain : ∃ j < (c.storedTexts config args b).length, n = chunkKey b j := by
        by_contra hnone
        have hgone := hstores.frame n fun j hj heq => hnone ⟨j, hj, by rwa [Nat.zero_add] at heq⟩
        rw [value, hgone.trans (if_pos hdeleted)] at hpart
        cases hpart
      obtain ⟨j, hj, rfl⟩ := hagain
      have hchunk := hstores.chunk j _ (getElem?_eq_getElem hj)
      rw [Nat.zero_add, hpart] at hchunk
      exact ⟨j, _, getElem?_eq_getElem hj, hn, Option.some.inj hchunk⟩
    · rintro (⟨j, hj, heq⟩ | ⟨-, items', chunks', parts, hvalue', -, hlisted', hparts, htext⟩)
      · exact absurd heq (htaken j (List.getElem?_eq_some_iff.mp hj).1)
      · rw [hvalue] at hvalue'
        cases hvalue'
        rw [hlisted] at hlisted'
        cases hlisted'
        refine ⟨parts, hparts.imp ?_, htext⟩
        rintro chunk part ⟨j, text, hj, rfl, rfl⟩
        have hchunk := hstores.chunk j text hj
        rw [Nat.zero_add] at hchunk
        exact ⟨chunkKey b j, rfl, hchunk⟩
  · -- a chunk took the place of the manifest
    push Not at htaken
    obtain ⟨j, hj, heq⟩ := htaken
    have hchunk := hstores.chunk j _ (getElem?_eq_getElem hj)
    rw [Nat.zero_add, heq] at hchunk
    rw [readText_of_value hchunk, textOf, Except.ok.injEq]
    constructor
    · intro ht
      exact .inl ⟨j, by rw [← ht]; exact getElem?_eq_getElem hj, heq⟩
    · rintro (⟨j', hj', heq'⟩ | ⟨htaken, -⟩)
      · obtain rfl := chunkKey_injective b (heq.trans heq'.symm)
        rw [getElem?_eq_getElem hj] at hj'
        exact Option.some.inj hj'
      · exact absurd heq (htaken j hj)

theorem not_mem_chunks_of_readText {c : Contents} {self : Self} {b : Key} {t : Str}
    (h : c.readText self b.val = .ok t) {chunks : List Value} (hlists : c.Lists b chunks) :
    Value.str b.val ∉ chunks := by
  intro hmem
  obtain ⟨items, hvalue, -, hlisted⟩ := hlists
  rcases readText_eq_ok h with hstr | ⟨items', chunks', parts, hvalue', hlisted', hparts, hjoin⟩
  · rw [hvalue] at hstr
    cases hstr
  · rw [hvalue] at hvalue'
    cases hvalue'
    rw [hlisted] at hlisted'
    cases hlisted'
    obtain ⟨part, hpart, hown⟩ := value_mem_readParts self hparts hmem
    obtain ⟨s, rfl, -⟩ := of_joinParts hjoin part hpart
    rw [hvalue] at hown
    cases hown

theorem storedTexts_deleteAll (c : Contents) (keys : List Key) (config : RuntimeConfig)
    (args : ChunkedArgs) (b : Key) :
    (c.deleteAll keys).storedTexts config args b = c.storedTexts config args b := by
  have hpolicy : ((c.deleteAll keys).renew config).compressionPolicy =
      (c.renew config).compressionPolicy := by
    rw [renew, renew, deleteAll]
    split <;> rfl
  unfold storedTexts
  split
  · dsimp only
    rw [storable_congr (c := c) (by rfl) hpolicy]
  · rfl

variable [Scores] {d : Directory}

theorem fst_run_writeTextChunked (hd : d.Coherent) (self : Self) (config : RuntimeConfig)
    (args : ChunkedArgs) : ((writeTextChunked self config args).run Directory.exec d).1 =
      ((writeTextChunked self config args).run Contents.exec d.contents).1 :=
  (congrArg Prod.fst ((uses_writeTextChunked self config args).simulates hd).run_abs).symm

/-- A chunked write that fails on the name of a chunked text leaves that text readable just when it is
turned down before it changes anything, or when the chunks that it has stored make up the text. -/
theorem readText_of_failed_iff (d : Directory) (hd : d.Coherent) (self : Self)
    (config : RuntimeConfig) (args : ChunkedArgs) (b : Key) (hb : args.name = b.val)
    (hchunked : ∃ chunks, d.contents.Lists b chunks) (t : Str)
    (ht : ((readText self args.name).run Directory.exec d).1 = .ok t)
    (hfailed : Failed ((writeTextChunked self config args).run Directory.exec d).1) :
    ((readText self args.name).run Directory.exec
        ((writeTextChunked self config args).run Directory.exec d).2).1 = .ok t ↔
      d.contents.Refuses args b ∨ d.contents.Restores config args b t := by
  rw [fst_run_readText hd, hb] at ht
  rw [fst_run_writeTextChunked hd] at hfailed
  rw [fst_run_readText_after hd, hb]
  rcases writeTextChunked_cases d.contents self config hb with
    ⟨hrefuses, result, hrun, -⟩ | ⟨text, keys, htext, haccepted, hrun, hkeys⟩
  · rw [hrun]
    exact iff_of_true ht (.inl hrefuses)
  · obtain ⟨chunks, hlists⟩ := hchunked
    rw [hrun] at hfailed ⊢
    rcases storeChunks_cases (d.contents.deleteAll keys) self config hb htext
      (d.contents.entries b).isSome with
      ⟨r, c', hstore, -, hstores⟩ | ⟨result, c₁, entry, hstore, hok, -⟩
    · rw [storedTexts_deleteAll] at hstores
      rw [hstore]
      have hself : b ∉ keys := by
        intro hmem
        obtain ⟨chunks, hlists, hmem⟩ := (hkeys b).mp hmem
        exact not_mem_chunks_of_readText ht hlists (str_mem_of_mem_deletable hmem)
      obtain ⟨items, hvalue, hmanifest, hlisted⟩ := id hlists
      rw [readText_of_stores hvalue hmanifest hlisted hkeys hstores hself t]
      exact (or_iff_right haccepted).symm
    · rw [hstore] at hfailed
      exact absurd hok (by rw [failed_ok_iff.mp hfailed]; decide)

end Failure

/-! ## The manifest that is read -/

theorem getItem_record (fields : List (Str × Value)) (key : String) :
    Value.getItem (fields.map fun f => (.str f.1, f.2)) key = PyDict.get fields (lit key) := by
  induction fields with
  | nil => rfl
  | cons f fields ih => rw [map_cons, Value.getItem, ih, PyDict.get]

section Manifest

variable [Runtime] (key : Key) (chunkSize : Nat) (raw : Bytes) (chunks : List Bytes)

def manifestItems : List (Value × Value) :=
  (sortByKey ((manifestFields key chunkSize raw chunks).map fun f => (f.1, f.2.canonical))).map
    fun f => (.str f.1, f.2)

theorem canonical_chunkManifest :
    (chunkManifest key chunkSize raw chunks).canonical =
      .dict (manifestItems key chunkSize raw chunks) := by
  rw [chunkManifest, canonical_record, Value.record, manifestItems]

theorem getItem_manifestItems (name : String) :
    Value.getItem (manifestItems key chunkSize raw chunks) name =
      PyDict.get ((manifestFields key chunkSize raw chunks).map fun f => (f.1, f.2.canonical))
        (lit name) := by
  rw [manifestItems, getItem_record]
  refine (PyDict.get_perm (perm_sortByKey _).symm ?_ _).symm
  rw [PyDict.keys, map_map]
  exact nodup_manifestFields key chunkSize raw chunks

end Manifest

section Success

variable [Runtime] [Objects]

/-- What the conversions of Python and its JSON codec are for a manifest. -/
structure ManifestLaw : Prop extends RecordLaw where
  strOf : ∀ s : Str, Objects.strOf (.str s) = s
  intOf : ∀ i : Int, Objects.intOf (.int i) = .ok i

variable {key : Key} {chunkSize : Nat} {raw : Bytes} {chunks : List Bytes}

omit [Objects] in
theorem isChunkManifest_manifestItems :
    isChunkManifest (manifestItems key chunkSize raw chunks) = true := by
  rw [isChunkManifest, getItem_manifestItems]
  simp [manifestFields, PyDict.get, Value.canonical]

theorem listedChunks_manifestItems :
    listedChunks (manifestItems key chunkSize raw chunks) =
      .ok ((List.range chunks.length).map fun i => .str (chunkName key i)) := by
  have hget : Value.getItem (manifestItems key chunkSize raw chunks) "chunks" =
      some (.list ((range chunks.length).map fun i => .str (chunkName key i))) := by
    rw [getItem_manifestItems]
    simp [manifestFields, PyDict.get, lit_inj, itemsCanonical_eq, Value.canonical, comp_def]
  rw [listedChunks, hget]
  dsimp only
  split
  · rfl
  · next hempty =>
    have hnone : (range chunks.length).map (fun i => Value.str (chunkName key i)) = [] := by
      simpa [Value.truthy] using hempty
    rw [hnone]

theorem checkContract_manifestItems (name : Str) :
    checkContract name (manifestItems key chunkSize raw chunks) = .ok () := by
  have hget : Value.getItem (manifestItems key chunkSize raw chunks) "chunk_boundary_contract" =
      some (.str utf8ChunkContract) := by
    rw [getItem_manifestItems]
    simp [manifestFields, PyDict.get, lit_inj, Value.canonical]
  rw [checkContract, hget]
  exact if_pos rfl

omit [Runtime] [Objects] in
theorem encodeText_of_scalar {text : Str} (h : text.all isScalar = true) :
    encodeText text = .ok (utf8 text) := by
  rw [encodeText, encodeUtf8, if_pos h]

omit [Runtime] in
theorem encodeParts_texts {texts : List Str} (h : ∀ text ∈ texts, text.all isScalar = true) :
    encodeParts (texts.map Value.str) = .ok (texts.map utf8) := by
  induction texts with
  | nil => rfl
  | cons text texts ih =>
    rw [map_cons, encodeParts, encodeText_of_scalar (h text mem_cons_self), ok_bind,
      ih fun t ht => h t (mem_cons_of_mem _ ht)]
    rfl

omit [Runtime] in
theorem joinParts_texts (texts : List Str) :
    joinParts (texts.map Value.str) = .ok texts.flatten := by
  induction texts with
  | nil => rfl
  | cons text texts ih =>
    rw [map_cons, joinParts, ih]
    rfl

theorem checkChecksums_manifestItems (hlaw : ManifestLaw) (name : Str) {texts : List Str}
    (h : ∀ text ∈ texts, text.all isScalar = true) :
    checkChecksums name (manifestItems key chunkSize raw (texts.map utf8)) (texts.map Value.str) =
      .ok () := by
  have hget : Value.getItem (manifestItems key chunkSize raw (texts.map utf8)) "chunk_checksums32" =
      some (.list ((texts.map utf8).map fun chunk =>
        .int (crc32IeeeV1.checksum chunk))) := by
    rw [getItem_manifestItems]
    simp [manifestFields, PyDict.get, lit_inj, itemsCanonical_eq, Value.canonical, comp_def]
  have halgorithm : Value.getItem (manifestItems key chunkSize raw (texts.map utf8))
      "chunk_checksum_algorithm" = some (.str crc32IeeeV1.name) := by
    rw [getItem_manifestItems]
    simp [manifestFields, PyDict.get, lit_inj, Value.canonical]
  have hnormal : ofManifest (manifestItems key chunkSize raw (texts.map utf8)) =
      .ok .crc32IeeeV1 := by
    rw [ofManifest, halgorithm]
    dsimp only
    rw [hlaw.strOf, ChecksumAlgorithm.normalize, if_pos rfl]
  have hints : ((texts.map utf8).map fun chunk =>
        Value.int (crc32IeeeV1.checksum chunk)).mapM Objects.intOf =
      .ok ((texts.map utf8).map fun chunk => (crc32IeeeV1.checksum chunk : Int)) := by
    rw [mapM_eq_ok, forall₂_map_left_iff, forall₂_map_right_iff, forall₂_same]
    intro chunk _
    exact hlaw.intOf _
  rw [checkChecksums, hget]
  dsimp only
  rw [encodeParts_texts h, ok_bind, hnormal, ok_bind, Value.items, ok_bind, hints, ok_bind,
    if_neg (not_not.mpr rfl)]
  rfl

theorem checkHash_manifestItems (name : Str) {text : Str} (h : text.all isScalar = true) :
    checkHash name (manifestItems key chunkSize (utf8 text) chunks) text = .ok () := by
  have hget : Value.getItem (manifestItems key chunkSize (utf8 text) chunks) "content_hash" =
      some (.str (sha256 (utf8 text)).hex) := by
    rw [getItem_manifestItems]
    simp [manifestFields, PyDict.get, lit_inj, Value.canonical]
  rw [checkHash, hget]
  dsimp only
  split
  · rw [encodeText_of_scalar h, ok_bind, if_pos rfl]
  · rfl

theorem assemble_manifestItems (hlaw : ManifestLaw) (name : Str) {texts : List Str}
    (h : ∀ text ∈ texts, text.all isScalar = true) :
    assemble name (manifestItems key chunkSize (utf8 texts.flatten) (texts.map utf8))
      (texts.map Value.str) = .ok texts.flatten := by
  have hflat : texts.flatten.all isScalar = true := by
    rw [all_flatten, all_eq_true]
    exact h
  rw [assemble, checkContract_manifestItems, ok_bind, checkChecksums_manifestItems hlaw name h, ok_bind,
    joinParts_texts, ok_bind, checkHash_manifestItems name hflat]
  rfl

theorem readText_of_manifest (hlaw : ManifestLaw) {c c₁ : Contents} (self : Self)
    (config : RuntimeConfig) {b : Key} {texts : List Str}
    (hscalar : ∀ text ∈ texts, text.all isScalar = true) (hstores : c.Stores b 0 texts c₁)
    {entry : Entry} (hdata : entry.data =
      .dict (manifestItems b chunkSize (utf8 texts.flatten) (texts.map utf8))) :
    ((c₁.renew config).put b entry).readText self b.val = .ok texts.flatten ↔
      ∀ i < texts.length, chunkName b i ≠ b.val := by
  have hvalue := value_put_self (c₁.renew config) b entry
  rw [hdata] at hvalue
  have hlisted : listedChunks (manifestItems b chunkSize (utf8 texts.flatten) (texts.map utf8)) =
      .ok ((range texts.length).map fun i => .str (chunkName b i)) := by
    rw [listedChunks_manifestItems, length_map]
  constructor
  · intro h i hi hname
    refine not_mem_chunks_of_readText h ⟨_, hvalue, isChunkManifest_manifestItems, hlisted⟩ ?_
    rw [← hname]
    exact mem_map_of_mem (mem_range.mpr hi)
  · intro hnames
    rw [readText_of_value hvalue,
      textOf_dict isChunkManifest_manifestItems hlisted]
    have hparts : ((c₁.renew config).put b entry).readParts self
        ((range texts.length).map fun i => .str (chunkName b i)) = .ok (texts.map .str) := by
      rw [readParts_eq_ok_iff, forall₂_iff_get]
      refine ⟨by simp, fun i hi hi' => ?_⟩
      rw [length_map, length_range] at hi
      have hne : chunkKey b i ≠ b := fun h => hnames i hi (congrArg Subtype.val h)
      have hchunk := hstores.chunk i _ (getElem?_eq_getElem hi)
      rw [Nat.zero_add] at hchunk
      refine ⟨chunkKey b i, by simp [chunkKey], ?_⟩
      rw [value, put]
      dsimp only
      rw [update_of_ne hne, entries_renew]
      exact hchunk.trans (by simp)
    rw [hparts, ok_bind]
    exact assemble_manifestItems hlaw b.val hscalar

theorem encodable_of_written {c : Contents} {self : Self} {result : Result}
    (h : ((writeTextChunked self config args).run Contents.exec c).1 = .ok result)
    (hok : result.ok = true) : ∃ b : Key, args.name = b.val := by
  cases hkey : keyOf args.name with
  | ok b => exact ⟨b, (keyOf_eq_ok_iff.mp hkey).symm⟩
  | error e =>
    exfalso
    unfold writeTextChunked at h
    cases htext : args.text with
    | str text =>
      rw [htext] at h
      dsimp only at h
      split at h
      · cases h
        cases hok
      · rw [run_bind, run_exists?, hkey] at h
        cases h
    | _ =>
      rw [htext] at h
      cases h
      cases hok

variable [Scores] {d : Directory}

section

variable (hlaw : ManifestLaw) (hd : d.Coherent) {self : Self} {text : Str}
  (htext : args.text = .str text)
  (hok : ¬ Failed ((writeTextChunked self config args).run Directory.exec d).1)
include hlaw hd htext hok

theorem exists_stores_of_written :
    ∃ (b : Key) (c₀ c₁ : Contents) (entry : Entry), args.name = b.val ∧ text.all isScalar = true ∧
      c₀.Stores b 0 (textsOf args.chunkSize.toNat text) c₁ ∧
      ((writeTextChunked self config args).run Directory.exec d).2.contents =
        (c₁.renew config).put b entry ∧
      entry.data = .dict (manifestItems b args.chunkSize.toNat (utf8 text)
        ((textsOf args.chunkSize.toNat text).map utf8)) := by
  obtain ⟨result, hresult, hok⟩ := exists_of_not_failed hok
  rw [fst_run_writeTextChunked hd] at hresult
  obtain ⟨b, hb⟩ := encodable_of_written hresult hok
  rw [contents_writeTextChunked hd]
  rcases writeTextChunked_cases d.contents self config hb with
    ⟨-, result', hrun, hrefused⟩ | ⟨text', keys, htext', -, hrun, -⟩
  · rw [hrun] at hresult
    cases hresult
    rw [hrefused] at hok
    cases hok
  · rw [htext] at htext'
    cases htext'
    rw [hrun] at hresult ⊢
    rcases storeChunks_cases (d.contents.deleteAll keys) self config hb htext
      (d.contents.entries b).isSome with
      ⟨r, c', hstore, hfailed, -⟩ | ⟨result', c₁, entry, hstore, -, hscalar, hstores, hstored⟩
    · rw [hstore] at hresult
      cases hresult
      rw [failed_ok_iff.mp hfailed] at hok
      cases hok
    · obtain ⟨bytes, hdump, hload⟩ := storedValue_json.mp hstored
      rw [hlaw.loads _ _ (regular_chunkManifest ..) hdump, canonical_chunkManifest,
        Except.ok.injEq] at hload
      exact ⟨b, _, c₁, entry, hb, hscalar, hstores, by rw [hstore], hload.symm⟩

theorem exists_lists_of_written :
    ∃ (b : Key) (chunks : List Value), args.name = b.val ∧
      ((writeTextChunked self config args).run Directory.exec d).2.contents.Lists b chunks := by
  obtain ⟨b, c₀, c₁, entry, hb, -, -, hcontents, hdata⟩ := exists_stores_of_written hlaw hd htext hok
  have hvalue := value_put_self (c₁.renew config) b entry
  rw [hdata] at hvalue
  rw [hcontents]
  exact ⟨b, _, hb, _, hvalue, isChunkManifest_manifestItems, listedChunks_manifestItems⟩

end

/-- A chunked write that succeeds is read back, just when none of its chunks has the name of the text. -/
theorem readText_of_written_iff (hlaw : ManifestLaw) (d : Directory) (hd : d.Coherent) (self : Self)
    (config : RuntimeConfig) (args : ChunkedArgs) (text : Str) (htext : args.text = .str text)
    (hok : ¬ Failed ((writeTextChunked self config args).run Directory.exec d).1) :
    ((readText self args.name).run Directory.exec
        ((writeTextChunked self config args).run Directory.exec d).2).1 = .ok text ↔
      ∀ b : Key, b.val = args.name →
        ∀ i < (textsOf args.chunkSize.toNat text).length, chunkName b i ≠ args.name := by
  obtain ⟨b, c₀, c₁, entry, hb, hscalar, hstores, hcontents, hdata⟩ :=
    exists_stores_of_written hlaw hd htext hok
  have hitems : entry.data = .dict (manifestItems b args.chunkSize.toNat
      (utf8 (textsOf args.chunkSize.toNat text).flatten)
      ((textsOf args.chunkSize.toNat text).map utf8)) := by
    rw [flatten_textsOf, ← hdata]
  have hread := readText_of_manifest hlaw self config (all_isScalar_textsOf hscalar) hstores hitems
  rw [flatten_textsOf] at hread
  rw [fst_run_readText (coherent_writeTextChunked hd self config args), hcontents, hb, hread]
  constructor
  · intro h b' hb'
    rwa [Subtype.ext hb']
  · intro h
    exact h b rfl

end Success

section Sample

attribute [local instance] sampleRuntime documentObjects sampleScores

theorem manifestLaw_sample : ManifestLaw where
  toRecordLaw := recordLaw_document rfl rfl
  strOf _ := rfl
  intOf _ := rfl

theorem not_failed_sample : ¬ Failed ((writeTextChunked sampleSelf sampleConfig
    (sampleChunked "aca" "one")).run Directory.exec emptySample).1 := by
  decide +kernel

/-- The theorem for the text `one` under the name `aca`. -/
theorem readText_of_written_sample :
    emptySample.Coherent ∧
    ((readText sampleSelf (lit "aca")).run Directory.exec
        ((writeTextChunked sampleSelf sampleConfig (sampleChunked "aca" "one")).run Directory.exec
          emptySample).2).1 = .ok (lit "one") :=
  ⟨coherent_emptySample, (readText_of_written_iff manifestLaw_sample emptySample coherent_emptySample
    sampleSelf sampleConfig (sampleChunked "aca" "one") (lit "one") rfl not_failed_sample).mpr
      fun b hb i _ h => by
        have hhead := congrArg head? h
        simp [chunkName, textChunkPrefix, lit, sampleChunked] at hhead⟩

/-- A text under the name of its own first chunk: the manifest replaces the chunk. -/
theorem chunk_named_as_text_sample :
    let args := sampleChunked ".__tds_chunk__92430895_000000" "hello"
    let written := (writeTextChunked sampleSelf sampleConfig args).run Directory.exec emptySample
    ¬ Failed written.1 ∧
    ((readText sampleSelf args.name).run Directory.exec written.2).1 =
      .error ⟨.valueError,
        lit "Chunk checksum mismatch for '.__tds_chunk__92430895_000000'"⟩ := by
  decide +kernel

/-- The directory with the text `one` under the name `aca`. -/
def chunkedSample : Directory :=
  ((writeTextChunked sampleSelf sampleConfig (sampleChunked "aca" "one")).run Directory.exec
    emptySample).2

/-- The text `one` is replaced by a lone surrogate. -/
def surrogateArgs : ChunkedArgs := ⟨lit "aca", .str [0xD800], 65536, true, none, []⟩

theorem coherent_chunkedSample : chunkedSample.Coherent :=
  coherent_writeTextChunked coherent_emptySample ..

theorem readText_chunkedSample :
    ((readText sampleSelf (lit "aca")).run Directory.exec chunkedSample).1 = .ok (lit "one") := by
  decide +kernel

theorem failed_surrogateArgs :
    Failed ((writeTextChunked sampleSelf sampleConfig surrogateArgs).run Directory.exec
      chunkedSample).1 ∧
    ((readText sampleSelf (lit "aca")).run Directory.exec
        ((writeTextChunked sampleSelf sampleConfig surrogateArgs).run Directory.exec
          chunkedSample).2).1 =
      .error ⟨.keyError, lit "No entry '.__tds_chunk__024d0126_000000' in 'root'"⟩ := by
  decide +kernel

/-- The key of the name `aca`. -/
def acaKey : Key := ⟨lit "aca", by decide⟩

theorem lists_chunkedSample : ∃ chunks, chunkedSample.contents.Lists acaKey chunks := by
  obtain ⟨b, chunks, hb, hlists⟩ := exists_lists_of_written manifestLaw_sample coherent_emptySample rfl
    not_failed_sample
  obtain rfl : acaKey = b := Subtype.ext hb
  exact ⟨chunks, hlists⟩

/-- The theorem where a lone surrogate replaces the text `one`. -/
theorem readText_of_failed_sample :
    chunkedSample.Coherent ∧ (∃ chunks, chunkedSample.contents.Lists acaKey chunks) ∧
    ¬ (chunkedSample.contents.Refuses surrogateArgs acaKey ∨
      chunkedSample.contents.Restores sampleConfig surrogateArgs acaKey (lit "one")) := by
  refine ⟨coherent_chunkedSample, lists_chunkedSample, ?_⟩
  rw [← readText_of_failed_iff chunkedSample coherent_chunkedSample sampleSelf sampleConfig
    surrogateArgs acaKey rfl lists_chunkedSample (lit "one") readText_chunkedSample
    failed_surrogateArgs.1]
  rw [show surrogateArgs.name = lit "aca" from rfl, failed_surrogateArgs.2]
  exact nofun

/-- A text that cannot be encoded replaces the text `one`, whose chunk is deleted before the encoding
fails. -/
theorem failed_overwrite_sample :
    ((readText sampleSelf (lit "aca")).run Directory.exec chunkedSample).1 = .ok (lit "one") ∧
    Failed ((writeTextChunked sampleSelf sampleConfig surrogateArgs).run Directory.exec
      chunkedSample).1 ∧
    ((readText sampleSelf (lit "aca")).run Directory.exec
        ((writeTextChunked sampleSelf sampleConfig surrogateArgs).run Directory.exec
          chunkedSample).2).1 ≠ .ok (lit "one") := by
  refine ⟨readText_chunkedSample, failed_surrogateArgs.1, ?_⟩
  rw [failed_surrogateArgs.2]
  exact nofun

end Sample

end FileSystem
