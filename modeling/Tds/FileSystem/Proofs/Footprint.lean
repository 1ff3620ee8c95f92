import Tds.FileSystem.Proofs.Text

/-!
# What a chunked write leaves alone, and what a text is read from
-/

namespace FileSystem

open Python Process Prog Contents

/-! ## What a method leaves alone -/

namespace Contents

/-- Only the entries of names with the property may be different. -/
structure Upto (P : Key → Prop) (c c' : Contents) : Prop where
  schemas : c'.schemas = c.schemas
  lockvars : c'.lockvars = c.lockvars
  stalkvars : c'.stalkvars = c.stalkvars
  entries : ∀ n, ¬ P n → c'.entries n = c.entries n

variable {P Q : Key → Prop} {c c' c'' : Contents}

theorem Upto.refl (c : Contents) : c.Upto P c := ⟨rfl, rfl, rfl, fun _ _ => rfl⟩

theorem Upto.trans (h : c.Upto P c') (h' : c'.Upto P c'') : c.Upto P c'' :=
  ⟨h'.schemas.trans h.schemas, h'.lockvars.trans h.lockvars, h'.stalkvars.trans h.stalkvars,
    fun n hn => (h'.entries n hn).trans (h.entries n hn)⟩

theorem Upto.mono (h : c.Upto P c') (hPQ : ∀ n, P n → Q n) : c.Upto Q c' :=
  ⟨h.schemas, h.lockvars, h.stalkvars, fun n hn => h.entries n (mt (hPQ n) hn)⟩

theorem upto_renew (c : Contents) (config : RuntimeConfig) : c.Upto P (c.renew config) := by
  unfold renew
  split
  · exact .refl c
  · exact ⟨rfl, rfl, rfl, fun _ _ => rfl⟩

theorem upto_put (c : Contents) (key : Key) (entry : Entry) : c.Upto (· = key) (c.put key entry) :=
  ⟨rfl, rfl, rfl, fun _ hn => Function.update_of_ne hn _ _⟩

theorem validate_congr [Objects] (h : c'.schemas = c.schemas) (name : Str) (value : Value) :
    c'.validate name value = c.validate name value := by
  rw [validate, validate, h]

theorem validate_str [Objects] (c : Contents) (name s : Str) :
    c.validate name (.str s) = c.validate name (.str []) := rfl

theorem Upto.acceptsText [Objects] (h : c.Upto P c') (name : Str) :
    c'.AcceptsText name ↔ c.AcceptsText name := by
  rw [AcceptsText, AcceptsText, validate_congr h.schemas]

theorem Upto.acceptsDict [Objects] (h : c.Upto P c') (name : Str) :
    c'.AcceptsDict name ↔ c.AcceptsDict name := by
  rw [AcceptsDict, AcceptsDict, validate_congr h.schemas]

end Contents

/-! ## Deleting the old chunks -/

namespace Contents

def deleteAll (c : Contents) (keys : List Key) : Contents :=
  { c with entries := fun n => if n ∈ keys then none else c.entries n }

theorem delete_of_none {c : Contents} {key : Key} (h : c.entries key = none) : c.delete key = c := by
  unfold delete
  rw [← h, Function.update_eq_self]

theorem deleteAll_nil (c : Contents) : c.deleteAll [] = c := by
  simp [deleteAll]

theorem deleteAll_cons (c : Contents) (key : Key) (keys : List Key) :
    c.deleteAll (key :: keys) = (c.delete key).deleteAll keys := by
  unfold deleteAll delete
  congr 1
  funext n
  dsimp only
  rw [Function.update_apply]
  by_cases hn : n = key
  · simp [hn]
  · simp [hn]

theorem upto_deleteAll (c : Contents) (keys : List Key) : c.Upto (· ∈ keys) (c.deleteAll keys) :=
  ⟨rfl, rfl, rfl, fun _ hn => if_neg hn⟩

end Contents

section Delete

variable (c : Contents)

theorem run_deleteExisting (name : Str) :
    (deleteExisting name).run Contents.exec c =
      match keyOf name with
      | .error e => (.error e, c)
      | .ok key => (.ok (), c.delete key) := by
  unfold deleteExisting
  rw [run_bind, run_exists?]
  cases hkey : keyOf name with
  | error e => rfl
  | ok key =>
    rw [map_ok]
    dsimp only
    cases hentry : c.entries key with
    | none =>
      rw [delete_of_none hentry]
      rfl
    | some entry =>
      rw [Option.isSome_some, if_pos rfl, run_deleteEntry, hkey]

variable [Objects]

theorem run_deleteChunks (chunks : List Value) :
    ((deleteChunks chunks).run Contents.exec c).2 = c.deleteAll (deletable chunks) := by
  induction chunks generalizing c with
  | nil => exact c.deleteAll_nil.symm
  | cons chunk chunks ih =>
    unfold deleteChunks deletable
    cases chunk with
    | str name =>
      show ((deleteExisting name >>= fun _ => deleteChunks chunks).run exec c).2 = _
      rw [run_bind, run_deleteExisting]
      dsimp only
      cases keyOf name with
      | error e => exact c.deleteAll_nil.symm
      | ok key =>
        dsimp only
        rw [ih, deleteAll_cons]
    | _ => exact c.deleteAll_nil.symm

theorem run_deleteChunksOf (value : Value) :
    ∃ keys, ((deleteChunksOf value).run Contents.exec c).2 = c.deleteAll keys ∧
      ∀ n, n ∈ keys ↔ ∃ items chunks, value = .dict items ∧ isChunkManifest items = true ∧
        listedChunks items = .ok chunks ∧ n ∈ deletable chunks := by
  cases value with
  | dict items =>
    unfold deleteChunksOf
    dsimp only
    by_cases hm : isChunkManifest items = true
    · rw [if_pos hm]
      cases hl : listedChunks items with
      | error e => exact ⟨[], c.deleteAll_nil.symm, by simp [hl]⟩
      | ok chunks =>
        refine ⟨deletable chunks, run_deleteChunks c chunks, fun n => ⟨fun hn => ?_, ?_⟩⟩
        · exact ⟨items, chunks, rfl, hm, hl, hn⟩
        · rintro ⟨_, chunks', ⟨⟩, -, hl', hn⟩
          rwa [Except.ok.inj (hl.symm.trans hl')]
    · rw [if_neg hm]
      exact ⟨[], c.deleteAll_nil.symm, by simp [hm]⟩
  | _ => exact ⟨[], c.deleteAll_nil.symm, by simp⟩

theorem run_removePriorChunks (self : Self) (b : Key) (found : Bool) :
    ∃ keys, (removePriorChunks self b.val found).run Contents.exec c = (.ok (), c.deleteAll keys) ∧
      ∀ n, n ∈ keys ↔ found = true ∧ ∃ chunks, c.Lists b chunks ∧ n ∈ deletable chunks := by
  unfold removePriorChunks
  cases found with
  | false => exact ⟨[], by rw [c.deleteAll_nil]; rfl, by simp⟩
  | true =>
    rw [if_pos rfl]
    unfold Contents.Lists value
    rw [run_bind, run_tryExcept, run_bind, run_readValue, Contents.read, keyOf_val, ok_bind]
    cases c.entries b with
    | none => exact ⟨[], by rw [c.deleteAll_nil]; rfl, by simp⟩
    | some entry =>
      obtain ⟨keys, hkeys, hmem⟩ := run_deleteChunksOf c entry.data
      refine ⟨keys, ?_, fun n => (hmem n).trans ?_⟩
      · dsimp only
        rw [pure_eq_ok]
        dsimp only
        rw [hkeys]
        rfl
      · simp only [Option.map_some, Option.some.injEq, true_and]
        constructor
        · rintro ⟨items, chunks, hv, hm, hl, hn⟩
          exact ⟨chunks, ⟨items, hv, hm, hl⟩, hn⟩
        · rintro ⟨chunks, ⟨items, hv, hm, hl⟩, hn⟩
          exact ⟨items, chunks, hv, hm, hl, hn⟩

end Delete

section Store

variable [Runtime] [Objects] (c : Contents)

variable (config : RuntimeConfig)

theorem writeEntry_cases (args : WriteArgs) :
    (∃ e c', (writeEntry config args).run Contents.exec c = (.error e, c') ∧
      ∀ P, c.Upto P c') ∨
    ∃ key entry, (writeEntry config args).run Contents.exec c =
        (.ok entry, (c.renew config).put key entry) ∧ key.val = args.name ∧
      c.validate args.name args.value = .ok () ∧ storedValue args = .ok entry.data := by
  rw [run_writeEntry]
  cases hv : c.validate args.name args.value with
  | error e => exact .inl ⟨e, c, rfl, fun P => .refl c⟩
  | ok _ =>
    dsimp only
    cases hp : c.prepare config args with
    | error e => exact .inl ⟨e, _, rfl, fun P => c.upto_renew config⟩
    | ok item =>
      obtain ⟨hname, hstored⟩ := of_prepare hp
      exact .inr ⟨item.1, item.2, rfl, hname, rfl, hstored⟩

/-- A name of a chunk from the `i`-th on, where all chunks up to this one can be stored. -/
def ChunkFrom (b : Key) (i : Nat) (n : Key) : Prop :=
  ∃ j, i ≤ j ∧ n.val = chunkName b j ∧ ∀ k, i ≤ k → k ≤ j → c.AcceptsText (chunkName b k)

theorem upto_writeChunks (b : Key) (compress : Option Bool) (codec : Str)
    (chunks : List Bytes) (i : Nat) :
    ∃ failed c', (writeChunks config b compress codec chunks i).run Contents.exec c =
        (.ok failed, c') ∧ c.Upto (ChunkFrom c b i) c' ∧
      (failed = none → chunks ≠ [] → c.AcceptsText (chunkName b i)) := by
  induction chunks generalizing c i with
  | nil => exact ⟨none, c, rfl, .refl c, fun _ h => absurd rfl h⟩
  | cons chunk chunks ih =>
    unfold writeChunks
    rw [run_bind, run_tryExcept]
    cases decodeChunk chunk with
    | error e => exact ⟨some e, c, rfl, .refl c, by simp⟩
    | ok text =>
      rw [liftM_ok_bind]
      rcases writeEntry_cases c config ⟨chunkName b i, .str text, textUtf8, compress, codec⟩ with
        ⟨e, c₁, hrun, hupto⟩ | ⟨key, entry, hrun, hname, hvalid, -⟩
      · rw [hrun]
        exact ⟨some e, c₁, rfl, hupto _, by simp⟩
      · rw [hrun]
        dsimp only
        have haccepts : c.AcceptsText (chunkName b i) := hvalid
        have hput : c.Upto (ChunkFrom c b i) ((c.renew config).put key entry) := by
          refine (c.upto_renew config).trans (((c.renew config).upto_put key entry).mono ?_)
          rintro n rfl
          refine ⟨i, le_rfl, hname, fun k hik hki => ?_⟩
          rwa [le_antisymm hki hik]
        obtain ⟨failed, c', hrest, hupto, -⟩ := ih ((c.renew config).put key entry) (i + 1)
        refine ⟨failed, c', hrest, hput.trans (hupto.mono ?_), fun _ _ => haccepts⟩
        rintro n ⟨j, hij, hn, haccept⟩
        refine ⟨j, by omega, hn, fun k hik hkj => ?_⟩
        rcases Nat.eq_or_lt_of_le hik with rfl | hlt
        · exact haccepts
        · exact (hput.acceptsText _).mp (haccept k hlt hkj)

variable {args : ChunkedArgs} {b : Key}

variable (self : Self)

theorem upto_storeChunks (config : RuntimeConfig) (hb : args.name = b.val)
    (text : Str) (found : Bool) :
    c.Upto (fun n => (∃ i, n.val = chunkName b i ∧ ∀ j ≤ i, c.AcceptsText (chunkName b j)) ∨
        n = b ∧ c.AcceptsText (chunkName b 0) ∧ c.AcceptsDict b.val)
      ((storeChunks self config args text found).run Contents.exec c).2 := by
  unfold storeChunks
  cases encodeText text with
  | error e => exact .refl c
  | ok raw =>
    rw [liftM_ok_bind, hb, keyOf_val, liftM_ok_bind]
    cases splitUtf8Chunks raw args.chunkSize.toNat with
    | error e => exact .refl c
    | ok chunks =>
      rw [liftM_ok_bind]
      dsimp only
      set chunks' := if chunks = [] then [[]] else chunks with hchunks
      have hne : chunks' ≠ [] := by
        rw [hchunks]
        split
        · simp
        · assumption
      obtain ⟨failed, c₁, hrun, hupto, hfirst⟩ :=
        upto_writeChunks c config b args.compress args.codec chunks' 0
      have hchunk : ∀ n, ChunkFrom c b 0 n →
          ∃ i, n.val = chunkName b i ∧ ∀ j ≤ i, c.AcceptsText (chunkName b j) := by
        rintro n ⟨i, -, hn, haccept⟩
        exact ⟨i, hn, fun j hj => haccept j (Nat.zero_le j) hj⟩
      rw [run_bind, hrun]
      cases failed with
      | some e => exact hupto.mono fun n hn => .inl (hchunk n hn)
      | none =>
        refine (hupto.mono fun n hn => .inl (hchunk n hn)).trans ?_
        dsimp only
        rw [run_bind]
        rcases writeEntry_cases c₁ config ⟨b.val, chunkManifest b args.chunkSize.toNat raw chunks',
          jsonUtf8, some false, []⟩ with ⟨e, c₂, hrun', hupto'⟩ | ⟨key, entry, hrun', hname, hvalid, -⟩
        · rw [hrun']
          exact hupto' _
        · rw [hrun']
          have hdict : c.AcceptsDict b.val := (hupto.acceptsDict _).mp hvalid
          refine (c₁.upto_renew config).trans (((c₁.renew config).upto_put key entry).mono ?_)
          rintro n rfl
          exact .inr ⟨Subtype.ext hname, hfirst rfl hne, hdict⟩

theorem upto_writeTextChunked (config : RuntimeConfig) (hb : args.name = b.val) :
    c.Upto (c.Touches b) ((writeTextChunked self config args).run Contents.exec c).2 := by
  unfold writeTextChunked
  cases args.text with
  | str text =>
    dsimp only
    split
    · exact .refl c
    · rw [run_bind, run_exists?, hb, keyOf_val, map_ok]
      dsimp only
      split
      · exact .refl c
      · obtain ⟨keys, hremove, hkeys⟩ := run_removePriorChunks c self b (c.entries b).isSome
        have hdelete : c.Upto (c.Touches b) (c.deleteAll keys) := by
          refine (c.upto_deleteAll keys).mono fun n hn => ?_
          obtain ⟨-, chunks, hlists, hmem⟩ := (hkeys n).mp hn
          exact .prior chunks hlists hmem
        rw [run_bind, hremove]
        refine hdelete.trans ((upto_storeChunks (c.deleteAll keys) self config hb text _).mono ?_)
        rintro n (⟨i, hn, haccept⟩ | ⟨rfl, htext, hdict⟩)
        · exact .chunk i hn fun j hj => (hdelete.acceptsText _).mp (haccept j hj)
        · exact .manifest rfl ((hdelete.acceptsText _).mp htext) ((hdelete.acceptsDict _).mp hdict)
  | _ => exact .refl c

theorem writeTextChunked_of_keyOf_error (config : RuntimeConfig) {e : PyException}
    (h : keyOf args.name = .error e) :
    ((writeTextChunked self config args).run Contents.exec c).2 = c := by
  unfold writeTextChunked
  cases args.text with
  | str text =>
    dsimp only
    split
    · rfl
    · rw [run_bind, run_exists?, h]
      rfl
  | _ => rfl

theorem writeTextChunked_of_exists (config : RuntimeConfig) (hb : args.name = b.val)
    (hexists : (c.entries b).isSome = true) (hkeep : args.overwrite = false) :
    ((writeTextChunked self config args).run Contents.exec c).2 = c := by
  unfold writeTextChunked
  cases args.text with
  | str text =>
    dsimp only
    split
    · rfl
    · rw [run_bind, run_exists?, hb, keyOf_val, map_ok, hexists, hkeep]
      rfl
  | _ => rfl

end Store

section Reads

variable [Objects] {c c' : Contents}

theorem read_congr (self : Self) {key : Key} (h : c'.entries key = c.entries key) :
    c'.read self key.val = c.read self key.val := by
  rw [Contents.read, Contents.read, keyOf_val, ok_bind, ok_bind, h]

theorem readParts_congr (self : Self) {chunks : List Value}
    (h : ∀ n : Key, Value.str n.val ∈ chunks → c'.entries n = c.entries n) :
    c'.readParts self chunks = c.readParts self chunks := by
  induction chunks with
  | nil => rfl
  | cons chunk chunks ih =>
    have hrest := ih fun n hn => h n (List.mem_cons_of_mem _ hn)
    unfold Contents.readParts
    rw [hrest]
    cases chunk with
    | str name =>
      show (c'.read self name >>= _) = (c.read self name >>= _)
      cases hkey : keyOf name with
      | error e => simp only [Contents.read, hkey, error_bind]
      | ok key =>
        obtain rfl := keyOf_eq_ok_iff.mp hkey
        rw [read_congr self (h key List.mem_cons_self)]
    | _ => rfl

theorem readText_congr [Runtime] (self : Self) {a : Key}
    (h : ∀ n, c.Reads a n → c'.entries n = c.entries n) :
    c'.readText self a.val = c.readText self a.val := by
  have hself := h a (.inl rfl)
  unfold Contents.readText
  rw [read_congr self hself]
  cases hentry : c.entries a with
  | none =>
    rw [Contents.read, keyOf_val, ok_bind, hentry]
    rfl
  | some entry =>
    rw [Contents.read, keyOf_val, ok_bind, hentry]
    show c'.textOf self a.val entry.data = c.textOf self a.val entry.data
    cases hdata : entry.data with
    | dict items =>
      unfold textOf
      dsimp only
      split
      · next hm =>
        cases hl : listedChunks items with
        | error e => rfl
        | ok chunks =>
          have hlists : c.Lists a chunks := ⟨items, by rw [value, hentry, ← hdata]; rfl, hm, hl⟩
          rw [ok_bind, ok_bind, readParts_congr self fun n hn => h n (.inr ⟨chunks, hlists, hn⟩)]
      · rfl
    | _ => rfl

end Reads

end FileSystem
