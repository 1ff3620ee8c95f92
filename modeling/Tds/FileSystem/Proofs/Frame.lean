import Tds.FileSystem.Proofs.Chunk
import Tds.FileSystem.Proofs.Footprint

/-!
# A chunked write and the other texts of its directory

`readText_writeTextChunked_iff`: no chunked write under `b` changes the text under `a` just when the
two have no entry in common. The names of the chunks are made from a checksum of `b`, so a text with
the same checksum has the same chunks.
-/

namespace FileSystem

open Python Process List Prog Contents

/-! ## Names of chunks -/

theorem all_isScalar_hex8 (n : Nat) : (hex8 n).all isScalar = true := by
  have hdigit : ∀ m, m < 16 → isScalar (hexDigit m) = true := by decide
  simp only [hex8, all_map, all_eq_true, Function.comp_apply]
  exact fun k _ => hdigit _ (Nat.mod_lt _ (by decide))

theorem all_isScalar_chunkName (b : Key) (i : Nat) : (chunkName b i).all isScalar = true := by
  have hdigits : (printNat i).all isScalar = true := by
    rw [all_eq_true]
    intro c hc
    have := printNat_digits i c hc
    simp only [isDigit, Bool.and_eq_true, decide_eq_true_eq] at this
    exact isScalar_of_lt (by omega)
  have hzeros : (replicate (6 - (printNat i).length) 48).all isScalar = true := by
    simp [isScalar_of_lt]
  simp only [chunkName, textChunkPrefix, pad6, all_append, Bool.and_eq_true]
  exact ⟨⟨⟨all_isScalar_lit _, all_isScalar_hex8 _⟩, all_isScalar_lit _⟩, hzeros, hdigits⟩

def chunkKey (b : Key) (i : Nat) : Key := ⟨chunkName b i, all_isScalar_chunkName b i⟩

theorem Contents.value_put_self (c : Contents) (key : Key) (entry : Entry) :
    (c.put key entry).value key = some entry.data := by
  simp [value, put]

/-! ## Spoiling a text -/

/-- What a chunked write of long chunks leaves under a name that it touches. -/
def Spoiled (size : Nat) (b n : Key) : Option Value → Prop
  | none => True
  | some (.str s) => s = letters size
  | some (.dict _) => n = b
  | some _ => False

def Contents.Spoils (size : Nat) (b : Key) (c c' : Contents) : Prop :=
  ∀ n, c'.entries n = c.entries n ∨ Spoiled size b n (c'.value n)

variable {self : Self} {t : Str} {n : Key}

namespace Contents.Spoils

variable {size : Nat} {b : Key} {c c' c'' : Contents}

theorem refl : c.Spoils size b c := fun _ => .inl rfl

theorem spoiled (h : c.Spoils size b c') (hn : Spoiled size b n (c.value n)) :
    Spoiled size b n (c'.value n) := by
  rcases h n with heq | hspoiled
  · rwa [value, heq]
  · exact hspoiled

theorem trans (h : c.Spoils size b c') (h' : c'.Spoils size b c'') : c.Spoils size b c'' := by
  intro n
  rcases h n with heq | hspoiled
  · exact (h' n).imp_left fun heq' => heq'.trans heq
  · exact .inr (h'.spoiled hspoiled)

theorem deleteAll (c : Contents) (keys : List Key) : c.Spoils size b (c.deleteAll keys) := by
  intro n
  by_cases hn : n ∈ keys
  · right
    simp [value, Contents.deleteAll, hn, Spoiled]
  · exact .inl (if_neg hn)

theorem put (h : c'.entries = c.entries) {key : Key} {entry : Entry}
    (hentry : Spoiled size b key (some entry.data)) : c.Spoils size b (c'.put key entry) := by
  intro n
  by_cases hn : n = key
  · subst hn
    right
    rwa [value_put_self]
  · left
    exact (Function.update_of_ne hn _ _).trans (congrFun h n)

end Contents.Spoils

section Json

theorem all_isScalar_hex (digest : Digest) : digest.hex.all isScalar = true := by
  rw [all_eq_true]
  intro c hc
  have := hexOfBytes_bounds digest.bytes c hc
  exact isScalar_of_lt (by omega)

theorem isEncodable_nat {n : Nat} (h : n < 2 ^ 63) : (Value.int n).isEncodable = true := by
  rw [Value.isEncodable, decide_eq_true_iff]
  exact (length_printNat_le (h.trans (by decide : 2 ^ 63 < 10 ^ 19)) (by decide)).trans (by decide)

theorem isEncodable_of_toJson {i : Int} {json : Json} (h : (Value.int i).toJson = .ok json) :
    (Value.int i).isEncodable = true := by
  rw [Value.toJson] at h
  split at h
  · next hlen => simpa [Value.isEncodable] using hlen
  · cases h

theorem exists_toJson_of_mem {fields : List (Str × Value)} {jsons : List (Str × Json)}
    (h : fieldsToJson (fields.map fun f => (.str f.1, f.2)) = .ok jsons) :
    ∀ f ∈ fields, ∃ json, f.2.toJson = .ok json := by
  induction fields generalizing jsons with
  | nil => simp
  | cons f fields ih =>
    rw [map_cons, fieldsToJson] at h
    obtain ⟨json, hjson, h⟩ := bind_eq_ok.mp h
    obtain ⟨rest, hrest, -⟩ := bind_eq_ok.mp h
    exact forall_mem_cons.mpr ⟨⟨json, hjson⟩, ih hrest⟩

variable [Runtime] (key : Key) (chunkSize : Nat) (raw : Bytes) (chunks : List Bytes)

theorem nodup_manifestFields :
    ((manifestFields key chunkSize raw chunks).map Prod.fst).Nodup := by
  simp only [manifestFields, map_cons, map_nil]
  decide

theorem regular_chunkManifest : (chunkManifest key chunkSize raw chunks).Regular 8 := by
  refine .record 7 _ (nodup_manifestFields key chunkSize raw chunks) fun f hf => ?_
  simp only [manifestFields, mem_cons, not_mem_nil, or_false] at hf
  rcases hf with rfl | rfl | rfl | rfl | rfl | rfl | rfl | rfl | rfl | rfl | rfl | rfl | rfl
  case inr.inr.inr.inr.inl =>
    refine .list 6 _ fun v hv => ?_
    obtain ⟨i, -, rfl⟩ := mem_map.mp hv
    exact .str _ _
  case inr.inr.inr.inr.inr.inr.inr.inr.inl =>
    refine .list 6 _ fun v hv => ?_
    obtain ⟨chunk, -, rfl⟩ := mem_map.mp hv
    exact .int _ _
  all_goals first | exact .str _ _ | exact .int _ _

variable {key chunkSize raw chunks}

theorem isEncodable_chunkManifest (hsize : (Value.int chunkSize).isEncodable = true)
    (hraw : (Value.int raw.length).isEncodable = true)
    (hchunks : (Value.int chunks.length).isEncodable = true) :
    (chunkManifest key chunkSize raw chunks).isEncodable = true := by
  refine (isEncodable_record _).mpr fun f hf => ?_
  simp only [manifestFields, mem_cons, not_mem_nil, or_false] at hf
  rcases hf with rfl | rfl | rfl | rfl | rfl | rfl | rfl | rfl | rfl | rfl | rfl | rfl | rfl <;>
    refine ⟨all_isScalar_lit _, ?_⟩
  case inr.inl => exact key.2
  case inr.inr.inl => exact hsize
  case inr.inr.inr.inr.inl =>
    refine (isEncodable_list _).mpr fun v hv => ?_
    obtain ⟨i, -, rfl⟩ := mem_map.mp hv
    exact all_isScalar_chunkName key i
  case inr.inr.inr.inr.inr.inl => exact all_isScalar_hex _
  case inr.inr.inr.inr.inr.inr.inl => exact hraw
  case inr.inr.inr.inr.inr.inr.inr.inl => exact hchunks
  case inr.inr.inr.inr.inr.inr.inr.inr.inl =>
    refine (isEncodable_list _).mpr fun v hv => ?_
    obtain ⟨chunk, -, rfl⟩ := mem_map.mp hv
    exact isEncodable_nat (lt_of_lt_of_le (crc32 chunk).toNat_lt (by decide))
  all_goals exact all_isScalar_lit _

theorem isEncodable_of_dumps {bytes : Bytes}
    (h : dumpsJson (chunkManifest key chunkSize raw chunks) = .ok bytes) :
    (chunkManifest key chunkSize raw chunks).isEncodable = true := by
  obtain ⟨json, hjson, -⟩ := bind_eq_ok.mp h
  rw [chunkManifest, Value.record, Value.toJson] at hjson
  obtain ⟨jsons, hjsons, -⟩ := bind_eq_ok.mp hjson
  have hint : ∀ (name : Str) (i : Int), (name, Value.int i) ∈ manifestFields key chunkSize raw chunks →
      (Value.int i).isEncodable = true := by
    intro name i hmem
    obtain ⟨j, hj⟩ := exists_toJson_of_mem hjsons _ hmem
    exact isEncodable_of_toJson hj
  exact isEncodable_chunkManifest (hint (lit "chunk_size") _ (by simp [manifestFields]))
    (hint (lit "raw_size") _ (by simp [manifestFields]))
    (hint (lit "chunk_count") _ (by simp [manifestFields]))

end Json

section Write

variable [Runtime] [Objects] {c : Contents} {size : Nat} {b : Key}

theorem run_writeEntry_plain (config : RuntimeConfig) (key : Key) {args : WriteArgs} {value : Value}
    (hname : args.name = key.val) (hplain : args.compress = some false)
    (hvalid : c.validate args.name args.value = .ok ()) (hstored : storedValue args = .ok value) :
    ∃ entry, (writeEntry config args).run Contents.exec c =
      (.ok entry, (c.renew config).put key entry) ∧ entry.data = value := by
  obtain ⟨entry, hentry, hdata⟩ :=
    exists_makeEntry config (c.renew config).compressionPolicy hplain hstored
  refine ⟨entry, ?_, hdata⟩
  have hprepare : c.prepare config args = .ok (key, entry) := by
    rw [prepare, hentry, ok_bind, hname, keyOf_val]
    rfl
  rw [run_writeEntry, hvalid]
  dsimp only
  rw [hprepare]

theorem spoils_writeEntry (config : RuntimeConfig) {args : WriteArgs}
    (hstored : ∀ key : Key, key.val = args.name → ∀ value, storedValue args = .ok value →
      Spoiled size b key (some value)) :
    c.Spoils size b ((writeEntry config args).run Contents.exec c).2 := by
  rcases writeEntry_cases c config args with ⟨e, c', hrun, hupto⟩ | ⟨key, entry, hrun, hname, -, hdata⟩
  · rw [hrun]
    exact fun n => .inl ((hupto fun _ => False).entries n id)
  · rw [hrun]
    exact .put (entries_renew c config) (hstored key hname _ hdata)

theorem spoils_writeChunks (c : Contents) (size : Nat) (b : Key) (config : RuntimeConfig) (k i : Nat) :
    c.Spoils size b ((writeChunks config b (some false) []
      (List.replicate k (utf8 (letters size))) i).run Contents.exec c).2 := by
  induction k generalizing c i with
  | zero => exact .refl
  | succ k ih =>
    rw [replicate_succ, writeChunks, run_bind, run_tryExcept,
      decodeChunk_utf8 (all_isScalar_letters size), liftM_ok_bind]
    have hwrite : c.Spoils size b ((writeEntry config ⟨chunkName b i, .str (letters size), textUtf8,
        some false, []⟩).run exec c).2 := by
      refine spoils_writeEntry config fun key _ value hvalue => ?_
      rw [storedValue_text (all_isScalar_letters size)] at hvalue
      cases hvalue
      rfl
    dsimp only
    cases ((writeEntry config ⟨chunkName b i, .str (letters size), textUtf8, some false, []⟩).run
        exec c).1 with
    | ok _ => exact hwrite.trans (ih _ (i + 1))
    | error e => exact hwrite

theorem writeChunks_letters (c : Contents) (size : Nat) (b : Key) (config : RuntimeConfig) (k i : Nat)
    (haccepts : ∀ j < k, c.AcceptsText (chunkName b (i + j))) :
    ∃ c', (writeChunks config b (some false) [] (List.replicate k (utf8 (letters size))) i).run
        Contents.exec c = (.ok none, c') ∧
      ∀ j < k, Spoiled size b (chunkKey b (i + j)) (c'.value (chunkKey b (i + j))) := by
  induction k generalizing c i with
  | zero => exact ⟨c, rfl, by simp⟩
  | succ k ih =>
    have hfirst : c.validate (chunkName b i) (.str (letters size)) = .ok () :=
      (c.validate_str _ _).trans (haccepts 0 (Nat.succ_pos k))
    have hstored : storedValue ⟨chunkName b i, .str (letters size), textUtf8, some false, []⟩ =
        .ok (.str (letters size)) := storedValue_text (all_isScalar_letters size)
    obtain ⟨entry, hwrite, hdata⟩ :=
      run_writeEntry_plain config (chunkKey b i) rfl rfl hfirst hstored
    have hupto : c.Upto (fun _ => True) ((c.renew config).put (chunkKey b i) entry) :=
      (c.upto_renew config).trans (((c.renew config).upto_put _ entry).mono fun _ _ => trivial)
    obtain ⟨c', hrest, hspoiled⟩ := ih ((c.renew config).put (chunkKey b i) entry) (i + 1)
      fun j hj => by
        rw [hupto.acceptsText, Nat.add_right_comm]
        exact haccepts (j + 1) (by omega)
    refine ⟨c', ?_, fun j hj => ?_⟩
    · rw [replicate_succ, writeChunks, run_bind, run_tryExcept,
        decodeChunk_utf8 (all_isScalar_letters size), liftM_ok_bind, hwrite]
      exact hrest
    · cases j with
      | zero =>
        have hfirst : Spoiled size b (chunkKey b i)
            (((c.renew config).put (chunkKey b i) entry).value (chunkKey b i)) := by
          rw [value_put_self, hdata]
          rfl
        have hspoils := spoils_writeChunks ((c.renew config).put (chunkKey b i) entry) size b
          config k (i + 1)
        rw [hrest] at hspoils
        exact hspoils.spoiled hfirst
      | succ j =>
        have := hspoiled j (by omega)
        rwa [Nat.add_right_comm] at this

/-- What the JSON codec is for a manifest: what it stores is a `dict`, and it stores every manifest with
machine integers. -/
structure ManifestCodec : Prop where
  dict : ∀ (key : Key) (chunkSize : Nat) (raw : Bytes) (chunks : List Bytes) (bytes : Bytes)
    (value : Value), Objects.jsonDumps (chunkManifest key chunkSize raw chunks) = .ok bytes →
      Objects.jsonLoads bytes = .ok value → ∃ items, value = .dict items
  total : ∀ (key : Key) (chunkSize : Nat) (raw : Bytes) (chunks : List Bytes), chunkSize < 2 ^ 63 →
    raw.length < 2 ^ 63 → chunks.length < 2 ^ 63 → ∃ bytes value,
      Objects.jsonDumps (chunkManifest key chunkSize raw chunks) = .ok bytes ∧
        Objects.jsonLoads bytes = .ok value

theorem manifestCodec_json (hdumps : Objects.jsonDumps = dumpsJson) (hloads : Objects.jsonLoads = loadsJson) :
    ManifestCodec where
  dict key chunkSize raw chunks bytes value hdump hload := by
    rw [hdumps] at hdump
    rw [hloads, loadsJson_dumpsJson (regular_chunkManifest key chunkSize raw chunks) (by decide)
      (isEncodable_of_dumps hdump) hdump, chunkManifest, canonical_record] at hload
    cases hload
    exact ⟨_, rfl⟩
  total key chunkSize raw chunks hsize hraw hchunks := by
    have hregular := regular_chunkManifest key chunkSize raw chunks
    have hencodable : (chunkManifest key chunkSize raw chunks).isEncodable = true :=
      isEncodable_chunkManifest (isEncodable_nat hsize) (isEncodable_nat hraw) (isEncodable_nat hchunks)
    obtain ⟨bytes, hbytes⟩ := (exists_dumpsDocument_iff hregular).mpr hencodable
    rw [dumpsDocument, if_pos hencodable] at hbytes
    rw [hdumps, hloads]
    exact ⟨bytes, _, hbytes, loadsJson_dumpsJson hregular (by decide) hencodable hbytes⟩

/-- The arguments of a write of `k` chunks that overwrites what is there. -/
def spoilArgs (b : Key) (size k : Nat) : ChunkedArgs :=
  ⟨b.val, .str (letters (k * size)), size, true, some false, []⟩

section Spoil

variable (hjson : ManifestCodec) (hsize : 0 < size)

include hjson in
theorem spoils_writeManifest (c : Contents) (size : Nat) (b : Key) (config : RuntimeConfig) (chunkSize : Nat) (raw : Bytes)
    (chunks : List Bytes) :
    c.Spoils size b ((writeEntry config ⟨b.val, chunkManifest b chunkSize raw chunks, jsonUtf8,
      some false, []⟩).run Contents.exec c).2 := by
  refine spoils_writeEntry config fun key hkey value hvalue => ?_
  obtain ⟨bytes, hdump, hload⟩ := storedValue_json.mp hvalue
  obtain ⟨items, rfl⟩ := hjson.dict b chunkSize raw chunks bytes value hdump hload
  exact Subtype.ext hkey

include hjson in
theorem value_writeManifest (config : RuntimeConfig) {chunkSize : Nat} {raw : Bytes}
    {chunks : List Bytes} (hsize : chunkSize < 2 ^ 63) (hraw : raw.length < 2 ^ 63)
    (hchunks : chunks.length < 2 ^ 63) (haccepts : c.AcceptsDict b.val) :
    ∃ items, ((writeEntry config ⟨b.val, chunkManifest b chunkSize raw chunks, jsonUtf8,
      some false, []⟩).run Contents.exec c).2.value b = some (.dict items) := by
  obtain ⟨bytes, value, hdump, hload⟩ := hjson.total b chunkSize raw chunks hsize hraw hchunks
  obtain ⟨items, rfl⟩ := hjson.dict b chunkSize raw chunks bytes value hdump hload
  have hstored : storedValue ⟨b.val, chunkManifest b chunkSize raw chunks, jsonUtf8, some false, []⟩ =
      .ok (.dict items) := storedValue_json.mpr ⟨bytes, hdump, hload⟩
  have hvalid : c.validate b.val (chunkManifest b chunkSize raw chunks) = .ok () := haccepts
  obtain ⟨entry, hwrite, hdata⟩ := run_writeEntry_plain config b rfl rfl hvalid hstored
  rw [hwrite]
  exact ⟨items, by rw [value_put_self, hdata]⟩

include hjson hsize

/-- All entries are as before or spoiled, and the chunks and the manifest are spoiled if the schemas
let them pass. -/
theorem storeChunks_spoilArgs (self : Self) (config : RuntimeConfig) (found : Bool) {k : Nat}
    (hk : 0 < k) :
    ∃ c', ((storeChunks self config (spoilArgs b size k) (letters (k * size)) found).run
        Contents.exec c).2 = c' ∧ c.Spoils size b c' ∧
      ((∀ j < k, c.AcceptsText (chunkName b j)) →
        (∀ j < k, Spoiled size b (chunkKey b j) (c'.value (chunkKey b j))) ∧
        (k = 1 → size < 2 ^ 63 → c.AcceptsDict b.val → ∃ items, c'.value b = some (.dict items))) := by
  have hencode : encodeText (letters (k * size)) = .ok (utf8 (letters (k * size))) := by
    rw [encodeText, encodeUtf8, if_pos (all_isScalar_letters _)]
  have hsplit : splitUtf8Chunks (utf8 (letters (k * size))) (spoilArgs b size k).chunkSize.toNat =
      .ok (replicate k (utf8 (letters size))) := by
    show splitUtf8Chunks _ size = _
    rw [splitUtf8Chunks_utf8 (all_isScalar_letters _), chunkTexts_letters hsize, map_replicate]
  have hne : replicate k (utf8 (letters size)) ≠ [] := by
    simp only [ne_eq, replicate_eq_nil_iff]
    omega
  have hkey : keyOf (spoilArgs b size k).name = .ok b := keyOf_val b
  have hchunks := spoils_writeChunks c size b config k 0
  obtain ⟨failed, c₁, hrun, hupto, -⟩ := upto_writeChunks c config b (some false) []
    (replicate k (utf8 (letters size))) 0
  rw [hrun] at hchunks
  rw [storeChunks, hencode, liftM_ok_bind, hkey, liftM_ok_bind, hsplit, liftM_ok_bind]
  dsimp only
  rw [if_neg hne, run_bind, show (spoilArgs b size k).compress = some false from rfl,
    show (spoilArgs b size k).codec = [] from rfl, hrun]
  cases failed with
  | some e =>
    refine ⟨c₁, rfl, hchunks, fun haccepts => ?_⟩
    obtain ⟨c₂, hrun', -⟩ := writeChunks_letters c size b config k 0
      fun j hj => by rw [Nat.zero_add]; exact haccepts j hj
    rw [hrun'] at hrun
    cases hrun
  | none =>
    have hmanifest := spoils_writeManifest hjson c₁ size b config size
      (utf8 (letters (k * size))) (replicate k (utf8 (letters size)))
    refine ⟨_, congrArg Prod.snd (run_bind_pure ..), hchunks.trans hmanifest,
      fun haccepts => ⟨fun j hj => ?_, fun hone hbound hdict => ?_⟩⟩
    · obtain ⟨c₂, hrun', hspoiled⟩ := writeChunks_letters c size b config k 0
        fun j hj => by rw [Nat.zero_add]; exact haccepts j hj
      rw [hrun'] at hrun
      cases hrun
      have := hspoiled j hj
      rw [Nat.zero_add] at this
      exact hmanifest.spoiled this
    · subst hone
      refine value_writeManifest hjson config hbound ?_ (by simp) ((hupto.acceptsDict _).mpr hdict)
      rwa [length_utf8_letters, Nat.one_mul]

/-- The same for the whole write, which deletes the chunks of the text that it replaces. -/
theorem writeTextChunked_spoilArgs (self : Self) (config : RuntimeConfig) {k : Nat} (hk : 0 < k) :
    ∃ c', ((writeTextChunked self config (spoilArgs b size k)).run Contents.exec c).2 = c' ∧
      c.Spoils size b c' ∧
      (∀ n chunks, c.Lists b chunks → n ∈ deletable chunks → Spoiled size b n (c'.value n)) ∧
      ((∀ j < k, c.AcceptsText (chunkName b j)) →
        (∀ j < k, Spoiled size b (chunkKey b j) (c'.value (chunkKey b j))) ∧
        (k = 1 → size < 2 ^ 63 → c.AcceptsDict b.val → ∃ items, c'.value b = some (.dict items))) := by
  obtain ⟨keys, hremove, hkeys⟩ := run_removePriorChunks c self b (c.entries b).isSome
  obtain ⟨c', hrun, hspoils, hspoiled⟩ := storeChunks_spoilArgs (c := c.deleteAll keys) (b := b)
    hjson hsize self config (c.entries b).isSome hk
  have hdelete : c.Spoils size b (c.deleteAll keys) := .deleteAll c keys
  have hupto := c.upto_deleteAll keys
  refine ⟨c', ?_, hdelete.trans hspoils, fun n chunks hlists hn => ?_, fun haccepts => ?_⟩
  · have hpos : ¬ (spoilArgs b size k).chunkSize ≤ 0 := by
      show ¬ (size : Int) ≤ 0
      omega
    rw [writeTextChunked, show (spoilArgs b size k).text = .str (letters (k * size)) from rfl]
    dsimp only
    rw [if_neg hpos, run_bind, run_exists?, show (spoilArgs b size k).name = b.val from rfl,
      keyOf_val, map_ok]
    dsimp only
    rw [show (spoilArgs b size k).overwrite = true from rfl, Bool.not_true, Bool.and_false,
      if_neg Bool.false_ne_true, run_bind, hremove]
    exact hrun
  · have hmem : n ∈ keys := by
      obtain ⟨items, hvalue, -⟩ := id hlists
      refine (hkeys n).mpr ⟨?_, chunks, hlists, hn⟩
      rw [value, Option.map_eq_some_iff] at hvalue
      obtain ⟨entry, hentry, -⟩ := hvalue
      rw [hentry, Option.isSome_some]
    apply hspoils.spoiled
    simp [value, deleteAll, hmem, Spoiled]
  · obtain ⟨hchunk, hmanifest⟩ :=
      hspoiled fun j hj => (hupto.acceptsText _).mpr (haccepts j hj)
    exact ⟨hchunk, fun hone hbound hdict => hmanifest hone hbound ((hupto.acceptsDict _).mpr hdict)⟩

end Spoil

/-- A chunked write that touches an entry can make it useless as a part of the text `t`. -/
theorem exists_spoiled_of_touches (hjson : ManifestCodec) (h : c.Touches b n) (t : Str) :
    ∃ size args, letters size ≠ t ∧ args.name = b.val ∧ ∀ self config,
      ∃ c', ((writeTextChunked self config args).run Contents.exec c).2 = c' ∧
        c.Spoils size b c' ∧ Spoiled size b n (c'.value n) ∧
        ∀ s, c'.value n = some (.str s) → t.length < s.length := by
  -- chunks longer than `t`
  have hlong : letters (t.length + 1) ≠ t := by
    intro heq
    have := congrArg length heq
    rw [letters, length_replicate] at this
    omega
  have hlonger : ∀ {v : Option Value}, Spoiled (t.length + 1) b n v → ∀ s, v = some (.str s) →
      t.length < s.length := by
    rintro v hspoiled s rfl
    obtain rfl : s = letters (t.length + 1) := hspoiled
    rw [letters, length_replicate]
    omega
  cases h with
  | chunk i hname haccepts =>
    refine ⟨t.length + 1, spoilArgs b (t.length + 1) (i + 1), hlong, rfl, fun self config => ?_⟩
    obtain ⟨c', hrun, hspoils, -, hspoiled⟩ := writeTextChunked_spoilArgs (c := c) (b := b) hjson
      (Nat.succ_pos t.length) self config (Nat.succ_pos i)
    obtain rfl : n = chunkKey b i := Subtype.ext hname
    have hn := (hspoiled fun j hj => haccepts j (Nat.le_of_lt_succ hj)).1 i (Nat.lt_succ_self i)
    exact ⟨c', hrun, hspoils, hn, hlonger hn⟩
  | manifest hname htext hdict =>
    -- the manifest itself is in the way; one small chunk is enough, if it is not `t`
    obtain ⟨size, hpos, hbound, hne⟩ : ∃ size, 0 < size ∧ size < 2 ^ 63 ∧ letters size ≠ t := by
      by_cases hone : letters 1 = t
      · exact ⟨2, by decide, by decide, by rw [← hone]; decide⟩
      · exact ⟨1, by decide, by decide, hone⟩
    refine ⟨size, spoilArgs b size 1, hne, rfl, fun self config => ?_⟩
    obtain ⟨c', hrun, hspoils, -, hspoiled⟩ :=
      writeTextChunked_spoilArgs (c := c) (b := b) hjson hpos self config Nat.one_pos
    subst hname
    obtain ⟨items, hitems⟩ := (hspoiled fun j hj => by rwa [Nat.lt_one_iff.mp hj]).2 rfl hbound hdict
    refine ⟨c', hrun, hspoils, ?_, ?_⟩
    · rw [hitems]
      rfl
    · intro s hs
      rw [hitems] at hs
      cases hs
  | prior chunks hlists hmem =>
    refine ⟨t.length + 1, spoilArgs b (t.length + 1) 1, hlong, rfl, fun self config => ?_⟩
    obtain ⟨c', hrun, hspoils, hspoiled, -⟩ := writeTextChunked_spoilArgs (c := c) (b := b) hjson
      (Nat.succ_pos t.length) self config Nat.one_pos
    have hn := hspoiled n chunks hlists hmem
    exact ⟨c', hrun, hspoils, hn, hlonger hn⟩

end Write

section Read

variable [Objects]

variable {parts : List Value} {a : Key}

theorem value_mem_readParts {c : Contents} (self : Self) {chunks : List Value}
    (h : c.readParts self chunks = .ok parts) (hn : Value.str n.val ∈ chunks) :
    ∃ value ∈ parts, c.value n = some value := by
  induction chunks generalizing parts with
  | nil => cases hn
  | cons chunk chunks ih =>
    rw [Contents.readParts] at h
    obtain ⟨name, hname, h⟩ := bind_eq_ok.mp h
    obtain ⟨part, hpart, h⟩ := bind_eq_ok.mp h
    obtain ⟨rest, hrest, h⟩ := bind_eq_ok.mp h
    cases h
    rcases mem_cons.mp hn with rfl | hmem
    · cases hname
      refine ⟨part, mem_cons_self, ?_⟩
      exact read_eq_ok_iff.mp hpart
    · obtain ⟨value, hvalue, heq⟩ := ih hrest hmem
      exact ⟨value, mem_cons_of_mem _ hvalue, heq⟩

theorem of_joinParts (h : joinParts parts = .ok t) :
    ∀ part ∈ parts, ∃ s, part = .str s ∧ s.length ≤ t.length := by
  induction parts generalizing t with
  | nil => simp
  | cons part parts ih =>
    cases part with
    | str s =>
      rw [joinParts] at h
      obtain ⟨rest, hrest, h⟩ := bind_eq_ok.mp h
      cases h
      intro part hmem
      rcases mem_cons.mp hmem with rfl | hmem
      · exact ⟨s, rfl, by simp⟩
      · obtain ⟨s', rfl, hle⟩ := ih hrest part hmem
        exact ⟨s', rfl, by rw [length_append]; omega⟩
    | _ => cases h

variable [Runtime]

theorem joinParts_of_assemble {name : Str} {manifest : List (Value × Value)}
    (h : assemble name manifest parts = .ok t) : joinParts parts = .ok t := by
  rw [assemble] at h
  obtain ⟨-, -, h⟩ := bind_eq_ok.mp h
  obtain ⟨-, -, h⟩ := bind_eq_ok.mp h
  obtain ⟨text, htext, h⟩ := bind_eq_ok.mp h
  obtain ⟨-, -, h⟩ := bind_eq_ok.mp h
  cases h
  exact htext

theorem readText_eq_ok {c : Contents} (h : c.readText self a.val = .ok t) :
    c.value a = some (.str t) ∨ ∃ items chunks parts, c.value a = some (.dict items) ∧
      listedChunks items = .ok chunks ∧ c.readParts self chunks = .ok parts ∧
      joinParts parts = .ok t := by
  obtain ⟨value, hread, h⟩ := bind_eq_ok.mp h
  rw [read_eq_ok_iff.mp hread]
  cases value with
  | str s =>
    cases h
    exact .inl rfl
  | dict items =>
    rw [textOf] at h
    split at h
    · obtain ⟨chunks, hchunks, h⟩ := bind_eq_ok.mp h
      obtain ⟨parts, hparts, h⟩ := bind_eq_ok.mp h
      exact .inr ⟨items, chunks, parts, rfl, hchunks, hparts, joinParts_of_assemble h⟩
    · cases h
  | _ => cases h

theorem value_of_reads {c : Contents} (h : c.readText self a.val = .ok t) (hn : c.Reads a n)
    (hne : n ≠ a) : ∃ s, c.value n = some (.str s) ∧ s.length ≤ t.length := by
  obtain ⟨chunks, ⟨items, hdict, -, hlisted⟩, hmem⟩ := hn.resolve_left hne
  rcases readText_eq_ok h with hvalue | ⟨items', chunks', parts, hvalue, hlisted', hparts, hjoin⟩
  · rw [hvalue] at hdict
    cases hdict
  · rw [hvalue] at hdict
    cases hdict
    rw [hlisted] at hlisted'
    cases hlisted'
    obtain ⟨part, hpart, hn⟩ := value_mem_readParts self hparts hmem
    obtain ⟨s, rfl, hle⟩ := of_joinParts hjoin part hpart
    exact ⟨s, hn, hle⟩

theorem readText_ne_of_spoils {c c' : Contents} {b : Key} {size : Nat} (hn : c.Reads a n)
    (hab : a ≠ b) (hsize : letters size ≠ t) (hspoils : c.Spoils size b c')
    (hspoiled : Spoiled size b n (c'.value n))
    (hlong : ∀ s, c'.value n = some (.str s) → t.length < s.length) :
    c'.readText self a.val ≠ .ok t := by
  intro h
  have hkept : ¬ Spoiled size b a (c'.value a) := by
    intro ha
    rcases readText_eq_ok h with hvalue | ⟨items, _, _, hvalue, -⟩
    · rw [hvalue] at ha
      exact hsize ha.symm
    · rw [hvalue] at ha
      exact hab ha
  have heq := (hspoils a).resolve_right hkept
  have hne : n ≠ a := by
    rintro rfl
    exact hkept hspoiled
  have hreads : c'.Reads a n := by
    refine hn.imp_right ?_
    rintro ⟨chunks, ⟨items, hvalue, hrest⟩, hmem⟩
    exact ⟨chunks, ⟨items, by rw [value, heq]; exact hvalue, hrest⟩, hmem⟩
  obtain ⟨s, hs, hle⟩ := value_of_reads h hreads hne
  exact absurd (hlong s hs) (Nat.not_lt.mpr hle)

end Read

section Frame

variable [Runtime] [Objects]

theorem encodable_of_readText {c : Contents} {name : Str} (h : c.readText self name = .ok t) :
    ∃ key : Key, key.val = name := by
  obtain ⟨value, hread, -⟩ := bind_eq_ok.mp h
  obtain ⟨key, hkey, -⟩ := bind_eq_ok.mp hread
  exact ⟨key, keyOf_eq_ok_iff.mp hkey⟩

variable [Scores] {d : Directory}

theorem fst_run_readText (hd : d.Coherent) (self : Self) (name : Str) :
    ((readText self name).run Directory.exec d).1 = d.contents.readText self name := by
  obtain ⟨d', hrun, -, -⟩ := ((uses_readText (N := fun _ => True) self name).simulates hd).exists_run
  have hcontents := run_readText d.contents self name
  exact (congrArg Prod.fst hrun).trans (congrArg Prod.fst hcontents)

theorem contents_writeTextChunked (hd : d.Coherent) (self : Self) (config : RuntimeConfig)
    (args : ChunkedArgs) :
    ((writeTextChunked self config args).run Directory.exec d).2.contents =
      ((writeTextChunked self config args).run Contents.exec d.contents).2 :=
  (congrArg Prod.snd ((uses_writeTextChunked self config args).simulates hd).run_abs).symm

theorem coherent_writeTextChunked (hd : d.Coherent) (self : Self) (config : RuntimeConfig)
    (args : ChunkedArgs) : ((writeTextChunked self config args).run Directory.exec d).2.Coherent :=
  ((uses_writeTextChunked self config args).simulates hd).inv

theorem fst_run_readText_after (hd : d.Coherent) (self : Self) (config : RuntimeConfig)
    (args : ChunkedArgs) (name : Str) :
    ((readText self name).run Directory.exec
        ((writeTextChunked self config args).run Directory.exec d).2).1 =
      ((writeTextChunked self config args).run Contents.exec d.contents).2.readText self name := by
  rw [fst_run_readText (coherent_writeTextChunked hd self config args),
    contents_writeTextChunked hd]

/-- No chunked write under one name changes the text under another, just when the text is read from
no entry that such a write can touch. -/
theorem readText_writeTextChunked_iff (hjson : ManifestCodec) (d : Directory) (hd : d.Coherent)
    (self : Self) (a b : Str) (hab : a ≠ b) (t : Str)
    (ht : ((readText self a).run Directory.exec d).1 = .ok t) :
    (∀ config args, args.name = b →
        ((readText self a).run Directory.exec
          ((writeTextChunked self config args).run Directory.exec d).2).1 = .ok t) ↔
      d.contents.Apart a b := by
  rw [fst_run_readText hd] at ht
  obtain ⟨key, rfl⟩ := encodable_of_readText ht
  simp only [fst_run_readText_after hd]
  constructor
  · rintro hkeep key' key₂ n hkey' rfl hreads htouches
    obtain rfl := Subtype.ext hkey'
    have hne : key' ≠ key₂ := fun h => hab (congrArg Subtype.val h)
    obtain ⟨size, args, hsize, hname, hargs⟩ := exists_spoiled_of_touches hjson htouches t
    obtain ⟨c', hrun, hspoils, hspoiled, hlong⟩ := hargs self ⟨[], false, 0, 0⟩
    have hkept := hkeep ⟨[], false, 0, 0⟩ args hname
    rw [hrun] at hkept
    exact readText_ne_of_spoils hreads hne hsize hspoils hspoiled hlong hkept
  · intro hapart config args hname
    cases hkey : keyOf args.name with
    | error e => rwa [writeTextChunked_of_keyOf_error _ self config hkey]
    | ok key' =>
      have hb := keyOf_eq_ok_iff.mp hkey
      have hupto := upto_writeTextChunked d.contents self config hb.symm
      rw [readText_congr self fun n hn => hupto.entries n
        (hapart key key' n rfl (hb.trans hname) hn)]
      exact ht

end Frame

section Sample

attribute [local instance] sampleRuntime jsonObjects sampleScores

def sampleChunked (name text : String) : ChunkedArgs :=
  ⟨lit name, .str (lit text), 65536, false, none, []⟩

/-- The directory with the text `one` under the name `aca`. -/
def oneSample : Directory :=
  ((writeTextChunked sampleSelf sampleConfig (sampleChunked "aca" "one")).run Directory.exec
    emptySample).2

theorem coherent_oneSample : oneSample.Coherent := coherent_writeTextChunked coherent_emptySample ..

theorem readText_oneSample :
    ((readText sampleSelf (lit "aca")).run Directory.exec oneSample).1 = .ok (lit "one") := by
  decide +kernel

/-- The theorem at the sample, where `bab` is another name. -/
theorem readText_writeTextChunked_sample :
    oneSample.Coherent ∧ lit "aca" ≠ lit "bab" ∧
    ((readText sampleSelf (lit "aca")).run Directory.exec oneSample).1 = .ok (lit "one") ∧
    ((∀ config args, args.name = lit "bab" →
        ((readText sampleSelf (lit "aca")).run Directory.exec
          ((writeTextChunked sampleSelf config args).run Directory.exec oneSample).2).1 =
            .ok (lit "one")) ↔
      oneSample.contents.Apart (lit "aca") (lit "bab")) :=
  ⟨coherent_oneSample, by decide, readText_oneSample,
    readText_writeTextChunked_iff (manifestCodec_json rfl rfl) oneSample coherent_oneSample sampleSelf
      _ _ (by decide) _ readText_oneSample⟩

/-- The names `aca` and `bab` have the same checksum, so the chunk of the second text replaces the chunk
of the first, which can no longer be read. -/
theorem chunk_collision_sample :
    ((readText sampleSelf (lit "aca")).run Directory.exec oneSample).1 = .ok (lit "one") ∧
    ((readText sampleSelf (lit "aca")).run Directory.exec
        ((writeTextChunked sampleSelf sampleConfig (sampleChunked "bab" "two")).run Directory.exec
          oneSample).2).1 =
      .error ⟨.valueError, lit "Chunk checksum mismatch for 'aca'"⟩ := by
  decide +kernel

end Sample

end FileSystem
