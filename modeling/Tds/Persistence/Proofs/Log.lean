import Tds.FileSystem.Proofs.Frame
import Tds.Persistence.Log
import Tds.Persistence.Proofs.Format

/-!
# What a log restores

A record is found again wherever it is whole, and nothing is found in a part of one. So a replay of any
initial part of a log writes the records that are whole there, in their order, up to the first that the
directory refuses. What it writes is what was logged (`replayedValue_iff_recoded`), unless a payload was
compressed with a codec that the default one does not undo: the log does not say which codec that was.
-/

namespace Persistence

open Python Process FileSystem Framing List Prog Function Directory Contents Directory

/-! ## Frames -/

variable {raw : Bytes} {size : Nat}

section Octets

theorem sliceBytes_append {before middle after : Bytes} {start stop : Nat}
    (hstart : before.length = start) (hstop : start + middle.length = stop) :
    sliceBytes (before ++ (middle ++ after)) start stop = middle := by
  subst hstart hstop
  rw [sliceBytes, take_length_add_append, drop_left, take_left]

theorem unpackUInt_take {offset width : Nat} (h : offset + width ≤ size) :
    unpackUInt (raw.take size) offset width = unpackUInt raw offset width := by
  rw [unpackUInt, unpackUInt, drop_take, take_take, Nat.min_eq_left (by omega)]

theorem guard_bind {α : Type} {p : Prop} [Decidable p] (h : p) (x : Option α) :
    (guard p >>= fun _ => x) = x := by
  simp [guard, h]

theorem unpackField_eq_some {offset width n : Nat} :
    unpackField raw offset width = some n ↔
      offset + width ≤ raw.length ∧ unpackUInt raw offset width = n := by
  unfold unpackField
  split <;> simp [*]

end Octets

namespace LogRecord

structure Fits (record : LogRecord) : Prop where
  name : record.name.all isScalar = true
  nameLen : (utf8 record.name).length < 256 ^ 4
  fmtId : record.fmtId < 256 ^ 4
  tsWritten : record.tsWritten < 256 ^ 8
  dataLen : record.data.length < 256 ^ 4

def body (record : LogRecord) : Bytes :=
  logMagic ++ beBytes 4 (utf8 record.name).length ++ beBytes 4 record.fmtId ++ utf8 record.name ++
    beBytes 8 record.tsWritten ++ beBytes 4 record.data.length ++ record.data

def octets (record : LogRecord) : Bytes :=
  record.body ++ beBytes 4 (crc32 record.body).toNat

variable {record : LogRecord}

theorem length_body : record.body.length = 24 + (utf8 record.name).length + record.data.length := by
  simp only [body, length_append, length_beBytes, logMagic, length_cons, length_nil]
  omega

theorem length_octets :
    record.octets.length = 28 + (utf8 record.name).length + record.data.length := by
  rw [octets, length_append, length_body, length_beBytes]
  omega

/-! ## The fields of a record, whatever follows it -/

variable (rest : Bytes)

theorem take_octets : (record.octets ++ rest).take 4 = logMagic := by
  simp only [octets, body, append_assoc]
  exact take_left' rfl

theorem unpackUInt_nameLen (h : record.Fits) :
    unpackUInt (record.octets ++ rest) 4 4 = (utf8 record.name).length := by
  simp only [octets, body, append_assoc]
  exact unpackUInt_append rfl h.nameLen

theorem unpackUInt_fmtId (h : record.Fits) :
    unpackUInt (record.octets ++ rest) 8 4 = record.fmtId := by
  simp only [octets, body, append_assoc]
  rw [← append_assoc logMagic]
  exact unpackUInt_append (by simp [logMagic]) h.fmtId

theorem sliceBytes_name :
    sliceBytes (record.octets ++ rest) 12 (12 + (utf8 record.name).length) = utf8 record.name := by
  simp only [octets, body, append_assoc]
  rw [← append_assoc (beBytes 4 _), ← append_assoc logMagic]
  exact sliceBytes_append (by simp [logMagic]) rfl

/-- The octets up to the name. -/
def front (record : LogRecord) : Bytes :=
  logMagic ++ (beBytes 4 (utf8 record.name).length ++ (beBytes 4 record.fmtId ++ utf8 record.name))

theorem length_front : record.front.length = 12 + (utf8 record.name).length := by
  simp [front, logMagic]
  omega

theorem octets_append : record.octets ++ rest = record.front ++ (beBytes 8 record.tsWritten ++
    (beBytes 4 record.data.length ++ (record.data ++ (beBytes 4 (crc32 record.body).toNat ++ rest)))) := by
  simp only [octets, body, front, append_assoc]

theorem unpackUInt_tsWritten (h : record.Fits) :
    unpackUInt (record.octets ++ rest) (12 + (utf8 record.name).length) 8 = record.tsWritten := by
  rw [octets_append]
  exact unpackUInt_append length_front h.tsWritten

theorem unpackUInt_dataLen (h : record.Fits) :
    unpackUInt (record.octets ++ rest) (12 + (utf8 record.name).length + 8) 4 =
      record.data.length := by
  rw [octets_append, ← append_assoc]
  exact unpackUInt_append (by simp [length_front]) h.dataLen

theorem sliceBytes_data :
    sliceBytes (record.octets ++ rest) (12 + (utf8 record.name).length + 8 + 4)
      (12 + (utf8 record.name).length + 8 + 4 + record.data.length) = record.data := by
  rw [octets_append, ← append_assoc, ← append_assoc]
  exact sliceBytes_append (by simp [length_front]) rfl

theorem unpackUInt_crc :
    unpackUInt (record.octets ++ rest)
      (12 + (utf8 record.name).length + 8 + 4 + record.data.length) 4 = (crc32 record.body).toNat := by
  rw [octets, append_assoc]
  refine unpackUInt_append ?_ (crc32 record.body).toNat_lt
  rw [length_body]
  omega

theorem take_body :
    (record.octets ++ rest).take (12 + (utf8 record.name).length + 8 + 4 + record.data.length + 4 - 4) =
      record.body := by
  rw [octets, append_assoc]
  refine take_left' ?_
  rw [length_body]
  omega

theorem parseRecord_octets (h : record.Fits) :
    parseRecord (record.octets ++ rest) = some (record, record.octets.length) := by
  have hlength : (record.octets ++ rest).length =
      28 + (utf8 record.name).length + record.data.length + rest.length := by
    rw [length_append, length_octets]
  have hts := unpackField_eq_some.mpr ⟨by rw [hlength]; omega, unpackUInt_tsWritten rest h⟩
  have hdataLen := unpackField_eq_some.mpr ⟨by rw [hlength]; omega, unpackUInt_dataLen rest h⟩
  have hcrc := unpackField_eq_some.mpr ⟨by rw [hlength]; omega, @unpackUInt_crc record rest⟩
  rw [parseRecord, guard_bind (by rw [hlength, recordHeaderSize]; omega), guard_bind (take_octets rest)]
  dsimp only [recordHeaderSize]
  rw [unpackUInt_nameLen rest h, unpackUInt_fmtId rest h, sliceBytes_name,
    show decodeUtf8 (utf8 record.name) = some record.name from decodeUtf8_flatMap h.name]
  simp only [Option.bind_eq_bind, Option.bind_some]
  rw [hts, Option.bind_some, hdataLen, Option.bind_some, hcrc, Option.bind_some, take_body,
    sliceBytes_data]
  refine (guard_bind rfl _).trans ?_
  have hsize : 12 + (utf8 record.name).length + 8 + 4 + record.data.length + 4 =
      record.octets.length := by
    rw [length_octets]
    omega
  rw [hsize]
  rfl

/-- Where a record is found there are all the octets that its two length fields ask for. -/
theorem of_parseRecord (h : parseRecord raw = some (record, size)) :
    12 ≤ raw.length ∧ 12 + unpackUInt raw 4 4 + 8 + 4 ≤ raw.length ∧
      28 + unpackUInt raw 4 4 + unpackUInt raw (12 + unpackUInt raw 4 4 + 8) 4 ≤ raw.length := by
  simp only [parseRecord, Option.bind_eq_bind, Option.bind_eq_some_iff, unpackField_eq_some,
    recordHeaderSize] at h
  obtain ⟨-, -, -, -, -, -, -, -, n, ⟨hdata, rfl⟩, -, ⟨hcrc, -⟩, -⟩ := h
  refine ⟨?_, ?_, ?_⟩ <;> omega

theorem parseRecord_take (h : record.Fits) (hsize : size < record.octets.length) :
    parseRecord (record.octets.take size) = none := by
  rw [Option.eq_none_iff_forall_not_mem]
  rintro ⟨found, next⟩ hfound
  obtain ⟨hheader, hlengths, hall⟩ := of_parseRecord hfound
  have hlen : (record.octets.take size).length = size := length_take_of_le (Nat.le_of_lt hsize)
  rw [hlen] at hheader hlengths hall
  -- the two length fields are there, so they are those of the whole record
  have hnameLen : unpackUInt (record.octets.take size) 4 4 = (utf8 record.name).length := by
    rw [unpackUInt_take (by omega), ← unpackUInt_nameLen [] h, append_nil]
  rw [hnameLen] at hlengths hall
  have hdataLen : unpackUInt (record.octets.take size) (12 + (utf8 record.name).length + 8) 4 =
      record.data.length := by
    rw [unpackUInt_take (by omega), ← unpackUInt_dataLen [] h, append_nil]
  rw [hdataLen] at hall
  rw [length_octets] at hsize
  omega

end LogRecord

theorem frames_parseRecord :
    Frames parseRecord fun record raw => record.Fits ∧ raw = record.octets where
  whole record _ rest := by
    rintro ⟨hfits, rfl⟩
    exact LogRecord.parseRecord_octets rest hfits
  torn record _ size := by
    rintro ⟨hfits, rfl⟩ hsize
    exact LogRecord.parseRecord_take hfits hsize
  empty := rfl

section Log

variable [Objects]

variable {entries : List Entry} {entry : Entry} {config : RuntimeConfig} {records : List Bytes}
  {args : WriteArgs} {c c' : Contents}

theorem append_eq_ok {tsWritten : Nat} (h : append entry tsWritten = .ok raw) :
    ∃ data, serializeEntry entry = .ok data ∧
      (⟨entry.name, entry.fmtId, tsWritten, data⟩ : LogRecord).Fits ∧
      raw = (⟨entry.name, entry.fmtId, tsWritten, data⟩ : LogRecord).octets := by
  simp only [append, bind_eq_ok, encodeText_eq_ok, packUInt_eq_ok] at h
  obtain ⟨_, ⟨hname, rfl⟩, data, hdata, _, ⟨hts, rfl⟩, _, ⟨hnameLen, rfl⟩, _, ⟨hfmtId, rfl⟩, _,
    ⟨hdataLen, rfl⟩, hraw⟩ := h
  exact ⟨data, hdata, ⟨hname, hnameLen, hfmtId, hts, hdataLen⟩, (Except.ok.inj hraw).symm⟩

variable [Results]

theorem args_eq_replayArgs {data : Bytes} (h : serializeEntry entry = .ok data) (tsWritten : Nat) :
    (⟨entry.name, entry.fmtId, tsWritten, data⟩ : LogRecord).args = replayArgs entry := by
  rw [replayArgs, h, LogRecord.args]

theorem Appended.exists_records (h : Appended entries records) :
    ∃ items : List LogRecord,
      List.Forall₂ (fun record raw => record.Fits ∧ raw = record.octets) items records ∧
      items.map LogRecord.args = entries.map replayArgs := by
  induction h with
  | nil => exact ⟨[], .nil, rfl⟩
  | cons hfirst _ ih =>
    obtain ⟨items, hitems, hargs⟩ := ih
    obtain ⟨tsWritten, hfirst⟩ := hfirst
    obtain ⟨data, hdata, hfits, rfl⟩ := append_eq_ok hfirst
    refine ⟨_ :: items, .cons ⟨hfits, rfl⟩ hitems, ?_⟩
    rw [map_cons, map_cons, hargs, args_eq_replayArgs hdata]

omit [Results] in
theorem Appended.exists_data (h : Appended entries records) (hentry : entry ∈ entries) :
    ∃ data, serializeEntry entry = .ok data := by
  obtain ⟨i, hi, rfl⟩ := getElem_of_mem hentry
  obtain ⟨tsWritten, happend⟩ := (forall₂_iff_get.mp h).2 i hi (h.length_eq ▸ hi)
  obtain ⟨data, hdata, -⟩ := append_eq_ok happend
  exact ⟨data, hdata⟩

theorem value_replayArgs (h : Undone entry) {data : Bytes} {value : Value}
    (hdata : serializeEntry entry = .ok data)
    (hraw : serializePayload entry.data entry.fmtId = .ok raw)
    (hvalue : deserialize raw (baseFmt entry.fmtId) = .ok value) :
    (replayArgs entry).value = value := by
  rw [replayArgs, hdata]
  rw [serializeEntry, hraw, ok_bind] at hdata
  dsimp only
  rw [decodePayload, plainPayload]
  by_cases hcompressed : isCompressed entry.fmtId = true
  · rw [if_pos hcompressed] at hdata
    rw [if_pos hcompressed, h hcompressed raw data hdata]
    dsimp only
    rw [hvalue]
  · rw [if_neg hcompressed] at hdata
    cases hdata
    rw [if_neg hcompressed]
    dsimp only
    rw [hvalue]

variable [Runtime]

/-- A loop of `replay` makes the writes of the records that it finds, up to the first that raises. -/
theorem run_replayFrom {σ : Type} (exec : (op : Op) → σ → op.Answer × σ) (config : RuntimeConfig)
    (fuel : Nat) (raw : Bytes) (replayed : Nat) (s : σ) :
    ∃ n ≤ (scan parseRecord fuel raw).length,
      (replayFrom config fuel raw replayed).run exec s = (.ok (replayed + n),
        ((writeAll config ((scan parseRecord fuel raw).map LogRecord.args)).run exec s).2) ∧
      ((writeAll config (((scan parseRecord fuel raw).map LogRecord.args).take n)).run exec s).1 =
        .ok () ∧
      (n < (scan parseRecord fuel raw).length → ∃ error, ((writeAll config
        (((scan parseRecord fuel raw).map LogRecord.args).take (n + 1))).run exec s).1 = .error error) ∧
      (n = (scan parseRecord fuel raw).length ↔
        ((writeAll config ((scan parseRecord fuel raw).map LogRecord.args)).run exec s).1 = .ok ()) := by
  induction fuel generalizing raw replayed s with
  | zero => exact ⟨0, Nat.le_refl 0, rfl, rfl, fun h => absurd h (Nat.lt_irrefl 0), iff_of_true rfl rfl⟩
  | succ fuel ih =>
    rw [replayFrom, scan]
    cases hparse : parseRecord raw with
    | none => exact ⟨0, Nat.le_refl 0, rfl, rfl, fun h => absurd h (Nat.lt_irrefl 0), iff_of_true rfl rfl⟩
    | some found =>
      obtain ⟨record, size⟩ := found
      dsimp only
      rw [run_bind, run_tryExcept, map_cons, writeAll, run_bind]
      rcases hwrite : (writeEntry config record.args).run exec s with ⟨result, s'⟩
      cases result with
      | error e =>
        refine ⟨0, Nat.zero_le _, rfl, rfl, fun _ => ⟨e, ?_⟩, iff_of_false (Nat.succ_ne_zero _).symm ?_⟩
        · rw [take_succ_cons, writeAll, run_bind, hwrite]
        · intro h
          cases h
      | ok entry =>
        obtain ⟨n, hn, hrun, htake, hnext, hall⟩ := ih (raw.drop size) (replayed + 1) s'
        dsimp only
        refine ⟨n + 1, Nat.succ_le_succ hn, ?_, ?_, fun hlt => ?_, ?_⟩
        · rw [hrun, Nat.add_right_comm, Nat.add_assoc]
        · rw [take_succ_cons, writeAll, run_bind, hwrite]
          exact htake
        · rw [take_succ_cons, writeAll, run_bind, hwrite]
          exact hnext (Nat.lt_of_succ_lt_succ hlt)
        · rw [length_cons, Nat.add_right_cancel_iff]
          exact hall

/-- A replay of an initial part of a log makes the writes of the entries whose records are whole there. -/
theorem run_replay_take {σ : Type} (exec : (op : Op) → σ → op.Answer × σ) (config : RuntimeConfig)
    (h : Appended entries records) (size : Nat) (s : σ) :
    ∃ n ≤ wholeRecords records size,
      (replay config (records.flatten.take size)).run exec s = (.ok n, ((writeAll config
        ((entries.take (wholeRecords records size)).map replayArgs)).run exec s).2) ∧
      ((writeAll config ((entries.take n).map replayArgs)).run exec s).1 = .ok () ∧
      (n < wholeRecords records size → ∃ error,
        ((writeAll config ((entries.take (n + 1)).map replayArgs)).run exec s).1 = .error error) ∧
      (n = wholeRecords records size ↔ ((writeAll config
        ((entries.take (wholeRecords records size)).map replayArgs)).run exec s).1 = .ok ()) := by
  obtain ⟨items, hitems, hargs⟩ := h.exists_records
  have hscan := frames_parseRecord.scan_take hitems size (Nat.le_refl _)
  obtain ⟨n, hn, hrun, htake, hnext, hall⟩ := run_replayFrom exec config
    (records.flatten.take size).length (records.flatten.take size) 0 s
  rw [hscan] at hn hrun htake hnext hall
  have hlength : (items.take (wholeRecords records size)).length = wholeRecords records size := by
    rw [length_take, hitems.length_eq, Nat.min_eq_left (wholeRecords_le records size)]
  rw [hlength] at hn hnext hall
  rw [map_take, hargs, ← map_take] at hrun htake hnext hall
  rw [Nat.zero_add] at hrun
  rw [← map_take, take_take, Nat.min_eq_left hn] at htake
  refine ⟨n, hn, hrun, htake, fun hlt => ?_, hall⟩
  have herror := hnext hlt
  rw [← map_take, take_take, Nat.min_eq_left hlt] at herror
  exact herror

variable [Scores]

/-- A replay of an initial part of a log writes the records that are whole there, in their order, up to
the first that the directory refuses, and returns their number: the writes of so many entries succeed, and
where there are more whole records the next write raises. -/
theorem replay_take (d : Directory) (config : RuntimeConfig) (entries : List Entry)
    (records : List Bytes) (happended : Appended entries records)
    (hcodec : ∀ entry ∈ entries, Undone entry) (size : Nat) :
    (∃ n ≤ wholeRecords records size,
      (replay config (records.flatten.take size)).run Directory.exec d = (.ok n, ((writeAll config
        ((entries.take (wholeRecords records size)).map replayArgs)).run Directory.exec d).2) ∧
      ((writeAll config ((entries.take n).map replayArgs)).run Directory.exec d).1 = .ok () ∧
      (n < wholeRecords records size → ∃ error,
        ((writeAll config ((entries.take (n + 1)).map replayArgs)).run Directory.exec d).1 =
          .error error) ∧
      (n = wholeRecords records size ↔ ((writeAll config
        ((entries.take (wholeRecords records size)).map replayArgs)).run Directory.exec d).1 =
          .ok ())) ∧
    ∀ entry ∈ entries, ∀ raw value, serializePayload entry.data entry.fmtId = .ok raw →
      deserialize raw (baseFmt entry.fmtId) = .ok value →
      replayArgs entry = ⟨entry.name, value, baseFmt entry.fmtId, some (isCompressed entry.fmtId), []⟩ := by
  refine ⟨run_replay_take Directory.exec config happended size d, ?_⟩
  intro entry hentry raw value hraw hvalue
  obtain ⟨data, hdata⟩ := happended.exists_data hentry
  rw [← value_replayArgs (hcodec entry hentry) hdata hraw hvalue]
  rfl

/-! ## What is restored -/

omit [Results] [Scores] in
theorem makeEntry_congr_policy (config : RuntimeConfig) (policy policy' : CompressionPolicy)
    {b : Bool} (h : args.compress = some b) :
    makeEntry config policy args = makeEntry config policy' args := by
  simp only [makeEntry, h, CompressionPolicy.shouldCompress]

omit [Results] [Scores] in
theorem run_writeEntry_ok (h : (writeEntry config args).run Contents.exec c = (.ok entry, c')) :
    ∃ key : Key, key.val = entry.name ∧ c'.value = update c.value key (some entry.data) ∧
      c'.schemas = c.schemas ∧
      makeEntry config (c.renew config).compressionPolicy args = .ok entry := by
  rw [run_writeEntry] at h
  cases hvalid : c.validate args.name args.value with
  | error e =>
    rw [hvalid] at h
    cases h
  | ok _ =>
    rw [hvalid] at h
    dsimp only at h
    cases hprepare : c.prepare config args with
    | error e =>
      rw [hprepare] at h
      cases h
    | ok item =>
      obtain ⟨key, made⟩ := item
      rw [hprepare] at h
      cases h
      simp only [prepare, bind_eq_ok] at hprepare
      obtain ⟨entry', hmake, key', hkey, hitem⟩ := hprepare
      cases hitem
      obtain ⟨-, -, -, hname, -⟩ := of_makeEntry hmake
      refine ⟨key, (keyOf_eq_ok_iff.mp hkey).trans hname.symm, ?_,
        (c.upto_renew (P := fun _ => True) config).schemas, hmake⟩
      funext n
      rw [value, put]
      dsimp only
      rw [entries_renew, update_apply, update_apply]
      split <;> rfl

omit [Scores] in
theorem run_writeEntry_replayArgs {t : Contents} (hschemas : t.schemas = [])
    (config : RuntimeConfig) {key : Key} (hkey : key.val = entry.name) (value : Value) :
    (∃ entry' t', (writeEntry config (replayArgs entry)).run Contents.exec t = (.ok entry', t') ∧
      entry'.data = value) ↔ replayedValue config entry = .ok value := by
  have hvalid : t.validate (replayArgs entry).name (replayArgs entry).value = .ok () := by
    rw [Contents.validate, hschemas]
    rfl
  have hname : keyOf (replayArgs entry).name = .ok key := keyOf_eq_ok_iff.mpr hkey
  rw [run_writeEntry, hvalid, replayedValue,
    makeEntry_congr_policy config config.policy (t.renew config).compressionPolicy rfl]
  dsimp only
  rw [prepare]
  cases makeEntry config (t.renew config).compressionPolicy (replayArgs entry) with
  | error e => exact iff_of_false (by rintro ⟨_, _, h, -⟩; cases h) (by intro h; cases h)
  | ok made =>
    rw [ok_bind, hname, ok_bind]
    dsimp only [Except.map, pure, Except.pure]
    constructor
    · rintro ⟨entry', t', h, rfl⟩
      cases h
      rfl
    · intro h
      exact ⟨made, _, rfl, Except.ok.inj h⟩

omit [Results] [Runtime] [Scores] in
theorem loadsText_dumpsText : ReadsBack loadsText dumpsText := by
  intro raw value out hload hdump
  unfold loadsText at hload
  split at hload
  · next s hs =>
    cases hload
    unfold dumpsText at hdump
    dsimp only at hdump
    split at hdump
    · next hencode =>
      cases hdump
      rw [loadsText, decodeUtf8_of_encodeUtf8 hencode]
    · cases hdump
  · cases hload

omit [Results] [Runtime] [Scores] in
theorem readsBack_deserialize (h : Codecs) (fmt : Nat) :
    ReadsBack (deserialize · fmt) (serialize · fmt) := by
  intro raw value out hload hdump
  simp only [deserialize, serialize] at hload hdump ⊢
  split_ifs at hload hdump ⊢
  · cases hload
    cases hdump
    rfl
  · exact h.numpy raw value out hload hdump
  · exact loadsText_dumpsText raw value out hload hdump
  · exact h.json raw value out hload hdump
  · exact h.pickle raw value out hload hdump

omit [Scores] in
/-- What a replay stores is what the format's codec reads of the payload that it writes again. -/
theorem replayedValue_eq_ok {value : Value} : replayedValue config entry = .ok value ↔
    ∃ raw, serialize (replayArgs entry).value (baseFmt entry.fmtId) = .ok raw ∧
      (isCompressed entry.fmtId = true → ∃ again, Objects.compress config.compression raw = .ok again) ∧
      deserialize raw (baseFmt entry.fmtId) = .ok value := by
  have hbase : baseFmt (replayArgs entry).fmtId = baseFmt entry.fmtId := baseFmt_baseFmt entry.fmtId
  rw [replayedValue, map_eq_ok]
  simp only [makeEntry, bind_eq_ok, serializePayload, hbase, baseFmt_baseFmt]
  constructor
  · rintro ⟨made, ⟨raw, hraw, h⟩, rfl⟩
    refine ⟨raw, hraw, ?_⟩
    split at h
    · simp only [bind_eq_ok, freeze_eq_ok] at h
      obtain ⟨stored, hstored, frozen, hfrozen, h⟩ := h
      cases h
      exact ⟨fun _ => ⟨stored, hstored⟩, hfrozen⟩
    · next hplain =>
      simp only [bind_eq_ok, freeze_eq_ok] at h
      obtain ⟨stored, -, frozen, hfrozen, h⟩ := h
      cases h
      exact ⟨fun hcompressed => absurd hcompressed hplain, hfrozen⟩
  · rintro ⟨raw, hraw, hagain, hload⟩
    have hfrozen := freeze_eq_ok.mpr hload
    by_cases hcompressed : isCompressed entry.fmtId = true
    · obtain ⟨again, hagain⟩ := hagain hcompressed
      have hdo : config.policy.shouldCompress raw.length (replayArgs entry).compress = true := hcompressed
      have hcodec : (replayArgs entry).codec = [] := rfl
      refine ⟨?made, ⟨raw, hraw, ?eq⟩, ?data⟩
      case eq =>
        rw [if_pos hdo, if_pos hcodec, hagain, ok_bind, hfrozen, ok_bind]
        rfl
      case data => rfl
    · have hdo : ¬ config.policy.shouldCompress raw.length (replayArgs entry).compress = true := hcompressed
      refine ⟨?plain, ⟨raw, hraw, ?eq⟩, ?data⟩
      case eq =>
        rw [if_neg hdo, pure_eq_ok, ok_bind, hfrozen, ok_bind]
        rfl
      case data => rfl

omit [Scores] in
/-- A replay stores the value just when the payload decodes to it and can be compressed again. -/
theorem replayedValue_iff_plain (hcodecs : Codecs) (hreport : NoReport entry) {loaded data raw : Bytes}
    (hloaded : deserialize loaded (baseFmt entry.fmtId) = .ok entry.data)
    (hdata : serializeEntry entry = .ok data) (hraw : serializePayload entry.data entry.fmtId = .ok raw) :
    replayedValue config entry = .ok entry.data ↔
      (∃ plain, plainPayload data entry.fmtId [] = some plain ∧
        deserialize plain (baseFmt entry.fmtId) = .ok entry.data) ∧
      (isCompressed entry.fmtId = true → ∃ again, Objects.compress config.compression raw = .ok again) := by
  have hvalue : (replayArgs entry).value = decodePayload data entry.fmtId := by
    rw [replayArgs, hdata]
  have hback := readsBack_deserialize hcodecs (baseFmt entry.fmtId)
  rw [replayedValue_eq_ok, hvalue, decodePayload]
  constructor
  · rintro ⟨out, hout, hagain, hload⟩
    cases hpayload : plainPayload data entry.fmtId [] with
    | none =>
      rw [hpayload] at hout
      exact absurd hload (hreport data out hout)
    | some plain =>
      rw [hpayload] at hout
      dsimp only at hout
      cases hvalue : deserialize plain (baseFmt entry.fmtId) with
      | error e =>
        rw [hvalue] at hout
        exact absurd hload (hreport data out hout)
      | ok value =>
        rw [hvalue] at hout
        -- the codec reads back what it read, so this is the value of the entry
        obtain rfl : value = entry.data :=
          Except.ok.inj ((hback plain value out hvalue hout).symm.trans hload)
        obtain rfl : out = raw := Except.ok.inj (hout.symm.trans hraw)
        exact ⟨⟨plain, rfl, hvalue⟩, hagain⟩
  · rintro ⟨⟨plain, hpayload, hload⟩, hagain⟩
    rw [hpayload]
    dsimp only
    rw [hload]
    exact ⟨raw, hraw, hagain, hback loaded entry.data raw hloaded hraw⟩

omit [Scores] in
/-- An entry is replayed as it is where its format reads back what it writes and the payload in the log
is undone by the default codec. -/
theorem replayedValue_iff_recoded (hcodecs : Codecs) (hreport : NoReport entry)
    (hloaded : ∃ raw, deserialize raw (baseFmt entry.fmtId) = .ok entry.data)
    (hdata : ∃ data, serializeEntry entry = .ok data) :
    replayedValue config entry = .ok entry.data ↔ Recoded config entry := by
  obtain ⟨loaded, hloaded⟩ := hloaded
  obtain ⟨data, hserialized⟩ := hdata
  obtain ⟨raw, hraw, hdata⟩ := bind_eq_ok.mp hserialized
  have hread := readsBack_deserialize hcodecs _ loaded entry.data raw hloaded hraw
  rw [replayedValue_iff_plain hcodecs hreport hloaded hserialized hraw]
  by_cases hcompressed : isCompressed entry.fmtId = true
  · rw [if_pos hcompressed] at hdata
    simp only [Recoded, hcompressed, forall_const, plainPayload, if_true]
    constructor
    · rintro ⟨⟨plain, hpayload, hload⟩, hagain⟩ raw' stored hraw' hstored
      obtain rfl : raw' = raw := Except.ok.inj (hraw'.symm.trans hraw)
      obtain rfl : stored = data := Except.ok.inj (hstored.symm.trans hdata)
      refine ⟨⟨plain, ?_, hload⟩, hagain⟩
      cases hplain : Objects.decompress [] stored with
      | error e =>
        rw [hplain] at hpayload
        cases hpayload
      | ok plain' =>
        rw [hplain] at hpayload
        rw [Option.some.inj hpayload]
    · intro h
      obtain ⟨⟨plain, hpayload, hload⟩, hagain⟩ := h raw data hraw hdata
      exact ⟨⟨plain, by rw [hpayload], hload⟩, hagain⟩
  · rw [if_neg hcompressed] at hdata
    cases hdata
    refine iff_of_true ⟨⟨data, if_neg hcompressed, hread⟩, fun h => absurd h hcompressed⟩ ?_
    exact fun h => absurd h hcompressed

variable {writes : List (RuntimeConfig × WriteArgs)}

omit [Results] [Scores] in
theorem run_writeEach_cons
    (h : (writeEach ((config, args) :: writes)).run Contents.exec c = (.ok entries, c')) :
    ∃ entry c₁ rest, (writeEntry config args).run Contents.exec c = (.ok entry, c₁) ∧
      (writeEach writes).run Contents.exec c₁ = (.ok rest, c') ∧ entries = entry :: rest := by
  simp only [writeEach, run_bind_eq_ok] at h
  obtain ⟨entry, c₁, hwrite, rest, c₂, hrest, hdone⟩ := h
  cases hdone
  exact ⟨entry, c₁, rest, hwrite, hrest, rfl⟩

omit [Results] [Scores] in
/-- The value of an entry that was written is one that its format's codec read. -/
theorem loaded_of_writeEach (h : (writeEach writes).run Contents.exec c = (.ok entries, c')) :
    ∀ entry ∈ entries, ∃ raw, deserialize raw (baseFmt entry.fmtId) = .ok entry.data := by
  induction writes generalizing entries c with
  | nil =>
    cases h
    simp
  | cons write writes ih =>
    obtain ⟨entry, c₁, rest, hwrite, hrest, rfl⟩ := run_writeEach_cons h
    obtain ⟨_, _, _, _, hmake⟩ := run_writeEntry_ok hwrite
    obtain ⟨raw, -, hload, -, -, hfmt⟩ := of_makeEntry hmake
    exact forall_mem_cons.mpr ⟨⟨raw, by rw [hfmt, hload]⟩, ih hrest⟩

omit [Scores] in
/-- Each initial part of the writes is restored by a replay just when each entry is replayed as it is. -/
theorem restored_iff {t : Contents}
    (hvalues : t.value = c.value) (hschemas : t.schemas = [])
    (hrun : (writeEach writes).run Contents.exec c = (.ok entries, c')) :
    (∀ k ≤ entries.length, ∃ t', (writeAll config ((entries.take k).map replayArgs)).run
        Contents.exec t = (.ok (), t') ∧
        t'.value = ((writeEach (writes.take k)).run Contents.exec c).2.value) ↔
      ∀ entry ∈ entries, replayedValue config entry = .ok entry.data := by
  induction writes generalizing entries c t with
  | nil =>
    cases hrun
    refine iff_of_true (fun k _ => ?_) (by simp)
    rw [take_nil, take_nil]
    exact ⟨t, rfl, hvalues⟩
  | cons write writes ih =>
    obtain ⟨config₁, args⟩ := write
    obtain ⟨entry, c₁, rest, hwrite, hrest, rfl⟩ := run_writeEach_cons hrun
    obtain ⟨key, hkey, hset, -, -⟩ := run_writeEntry_ok hwrite
    -- what a replay of the first entry, if it is one, leaves for the others
    have hstep : ∀ entry' t₁, (writeEntry config (replayArgs entry)).run exec t = (.ok entry', t₁) →
        t₁.value = update c.value key (some entry'.data) ∧ t₁.schemas = [] := by
      intro entry' t₁ hwrite'
      obtain ⟨key', hkey', hset', hschemas', hmake⟩ := run_writeEntry_ok hwrite'
      obtain ⟨-, -, -, hname, -⟩ := of_makeEntry hmake
      obtain rfl : key' = key := Subtype.ext (hkey'.trans (hname.trans hkey.symm))
      exact ⟨by rw [hset', hvalues], hschemas'.trans hschemas⟩
    have htake : ∀ k, (writeEach (((config₁, args) :: writes).take (k + 1))).run exec c =
        (((writeEach (writes.take k)).run exec c₁).1.map (entry :: ·),
          ((writeEach (writes.take k)).run exec c₁).2) := by
      intro k
      rw [take_succ_cons, writeEach, run_bind, hwrite]
      dsimp only
      rw [run_bind]
      rcases (writeEach (writes.take k)).run exec c₁ with ⟨_ | _, _⟩ <;> rfl
    have hcons : ∀ k t', (writeAll config (((entry :: rest).take (k + 1)).map replayArgs)).run
        exec t = (.ok (), t') ↔ ∃ entry' t₁,
          (writeEntry config (replayArgs entry)).run exec t = (.ok entry', t₁) ∧
          (writeAll config ((rest.take k).map replayArgs)).run exec t₁ = (.ok (), t') := by
      intro k t'
      rw [take_succ_cons, map_cons, writeAll, run_bind_eq_ok]
    rw [forall_mem_cons, ← run_writeEntry_replayArgs hschemas config hkey]
    constructor
    · intro h
      obtain ⟨t₁, hall, hvalue⟩ := h 1 (Nat.succ_le_succ (Nat.zero_le _))
      obtain ⟨entry', t₂, hwrite', hnone⟩ := (hcons 0 t₁).mp hall
      cases hnone
      obtain ⟨hset', hschemas'⟩ := hstep entry' t₁ hwrite'
      have hsame : t₁.value = c₁.value := by
        rw [hvalue, htake]
        rfl
      have hdata : entry'.data = entry.data := by
        have hat := congrFun (hset'.symm.trans (hsame.trans hset)) key
        rw [update_self, update_self] at hat
        exact Option.some.inj hat
      refine ⟨⟨entry', t₁, hwrite', hdata⟩, (ih hsame hschemas' hrest).mp fun k hk => ?_⟩
      obtain ⟨t', hall, hvalue⟩ := h (k + 1) (Nat.succ_le_succ hk)
      obtain ⟨entry'', t₃, hwrite'', hrun'⟩ := (hcons k t').mp hall
      rw [hwrite'] at hwrite''
      cases hwrite''
      exact ⟨t', hrun', by rw [hvalue, htake]⟩
    · rintro ⟨⟨entry', t₁, hwrite', hdata⟩, hentries⟩ k hk
      obtain ⟨hset', hschemas'⟩ := hstep entry' t₁ hwrite'
      have hsame : t₁.value = c₁.value := by rw [hset', hset, hdata]
      cases k with
      | zero => exact ⟨t, rfl, hvalues⟩
      | succ k =>
        obtain ⟨t', hrun', hvalue⟩ := (ih hsame hschemas' hrest).mpr hentries k (Nat.le_of_succ_le_succ hk)
        exact ⟨t', (hcons k t').mpr ⟨entry', t₁, hwrite', hrun'⟩, by rw [hvalue, htake]⟩

/-! ## On directories -/

variable {d : Directory}

omit [Results] in
theorem simulates_writeAll (hd : d.Coherent) (config : RuntimeConfig) (writes : List WriteArgs) :
    (writeAll config writes).Simulates abstraction d := by
  induction writes generalizing d with
  | nil => exact .done _ hd
  | cons args rest ih => exact (simulates_writeEntry hd config args).bind fun _ _ h => ih h

omit [Results] in
theorem simulates_writeEach (hd : d.Coherent) (writes : List (RuntimeConfig × WriteArgs)) :
    (writeEach writes).Simulates abstraction d := by
  induction writes generalizing d with
  | nil => exact .done _ hd
  | cons write rest ih =>
    exact (simulates_writeEntry hd write.1 write.2).bind fun _ _ h => (ih h).bind fun _ _ h' => .done _ h'

omit [Runtime] [Objects] [Results] [Scores] in
theorem value_init (name path : Str) (config : RuntimeConfig) (clock : Nat → Nat) (name' path' : Str)
    (config' : RuntimeConfig) (clock' : Nat → Nat) :
    (init name path config clock).contents.value =
      (init name' path' config' clock').contents.value := by
  have hnone : ∀ name path config clock (key : Key),
      (init name path config clock).contents.value key = none := by
    intro name path config clock key
    rw [value, show (init name path config clock).contents = _ from
      contents_init name path config clock []]
    rfl
  funext key
  rw [hnone, hnone]

omit [Results] [Runtime] [Scores] in
theorem Appended.take (h : Appended entries records) (k : Nat) :
    Appended (entries.take k) (records.take k) := forall₂_take k h

end Log

section Sample

attribute [local instance] sampleRuntime sampleScores

/-- Python with a codec `rev` that reverses the octets; the default codec leaves them as they are. -/
@[reducible] def reverseObjects : Objects := { sampleObjects with
  compress := fun codec raw => .ok (if codec = lit "rev" then raw.reverse else raw)
  decompress := fun codec stored => .ok (if codec = lit "rev" then stored.reverse else stored) }

@[reducible] def sampleResults : Results := ⟨fun _ _ => .object 0⟩

attribute [local instance] reverseObjects sampleResults

/-- The text `one` is written under the name `a`, compressed. -/
def logWrite (codec : Str) : WriteArgs := ⟨lit "a", .str (lit "one"), textUtf8, some true, codec⟩

def logEntry (codec : Str) : Entry :=
  ⟨lit "a", 0x83, .str (lit "one"), codec, lit "TEXT_UTF8", (sha256 (utf8 (lit "one"))).hex, 3, 3⟩

def newSample : Directory := Directory.init (lit "root") (lit "/root") sampleConfig id

theorem coherent_newSample : newSample.Coherent := coherent_init _ _ _ _ []

theorem contents_newSample :
    newSample.contents = ⟨fun _ => none, [], sampleConfig.policy, sampleConfig.generation, [], []⟩ :=
  contents_init _ _ _ _ []

theorem run_logWrite {codec : Str} (h : codec = lit "rev" ∨ codec = lit "zlib") :
    ∃ d, (writeEach [(sampleConfig, logWrite codec)]).run Directory.exec newSample =
      (.ok [logEntry codec], d) := by
  have hrun := (simulates_writeEach coherent_newSample [(sampleConfig, logWrite codec)]).run_abs
  refine ⟨_, Prod.ext ((congrArg Prod.fst hrun).symm.trans ?_) rfl⟩
  show ((writeEach [(sampleConfig, logWrite codec)]).run Contents.exec newSample.contents).1 = _
  rw [contents_newSample]
  rcases h with rfl | rfl <;> rfl

def logOctets (codec : Str) : Bytes :=
  (⟨lit "a", 0x83, 0, if codec = lit "rev" then utf8 (lit "eno") else utf8 (lit "one")⟩ :
    LogRecord).octets

theorem appended_logEntry {codec : Str} (h : codec = lit "rev" ∨ codec = lit "zlib") :
    Appended [logEntry codec] [logOctets codec] := by
  refine .cons ⟨0, ?_⟩ .nil
  rcases h with rfl | rfl <;> rfl

theorem undone_zlib : Undone (logEntry (lit "zlib")) := by
  intro _ raw stored h
  have heq : raw = stored := Except.ok.inj h
  rw [heq]
  rfl

/-- The text `two` is written under the name `b`, as it is. -/
def plainWrite : WriteArgs := ⟨lit "b", .str (lit "two"), textUtf8, some false, []⟩

def plainEntry : Entry :=
  ⟨lit "b", 3, .str (lit "two"), lit "zlib", lit "TEXT_UTF8", (sha256 (utf8 (lit "two"))).hex, 3, 3⟩

def plainOctets : Bytes := (⟨lit "b", 3, 0, utf8 (lit "two")⟩ : LogRecord).octets

theorem appended_sample :
    Appended [logEntry (lit "zlib"), plainEntry] [logOctets (lit "zlib"), plainOctets] := by
  obtain ⟨hfirst, -⟩ := forall₂_cons.mp (appended_logEntry (.inr rfl))
  exact .cons hfirst (.cons ⟨0, rfl⟩ .nil)

/-- The second of two records is torn: a replay applies the first one and returns 1. -/
theorem replay_take_sample :
    Appended [logEntry (lit "zlib"), plainEntry] [logOctets (lit "zlib"), plainOctets] ∧
    wholeRecords [logOctets (lit "zlib"), plainOctets] 50 = 1 ∧
    ((replay sampleConfig ([logOctets (lit "zlib"), plainOctets].flatten.take 50)).run Directory.exec
      newSample).1 = .ok 1 := by
  have hwhole : wholeRecords [logOctets (lit "zlib"), plainOctets] 50 = 1 := by decide +kernel
  have hundone : ∀ entry ∈ [logEntry (lit "zlib"), plainEntry], Undone entry := by
    intro entry hentry
    rcases mem_pair.mp hentry with rfl | rfl
    · exact undone_zlib
    · intro h
      cases h
  obtain ⟨⟨n, -, hrun, -, -, hall⟩, -⟩ := replay_take newSample sampleConfig _ _ appended_sample hundone 50
  have hfirst : ((writeAll sampleConfig (([logEntry (lit "zlib"), plainEntry].take 1).map
      replayArgs)).run Directory.exec newSample).1 = .ok () := by decide +kernel
  rw [hwhole] at hall hrun
  rw [hall.mpr hfirst] at hrun
  exact ⟨appended_sample, hwhole, by rw [hrun]⟩

/-- The directory has a schema that lets only an `int` pass under the name `a`. -/
def schemaSample : Directory :=
  { newSample with schemas := [(lit "a", ⟨none, none, some ⟨lit "int", (· == lit "int")⟩⟩)] }

/-- A whole record that the directory refuses is not applied. -/
theorem replay_refused_sample :
    Appended [logEntry (lit "zlib")] [logOctets (lit "zlib")] ∧ Undone (logEntry (lit "zlib")) ∧
    wholeRecords [logOctets (lit "zlib")] (logOctets (lit "zlib")).length = 1 ∧
    ((replay sampleConfig [logOctets (lit "zlib")].flatten).run Directory.exec schemaSample).1 =
      .ok 0 := by
  refine ⟨appended_logEntry (.inr rfl), undone_zlib, ?_, ?_⟩
  · rw [wholeRecords, if_pos (Nat.le_refl _)]
    rfl
  · decide +kernel

theorem codecs_sample : Codecs where
  json _ _ _ h := by cases h
  numpy _ _ _ h := by cases h
  pickle _ _ _ h := by cases h

/-- What reports a failed decoding is no text. -/
theorem noReport_text {entry : Entry} (h : baseFmt entry.fmtId = textUtf8) : NoReport entry := by
  intro data raw hraw
  rw [h] at hraw
  cases hraw

theorem run_writes : ∃ d, (writeEach [(sampleConfig, logWrite (lit "zlib")), (sampleConfig, plainWrite)]).run
    Directory.exec newSample = (.ok [logEntry (lit "zlib"), plainEntry], d) := by
  have hrun := (simulates_writeEach coherent_newSample
    [(sampleConfig, logWrite (lit "zlib")), (sampleConfig, plainWrite)]).run_abs
  refine ⟨_, Prod.ext ((congrArg Prod.fst hrun).symm.trans ?_) rfl⟩
  show ((writeEach _).run Contents.exec newSample.contents).1 = _
  rw [contents_newSample]
  rfl

end Sample

end Persistence
