import Tds.FileSystem.Proofs.Contents
import Tds.FileSystem.Calls
import Tds.Python.Proofs.Text

/-!
# Sequential runs of a directory

A directory that is used by one thread answers as a plain map from names to values would.
-/

namespace FileSystem

open Python Process Contents

/-! ## What a write stores -/

theorem baseFmt_baseFmt (fmt : Nat) : baseFmt (baseFmt fmt) = baseFmt fmt := Nat.mod_mod _ _

theorem baseFmt_add_compressed (fmt : Nat) : baseFmt (baseFmt fmt + compressed) = baseFmt fmt := by
  rw [baseFmt, Nat.add_mod_right]
  exact baseFmt_baseFmt fmt

section Prepare

variable [Objects] {config : RuntimeConfig} {args : WriteArgs}

variable {policy : CompressionPolicy} {entry : Entry} {value : Value}

theorem freeze_eq_ok {raw : Bytes} {fmt : Nat} :
    freeze raw fmt = .ok value ↔ deserialize raw fmt = .ok value := by
  unfold freeze raise
  cases deserialize raw fmt <;> simp

theorem storedValue_of_codec {raw : Bytes}
    (hdump : serializePayload args.value (baseFmt args.fmtId) = .ok raw)
    (hload : deserialize raw (baseFmt args.fmtId) = .ok args.value) :
    storedValue args = .ok args.value := by
  rw [storedValue, hdump, ok_bind, freeze, hload]

theorem storedValue_text {name text codec : Str} {compress : Option Bool}
    (h : text.all isScalar = true) :
    storedValue ⟨name, .str text, textUtf8, compress, codec⟩ = .ok (.str text) := by
  have hraw : encodeUtf8 text = some (text.flatMap encodeUtf8Char) := if_pos h
  have hdump : serializePayload (.str text) (baseFmt textUtf8) = .ok (text.flatMap encodeUtf8Char) := by
    show dumpsText (.str text) = _
    rw [dumpsText, hraw]
  have hload : deserialize (text.flatMap encodeUtf8Char) (baseFmt textUtf8) = .ok (.str text) := by
    show loadsText _ = _
    rw [loadsText, decodeUtf8_flatMap h]
  exact storedValue_of_codec hdump hload

theorem storedValue_json {name codec : Str} {stored : Value} {compress : Option Bool} :
    storedValue ⟨name, value, jsonUtf8, compress, codec⟩ = .ok stored ↔
      ∃ raw, Objects.jsonDumps value = .ok raw ∧ Objects.jsonLoads raw = .ok stored := by
  have hdump : serializePayload value (baseFmt jsonUtf8) = Objects.jsonDumps value := rfl
  have hload : ∀ raw, deserialize raw (baseFmt jsonUtf8) = Objects.jsonLoads raw := fun _ => rfl
  simp only [storedValue, bind_eq_ok, freeze_eq_ok, hdump, hload]

variable [Runtime]

theorem data_of_makeEntry (h : makeEntry config policy args = .ok entry) :
    storedValue args = .ok entry.data := by
  simp only [makeEntry, bind_eq_ok] at h
  obtain ⟨raw, hraw, h⟩ := h
  rw [storedValue, hraw, ok_bind]
  split at h <;> simp only [bind_eq_ok] at h <;> obtain ⟨stored, -, frozen, hfrozen, h⟩ := h <;>
    cases h <;> exact hfrozen

theorem of_makeEntry (h : makeEntry config policy args = .ok entry) :
    ∃ raw, serialize args.value (baseFmt args.fmtId) = .ok raw ∧
      deserialize raw (baseFmt args.fmtId) = .ok entry.data ∧ entry.name = args.name ∧
      entry.contentHash = (sha256 raw).hex ∧ baseFmt entry.fmtId = baseFmt args.fmtId := by
  simp only [makeEntry, bind_eq_ok, serializePayload, baseFmt_baseFmt] at h
  obtain ⟨raw, hraw, h⟩ := h
  refine ⟨raw, hraw, ?_⟩
  split at h
  · simp only [bind_eq_ok, freeze_eq_ok] at h
    obtain ⟨stored, -, frozen, hfrozen, h⟩ := h
    cases h
    exact ⟨hfrozen, rfl, rfl, baseFmt_add_compressed args.fmtId⟩
  · simp only [bind_eq_ok, freeze_eq_ok] at h
    obtain ⟨stored, -, frozen, hfrozen, h⟩ := h
    cases h
    exact ⟨hfrozen, rfl, rfl, baseFmt_baseFmt args.fmtId⟩

theorem makeEntry_of_run [Scores] {d d' : Directory}
    (h : (writeEntry config args).run Directory.exec d = (.ok entry, d')) :
    ∃ policy, makeEntry config policy args = .ok entry := by
  simp only [writeEntry, Prog.run_bind_eq_ok] at h
  obtain ⟨_, _, -, policy, _, -, made, d₁, hmade, _, _, -, _, _, -, _, _, -, hdone⟩ := h
  rw [Prog.run_liftM, Prod.mk.injEq] at hmade
  rw [Prog.run_pure, Prod.mk.injEq, Except.ok.injEq] at hdone
  exact ⟨policy, hmade.1.trans (congrArg Except.ok hdone.1)⟩

theorem exists_makeEntry_of_plain (config : RuntimeConfig)
    (hplain : ∀ n, policy.shouldCompress n args.compress = false)
    (h : storedValue args = .ok value) :
    ∃ entry, makeEntry config policy args = .ok entry ∧ entry.data = value := by
  obtain ⟨raw, hraw, hfreeze⟩ := bind_eq_ok.mp h
  simp only [makeEntry, hraw, hfreeze, hplain, ok_bind, pure_eq_ok, Bool.false_eq_true, if_false]
  exact ⟨_, rfl, rfl⟩

theorem exists_makeEntry (config : RuntimeConfig) (policy : CompressionPolicy)
    (hplain : args.compress = some false) (h : storedValue args = .ok value) :
    ∃ entry, makeEntry config policy args = .ok entry ∧ entry.data = value :=
  exists_makeEntry_of_plain config (fun _ => by rw [hplain, CompressionPolicy.shouldCompress]) h

theorem exists_makeEntry_text (config : RuntimeConfig) (policy : CompressionPolicy) (name text codec : Str)
    (h : text.all isScalar = true) :
    ∃ entry, makeEntry config policy ⟨name, .str text, textUtf8, some false, codec⟩ = .ok entry ∧
      entry.data = .str text :=
  exists_makeEntry config policy rfl (storedValue_text h)

theorem Contents.of_prepare {c : Contents} {key : Key}
    (h : c.prepare config args = .ok (key, entry)) :
    key.val = args.name ∧ storedValue args = .ok entry.data := by
  simp only [prepare, bind_eq_ok] at h
  obtain ⟨entry', hentry, key', hkey, h⟩ := h
  cases h
  exact ⟨keyOf_eq_ok_iff.mp hkey, data_of_makeEntry hentry⟩

end Prepare

namespace PlainMap

/-- The directory holds what the map says. -/
def Shows (m : PlainMap) (c : Contents) : Prop :=
  (∀ key : Key, m key.val = (c.entries key).map Entry.data) ∧
    ∀ name e, keyOf name = .error e → m name = none

variable {m : PlainMap} {c : Contents}

theorem Shows.of_entries (h : m.Shows c) {c' : Contents} (heq : c'.entries = c.entries) :
    m.Shows c' :=
  ⟨fun key => heq ▸ h.1 key, h.2⟩

theorem Shows.update (h : m.Shows c) {c' : Contents} {key : Key} (entry : Option Entry)
    (heq : c'.entries = Function.update c.entries key entry) :
    Shows (Function.update m key.val (entry.map Entry.data)) c' := by
  constructor
  · intro key'
    rw [heq, Function.update_apply, Function.update_apply]
    by_cases hkey : key' = key
    · rw [if_pos hkey, if_pos (congrArg Subtype.val hkey)]
    · rw [if_neg hkey, if_neg (mt Subtype.ext hkey)]
      exact h.1 key'
  · intro name e hname
    rw [Function.update_of_ne]
    · exact h.2 name e hname
    · rintro rfl
      rw [keyOf_val] at hname
      cases hname

theorem Shows.read_eq [Objects] (h : m.Shows c) (self : Self) (name : Str) :
    m.read self name = (c.read self name).map .value := by
  unfold PlainMap.read Contents.read
  cases hkey : keyOf name with
  | error e => rfl
  | ok key =>
    obtain rfl := keyOf_eq_ok_iff.mp hkey
    simp only [ok_bind, h.1 key]
    cases c.entries key <;> rfl

end PlainMap

section Runs

variable [Runtime] [Objects] [Scores] {d : Directory} {m : PlainMap}

theorem simulates_method (h : d.Coherent) (self : Self) (call : Call) :
    (call.method self).Simulates Directory.abstraction d := by
  cases call with
  | write config args => exact (simulates_writeEntry h config args).bind fun _ _ h' => .done _ h'
  | read name => exact (simulates_readValue h self name).bind fun _ _ h' => .done _ h'
  | delete name => exact (simulates_deleteEntry h name).bind fun _ _ h' => .done _ h'

theorem serves_history (self : Self) (calls : List Call) (h : d.Coherent) (hm : m.Shows d.contents) :
    m.Serves self (history self calls d) := by
  induction calls generalizing d m with
  | nil => trivial
  | cons call calls ih =>
    obtain ⟨d', hrun, hcontents, h'⟩ := (simulates_method h self call).exists_run
    rw [history, show (call.method self).run Directory.exec d = _ from hrun]
    change d'.contents = ((call.method self).run exec d.contents).2 at hcontents
    show m.Serves self ((call, ((call.method self).run exec d.contents).1) :: _)
    cases call with
    | write config args =>
      rw [Call.method, Prog.run_bind_pure, run_writeEntry] at hcontents ⊢
      cases hv : d.contents.validate args.name args.value with
      | error e =>
        rw [hv] at hcontents
        exact ih h' (hm.of_entries (congrArg entries hcontents))
      | ok _ =>
        rw [hv] at hcontents
        dsimp only at hcontents ⊢
        cases hp : d.contents.prepare config args with
        | error e =>
          rw [hp] at hcontents
          refine ih h' (hm.of_entries ?_)
          rw [show d'.contents = d.contents.renew config from hcontents, entries_renew]
        | ok item =>
          obtain ⟨key, entry⟩ := item
          rw [hp] at hcontents
          obtain ⟨hname, hstored⟩ := of_prepare hp
          refine ⟨entry.data, hstored, ih h' ?_⟩
          rw [← hname]
          refine hm.update (some entry) ?_
          rw [show d'.contents = (d.contents.renew config).put key entry from hcontents,
            put, entries_renew]
    | read name =>
      rw [Call.method, Prog.run_bind_pure, run_readValue] at hcontents ⊢
      exact ⟨(hm.read_eq self name).symm, ih h' (hm.of_entries (congrArg entries hcontents))⟩
    | delete name =>
      rw [Call.method, Prog.run_bind_pure, run_deleteEntry] at hcontents ⊢
      cases hkey : keyOf name with
      | error e =>
        rw [hkey] at hcontents
        exact ih h' (hm.of_entries (congrArg entries hcontents))
      | ok key =>
        rw [hkey] at hcontents
        obtain rfl := keyOf_eq_ok_iff.mp hkey
        refine ih h' (hm.update none ?_)
        exact congrArg entries hcontents

/-- However a directory is used by one thread, every read returns what a plain map from names to
values would return after the same writes and deletes. The value that a write stores went through the
codec of its format, so it is the value that was written whenever the codec gives that back. -/
theorem history_serves_plainMap (name path : Str) (config : RuntimeConfig) (clock : Nat → Nat)
    (schemas : PyDict Str EntrySchema) (calls : List Call) :
    PlainMap.Serves ⟨name, path⟩ (fun _ => none)
        (history ⟨name, path⟩ calls { Directory.init name path config clock with schemas := schemas }) ∧
      ∀ (args : WriteArgs) (raw : Bytes), serializePayload args.value (baseFmt args.fmtId) = .ok raw →
        deserialize raw (baseFmt args.fmtId) = .ok args.value → storedValue args = .ok args.value := by
  refine ⟨serves_history _ calls (Directory.coherent_init name path config clock schemas) ?_,
    fun args raw hdump hload => storedValue_of_codec hdump hload⟩
  refine ⟨fun key => ?_, fun _ _ _ => rfl⟩
  show none = (EntryIndex.init.get key).map Entry.data
  rw [EntryIndex.get_init]
  rfl

end Runs

end FileSystem
