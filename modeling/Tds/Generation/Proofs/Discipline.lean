import Tds.Generation.Discipline

/-!
# Operations keep the discipline

Three kinds of operations change what is shared: those that only add files, those that change the log
or `CURRENT` of a namespace under its lock, and those that change locks and memory. There is one
lemma for each kind; every operation of the store is an instance of one of them.
-/

namespace Generation

open Python Process List Option

section Keeps

variable [Runtime]

variable {key : Digest} {m : GenerationManifest}

namespace World

variable {w w' : World}

theorem Has.unique {m' : GenerationManifest} (h : w.Has m) (h' : w.Has m')
    (hg : m.generationRoot = m'.generationRoot) : m = m' := by
  refine GenerationManifest.encode_injective (some.inj (h.symm.trans ?_))
  rw [hg]
  exact h'

theorem records_congr (h : w'.disk (.log key) = w.disk (.log key)) :
    w'.records key = w.records key := by
  unfold records log
  rw [h]

theorem records_of_logHolds {records : List GenerationPublicationRecord} {tail : Bytes}
    (h : LogHolds (w.disk (.log key)) records tail) : w.records key = records := by
  unfold World.records log
  rw [h.eq, completeRecords_encodeLog _ h.newline]

theorem Supplied.mono {data : Bytes} (h : w.Supplied data) (hh : w.history ⊆ w'.history) :
    w'.Supplied data := by
  obtain ⟨p, candidate, expected, name, hmem, hdata⟩ := h
  exact ⟨p, candidate, expected, name, hh hmem, hdata⟩

end World

variable {config : StoreId → StoreConfig} {strict : Prop} {w w' : World} {p : StoreId}

theorem Complete.mono (h : Complete config w m)
    (hkeep : ∀ path : Path, path.Permanent → ∀ data, w.disk path = some data →
      w'.disk path = some data) (hh : w.history ⊆ w'.history) : Complete config w' m where
  receipt state hs := hkeep (.receipt _ state) trivial _ (h.receipt state hs)
  object payload hp := by
    obtain ⟨data, hdata, hlen⟩ := h.object payload hp
    exact ⟨data, hkeep (.object _) trivial _ hdata, hlen⟩
  supplied := by
    obtain ⟨p, candidate, expected, hmem, hm⟩ := h.supplied
    exact ⟨p, candidate, expected, hh hmem, hm⟩
  accepted := h.accepted

theorem LogOk.congr (h : LogOk config w key) (hlog : w'.disk (.log key) = w.disk (.log key))
    (hcurrent : w'.disk (.current key) = w.disk (.current key))
    (hcommits : w'.commits key = w.commits key) (hh : w.history <+: w'.history)
    (hhas : ∀ m, w.Has m → w'.Has m) : LogOk config w' key := by
  have hrecords := World.records_congr hlog
  constructor <;> simp only [hrecords, hlog, hcurrent, hcommits]
  · exact h.holds
  · exact h.chain
  · exact h.lineage
  · intro r hr
    obtain ⟨hkey, m, hm, hhas'⟩ := h.binds r hr
    exact ⟨hkey, m, hm, hhas m hhas'⟩
  · exact h.limit
  · exact h.current
  · exact h.commits
  · intro i id hid
    obtain ⟨q, call, hcall, hexp⟩ := h.expects i id hid
    exact ⟨q, call, getElem?_eq_of_isPrefix hh hcall, hexp⟩

theorem Dispensable.congr {g : Root} (h : Dispensable w key g)
    (hlog : w'.disk (.log key) = w.disk (.log key))
    (hcurrent : w'.disk (.current key) = w.disk (.current key)) : Dispensable w' key g := by
  have hrecords := World.records_congr hlog
  constructor <;> simp only [hrecords, hcurrent]
  · exact h.last
  · exact h.current

namespace Inv

theorem holder_unique (hi : Inv config strict w) {q : StoreId} (hp : w.Holds p (.nameSpace key))
    (hq : w.Holds q (.nameSpace key)) : p = q := by
  obtain ⟨h, hmem, rfl⟩ := hp
  obtain ⟨h', hmem', rfl⟩ := hq
  rw [hi.exclusive _ h hmem (hi.nameSpaceLocks key h hmem) h' hmem']

theorem key_of_record (hi : Inv config strict w) {key' : Digest} (hm : w.Has m)
    (hkey : namespaceKey m.nameSpace.val = .ok key) {r : GenerationPublicationRecord}
    (hr : r ∈ w.records key') (hg : r.generationRoot = m.generationRoot) : key' = key := by
  obtain ⟨hkey', m', hb, hm'⟩ := (hi.logs key').binds r hr
  obtain rfl : m' = m := hm'.unique hm (hb.generationRoot.trans hg)
  rw [hb.nameSpace] at hkey
  exact Except.ok.inj (hkey'.symm.trans hkey)

end Inv

/-- The store `p` may retire the generation. -/
def Retires (strict : Prop) (p : StoreId) (w : World) (g : Root) : Prop :=
  ∃ m key fd, m.generationRoot = g ∧ w.Has m ∧ namespaceKey m.nameSpace.val = .ok key ∧
    w.Holds p (.nameSpace key) ∧ ⟨p, fd, false⟩ ∈ w.locks (.pin g) ∧ (strict → Dispensable w key g)

section Files

variable {disk : Path → Option Bytes}
  (hkeep : ∀ path data, w.disk path = some data → disk path = some data)
  (hlog : ∀ key, disk (.log key) = w.disk (.log key))
include hkeep hlog

theorem Stays.of_files {q : StoreId} : Stays q w { w with disk } where
  records key := by
    have h : World.records { w with disk } key = w.records key := World.records_congr (hlog key)
    rw [h]
  commits _ := prefix_refl _
  memory := rfl
  locks _ _ _ := Iff.rfl
  running := rfl
  history := prefix_refl _
  kept path _ := hkeep path

variable (hcurrent : ∀ key, disk (.current key) = w.disk (.current key))
include hcurrent

/-- Files are added, none of them a retirement under a lock of the store. -/
theorem Rely.of_files {q : StoreId}
    (hretired : ∀ m, w.Has m → w.Holds q (.pin m.generationRoot) ∨ w.Guards q m →
      disk (.receipt m.generationRoot .retired) ≠ none → w.Retired m.generationRoot) :
    Rely q w { w with disk } where
  toStays := .of_files hkeep hlog
  committed _ _ _ h := h
  retired := hretired
  nameSpace key _ := ⟨hlog key, hcurrent key, rfl⟩

theorem Inv.keeps_of_files (hi : Inv config strict w)
    (hobject : ∀ root data, w.disk (.object root) = none → disk (.object root) = some data →
      bytesRoot data = root ∧ w.Supplied data)
    (hmanifest : ∀ g data, w.disk (.manifest g) = none → disk (.manifest g) = some data →
      ∃ m, m.generationRoot = g ∧ data = m.encode ∧ Complete config { w with disk } m)
    (hreceipt : ∀ g state data, w.disk (.receipt g state) = none →
      disk (.receipt g state) = some data → (∃ m, m.generationRoot = g ∧
        data = (m.receipt state).encode ∧ World.Has { w with disk } m) ∧
        (state = .retired → Retires strict p w g)) :
    (discipline config strict).Keeps p w { w with disk } := by
  have hhas : ∀ m, w.Has m → World.Has { w with disk } m := fun m hm => hkeep _ _ hm
  have hrecords : ∀ key, World.records { w with disk } key = w.records key :=
    fun key => World.records_congr (hlog key)
  -- a generation that is retired only now was dispensable, and only `p` has its locks
  have hnew : ∀ g, World.Retired { w with disk } g → ¬ w.Retired g →
      Retires strict p w g := by
    intro g hr hn
    obtain ⟨data, hdata⟩ := ne_none_iff_exists'.mp hr
    exact (hreceipt g .retired data (not_not.mp hn) hdata).2 rfl
  refine ⟨?_, ?_, ⟨fun key => ?_, fun key => prefix_refl _⟩⟩
  · constructor
    · intro root data hd
      cases hw : w.disk (.object root) with
      | none => exact hobject root data hw hd
      | some data' =>
        obtain rfl : data' = data := some.inj ((hkeep _ _ hw).symm.trans hd)
        exact hi.objects root _ hw
    · intro g data hd
      cases hw : w.disk (.manifest g) with
      | none => exact hmanifest g data hw hd
      | some data' =>
        obtain rfl : data' = data := some.inj ((hkeep _ _ hw).symm.trans hd)
        obtain ⟨m, hg, hm, hc⟩ := hi.generations g _ hw
        exact ⟨m, hg, hm, hc.mono (fun path _ => hkeep path) (List.Subset.refl _)⟩
    · intro g state data hd
      cases hw : w.disk (.receipt g state) with
      | none => exact (hreceipt g state data hw hd).1
      | some data' =>
        obtain rfl : data' = data := some.inj ((hkeep _ _ hw).symm.trans hd)
        obtain ⟨m, hg, hm, hhas'⟩ := hi.receipts g state _ hw
        exact ⟨m, hg, hm, hhas m hhas'⟩
    · exact fun key => (hi.logs key).congr (hlog key) (hcurrent key) rfl (prefix_refl _) hhas
    · exact hi.nodup
    · exact hi.unique
    · exact hi.running
    · exact hi.exclusive
    · exact hi.nameSpaceLocks
    · exact hi.descriptors
    · intro q i l hl hopen hclosing
      obtain ⟨hmem, hn⟩ := hi.leases q i l hl hopen hclosing
      refine ⟨hmem, fun hr => ?_⟩
      obtain ⟨m, key, fd, -, -, -, -, hfd, -⟩ := hnew _ hr hn
      cases hi.exclusive _ _ hfd rfl _ hmem
    · intro hs key g hr
      have hd : Dispensable w key g := by
        by_cases hw : w.Retired g
        · exact hi.alive hs key g hw
        · obtain ⟨m, key', fd, rfl, hm, hkey, -, -, hd⟩ := hnew g hr hw
          constructor
          · intro r hl hg
            obtain rfl := hi.key_of_record hm hkey (mem_of_getLast? hl) hg
            exact (hd hs).last r hl hg
          · intro r hmem hc hg
            obtain rfl := hi.key_of_record hm hkey hmem hg
            exact (hd hs).current r hmem hc hg
      exact hd.congr (hlog key) (hcurrent key)
  · intro q hq
    refine .of_files hkeep hlog hcurrent fun m hm hp hr => ?_
    by_contra hn
    obtain ⟨m', key, fd, hg, hm', hkey, hns, hfd, -⟩ := hnew _ hr hn
    obtain rfl := hm'.unique hm hg
    rcases hp with ⟨h, hmem, hstore⟩ | ⟨key', hkey', hq'⟩
    · rw [hi.exclusive _ _ hfd rfl _ hmem] at hstore
      exact hq hstore.symm
    · obtain rfl : key' = key := Except.ok.inj (hkey'.symm.trans hkey)
      exact hq (hi.holder_unique hq' hns)
  · rw [hrecords]

end Files

theorem World.write_of_ne {path path' : Path} (h : path' ≠ path) (data : Bytes) :
    (w.write path data).disk path' = w.disk path' := Function.update_of_ne h _ _

theorem World.write_self (path : Path) (data : Bytes) :
    (w.write path data).disk path = some data := Function.update_self ..

theorem Inv.keeps_addFile (hi : Inv config strict w) (path : Path) {data : Bytes}
    (hnone : w.disk path = none) (hpermanent : path.Permanent) (hmanifest : ∀ g, path ≠ .manifest g)
    (hobject : ∀ root, path = .object root → bytesRoot data = root ∧ w.Supplied data)
    (hreceipt : ∀ g state, path = .receipt g state → (∃ m, m.generationRoot = g ∧
      data = (m.receipt state).encode ∧ w.Has m) ∧ (state = .retired → Retires strict p w g)) :
    (discipline config strict).Keeps p w (w.write path data) ∧ Stays p w (w.write path data) ∧
      ((∀ g, path ≠ .receipt g .retired) → Rely p w (w.write path data)) := by
  have hother : ∀ path', path' ≠ path → (w.write path data).disk path' = w.disk path' :=
    fun path' h => World.write_of_ne h data
  have hkeep : ∀ path' d, w.disk path' = some d → (w.write path data).disk path' = some d := by
    intro path' d hd
    rw [hother path' (by rintro rfl; rw [hnone] at hd; cases hd), hd]
  have hlog : ∀ key, (w.write path data).disk (.log key) = w.disk (.log key) :=
    fun key => hother _ (by rintro rfl; exact hpermanent)
  have hcurrent : ∀ key, (w.write path data).disk (.current key) = w.disk (.current key) :=
    fun key => hother _ (by rintro rfl; exact hpermanent)
  -- a file that is new is the one that was added
  have hnew : ∀ path' d, w.disk path' = none → (w.write path data).disk path' = some d →
      path' = path ∧ d = data := by
    intro path' d hn hd
    by_cases h : path' = path
    · subst h
      rw [World.write_self] at hd
      exact ⟨rfl, (some.inj hd).symm⟩
    · rw [hother path' h, hn] at hd
      cases hd
  refine ⟨hi.keeps_of_files hkeep hlog hcurrent ?_ ?_ ?_, .of_files hkeep hlog, fun hret => ?_⟩
  · intro root d hn hd
    obtain ⟨hpath, rfl⟩ := hnew _ d hn hd
    exact hobject root hpath.symm
  · intro g d hn hd
    exact absurd (hnew _ d hn hd).1.symm (hmanifest g)
  · intro g state d hn hd
    obtain ⟨hpath, rfl⟩ := hnew _ d hn hd
    obtain ⟨⟨m, hg, hm, hhas⟩, hr⟩ := hreceipt g state hpath.symm
    exact ⟨⟨m, hg, hm, hkeep _ _ hhas⟩, hr⟩
  · refine .of_files hkeep hlog hcurrent fun m _ _ h => ?_
    have hsame := hother (.receipt m.generationRoot .retired) (hret _).symm
    exact fun hn => h (hsame.trans hn)

/-- Operations on the log and the `CURRENT` of a namespace whose lock the store holds. -/
theorem Inv.keeps_of_nameSpace (hi : Inv config strict w) (hold : w.Holds p (.nameSpace key))
    {disk : Path → Option Bytes} {commits : Digest → List Nat}
    (hdisk : ∀ path, path ≠ .log key → path ≠ .current key → disk path = w.disk path)
    (hcommits : ∀ key', key' ≠ key → commits key' = w.commits key')
    (hgrows : w.records key <+: World.records { w with disk, commits } key)
    (hids : commits key = w.commits key ∨ ∃ id, w.running p = some id ∧
      (∀ key', id ∉ w.commits key') ∧ commits key = w.commits key ++ [id])
    (hlog : LogOk config { w with disk, commits } key)
    (halive : strict → ∀ g, w.Retired g → Dispensable { w with disk, commits } key g) :
    (discipline config strict).Keeps p w { w with disk, commits } ∧
      Stays p w { w with disk, commits } ∧
      ∀ g, World.Retired { w with disk, commits } g → w.Retired g := by
  have hpermanent : ∀ path : Path, path.Permanent → disk path = w.disk path := by
    intro path hp
    refine hdisk path ?_ ?_ <;> rintro rfl <;> exact hp
  have hother : ∀ key', key' ≠ key →
      disk (.log key') = w.disk (.log key') ∧ disk (.current key') = w.disk (.current key') := by
    intro key' hne
    exact ⟨hdisk _ (by simpa using hne) (by simp), hdisk _ (by simp) (by simpa using hne)⟩
  have hkeep : ∀ path : Path, path.Permanent → ∀ data, w.disk path = some data →
      disk path = some data := fun path hp data hd => (hpermanent path hp).trans hd
  have hhas : ∀ m, w.Has m → World.Has { w with disk, commits } m :=
    fun m hm => hkeep (.manifest m.generationRoot) trivial _ hm
  have hretired : ∀ g, World.Retired { w with disk, commits } g ↔ w.Retired g := by
    intro g
    show disk _ ≠ none ↔ _
    rw [hpermanent (.receipt g .retired) trivial]
    rfl
  have hmem : ∀ key' id, id ∈ commits key' → id ∈ w.commits key' ∨
      key' = key ∧ w.running p = some id ∧ ∀ key', id ∉ w.commits key' := by
    intro key' id hid
    by_cases hne : key' = key
    · subst hne
      rcases hids with heq | ⟨id', hrun, hfresh, heq⟩
      · exact .inl (heq ▸ hid)
      · rw [heq, mem_append, mem_singleton] at hid
        rcases hid with hid | rfl
        · exact .inl hid
        · exact .inr ⟨rfl, hrun, hfresh⟩
    · exact .inl (hcommits key' hne ▸ hid)
  have hgrow : Grows w { w with disk, commits } := by
    constructor <;> intro key' <;> by_cases hne : key' = key
    · exact hne ▸ hgrows
    · have h : World.records { w with disk, commits } key' = w.records key' :=
        World.records_congr (hother key' hne).1
      rw [h]
    · subst hne
      show w.commits key' <+: commits key'
      rcases hids with heq | ⟨id', -, -, heq⟩ <;> rw [heq]
      exact prefix_append _ _
    · show w.commits key' <+: commits key'
      rw [hcommits key' hne]
  have hstays : ∀ q, Stays q w { w with disk, commits } := fun q =>
    ⟨hgrow, rfl, fun _ _ _ => Iff.rfl, rfl, prefix_refl _, hkeep⟩
  refine ⟨⟨?_, ?_, hgrow⟩, hstays p, fun g => (hretired g).mp⟩
  · constructor
    · intro root data hd
      exact hi.objects root data ((hpermanent (.object root) trivial).symm.trans hd)
    · intro g data hd
      obtain ⟨m, hg, hm, hc⟩ :=
        hi.generations g data ((hpermanent (.manifest g) trivial).symm.trans hd)
      exact ⟨m, hg, hm, hc.mono hkeep (List.Subset.refl _)⟩
    · intro g state data hd
      obtain ⟨m, hg, hm, hm'⟩ :=
        hi.receipts g state data ((hpermanent (.receipt g state) trivial).symm.trans hd)
      exact ⟨m, hg, hm, hhas m hm'⟩
    · intro key'
      by_cases hne : key' = key
      · exact hne ▸ hlog
      · exact (hi.logs key').congr (hother key' hne).1 (hother key' hne).2 (hcommits key' hne)
          (prefix_refl _) hhas
    · intro key'
      by_cases hne : key' = key
      · subst hne
        show (commits key').Nodup
        rcases hids with heq | ⟨id', -, hfresh, heq⟩ <;> rw [heq]
        · exact hi.nodup key'
        · rw [← concat_eq_append]
          exact (hi.nodup key').concat (hfresh key')
      · show (commits key').Nodup
        rw [hcommits key' hne]
        exact hi.nodup key'
    · intro key₁ key₂ id h₁ h₂
      rcases hmem key₁ id h₁ with h₁ | ⟨rfl, -, hf₁⟩ <;> rcases hmem key₂ id h₂ with h₂ | ⟨rfl, -, hf₂⟩
      · exact hi.unique key₁ key₂ id h₁ h₂
      · exact absurd h₁ (hf₂ key₁)
      · exact absurd h₂ (hf₁ key₂)
      · rfl
    · exact hi.running
    · exact hi.exclusive
    · exact hi.nameSpaceLocks
    · exact hi.descriptors
    · intro q i l hl hopen hclosing
      rw [hretired]
      exact hi.leases q i l hl hopen hclosing
    · intro hs key' g hr
      rw [hretired] at hr
      by_cases hne : key' = key
      · exact hne ▸ halive hs g hr
      · exact (hi.alive hs key' g hr).congr (hother key' hne).1 (hother key' hne).2
  · intro q hq
    refine ⟨⟨hstays q, ?_, fun m _ _ hr => (hretired _).mp hr⟩, ?_⟩
    · intro key' id hrun hid
      rcases hmem key' id hid with hid | ⟨-, hrun', -⟩
      · exact hid
      · -- the call that commits is the one of `p`
        obtain ⟨call, hc⟩ := hi.running q id hrun
        obtain ⟨call', hc'⟩ := hi.running p id hrun'
        exact absurd (congrArg Prod.fst (some.inj (hc.symm.trans hc'))) hq
    · intro key' hk
      have hne : key' ≠ key := by
        rintro rfl
        exact hq (hi.holder_unique hk hold)
      exact ⟨(hother key' hne).1, (hother key' hne).2, hcommits key' hne⟩

/-- Operations on the locks and the memory of the store, and the beginning and the end of a call. -/
theorem Inv.keeps_of_local (hi : Inv config strict w) {locks : LockFile → List Holder}
    {memory : StoreId → StoreMemory} {history : List (StoreId × Call)}
    {running : StoreId → Option Nat}
    (hlocks : ∀ file h, h.store ≠ p → (h ∈ locks file ↔ h ∈ w.locks file))
    (hmemory : ∀ q, q ≠ p → memory q = w.memory q) (hhistory : w.history <+: history)
    (hrunning : ∀ q, q ≠ p → running q = w.running q)
    (hcall : ∀ id, running p = some id → ∃ call, history[id]? = some (p, call))
    (hexclusive : ∀ file h, h ∈ locks file → h.shared = false → ∀ h' ∈ locks file, h' = h)
    (hnameSpace : ∀ key h, h ∈ locks (.nameSpace key) → h.shared = false)
    (hdescriptors : ∃ bound, ∀ file, ∀ h ∈ locks file, h.fd < bound)
    (hleases : ∀ i l, (memory p).leases[i]? = some l → l.closed = false →
      ¬ World.Closing { w with locks, memory, history, running } p i →
      ⟨p, l.pinFd, true⟩ ∈ locks (.pin l.manifest.generationRoot) ∧
        ¬ w.Retired l.manifest.generationRoot) :
    (discipline config strict).Keeps p w { w with locks, memory, history, running } := by
  refine ⟨?_, ?_, ⟨fun _ => prefix_refl _, fun _ => prefix_refl _⟩⟩
  · constructor
    · intro root data hd
      obtain ⟨hroot, hs⟩ := hi.objects root data hd
      exact ⟨hroot, hs.mono hhistory.subset⟩
    · intro g data hd
      obtain ⟨m, hg, hm, hc⟩ := hi.generations g data hd
      exact ⟨m, hg, hm, hc.mono (fun _ _ _ h => h) hhistory.subset⟩
    · exact hi.receipts
    · exact fun key => (hi.logs key).congr rfl rfl rfl hhistory fun _ h => h
    · exact hi.nodup
    · exact hi.unique
    · intro q id hrun
      by_cases hq : q = p
      · exact hq ▸ hcall id (hq ▸ hrun)
      · obtain ⟨call, hc⟩ := hi.running q id ((hrunning q hq).symm.trans hrun)
        exact ⟨call, getElem?_eq_of_isPrefix hhistory hc⟩
    · exact hexclusive
    · exact hnameSpace
    · exact hdescriptors
    · intro q i l hl hopen hclosing
      by_cases hq : q = p
      · subst hq
        exact hleases i l hl hopen hclosing
      · have hl' : (w.memory q).leases[i]? = some l := (hmemory q hq) ▸ hl
        obtain ⟨hmem, hr⟩ := hi.leases q i l hl' hopen fun ⟨id, hrun, hc⟩ =>
          hclosing ⟨id, (hrunning q hq).trans hrun, getElem?_eq_of_isPrefix hhistory hc⟩
        exact ⟨(hlocks _ _ hq).mpr hmem, hr⟩
    · exact fun hs key g hr => (hi.alive hs key g hr).congr rfl rfl
  · intro q hq
    exact
      { records := fun _ => prefix_refl _
        commits := fun _ => prefix_refl _
        memory := hmemory q hq
        locks := fun file h hh => hlocks file h (hh ▸ hq)
        running := hrunning q hq
        history := hhistory
        kept := fun _ _ _ h => h
        committed := fun _ _ _ h => h
        retired := fun _ _ _ h => h
        nameSpace := fun _ _ => ⟨rfl, rfl, rfl⟩ }

end Keeps

end Generation
