import Tds.FileSystem.Footprint
import Tds.FileSystem.JsonCodec
import Tds.FileSystem.Proofs.Calls

/-!
# Text methods on the contents
-/

namespace FileSystem

open Python Process Prog

/-! ## Methods that are made of others -/

/-- The section reads or changes a variable. Only those with the property have their lock changed. -/
def Op.OfVariable (N : Str → Prop) : Op → Prop
  | .lockGet _ | .stalkGet _ | .stalkSet _ _ | .stalkPop _ => True
  | .lockSet name _ | .lockPop name => N name
  | _ => False

section Uses

variable [Runtime] [Objects] {N : Str → Prop} {α : Type} {x : Method α}

/-- The method is made of the methods for entries and of sections for variables. It writes, deletes,
locks and unlocks only names with the property. -/
inductive Uses (N : Str → Prop) : {α : Type} → Method α → Prop
  | done {α : Type} (r : Check α) : Uses N (.done r : Method α)
  | bind {α β : Type} {x : Method α} {f : α → Method β} (hx : Uses N x) (hf : ∀ a, Uses N (f a)) :
      Uses N (x >>= f)
  | tryExcept {α : Type} {x : Method α} (hx : Uses N x) : Uses N (tryExcept x)
  | ask {op : Op} (hop : op.OfVariable N) : Uses N (ask op)
  | exists? (name : Str) : Uses N (exists? name)
  | readValue (self : Self) (name : Str) : Uses N (readValue self name)
  | writeEntry (config : RuntimeConfig) {args : WriteArgs} (h : N args.name) :
      Uses N (writeEntry config args)
  | deleteEntry {name : Str} (h : N name) : Uses N (deleteEntry name)

theorem Uses.simulates [Scores] {d : Directory} (hx : Uses N x) (h : d.Coherent) :
    x.Simulates Directory.abstraction d := by
  induction hx generalizing d with
  | done r => exact .done r h
  | bind _ _ ihx ihf => exact (ihx h).bind fun a d₁ h₁ => ihf a h₁
  | tryExcept _ ih => exact simulates_tryExcept (ih h)
  | @ask op hop =>
    cases op with
    | lockGet | lockSet | lockPop | stalkGet | stalkSet | stalkPop =>
      exact simulates_ask h rfl rfl (by simp)
    | _ => exact hop.elim
  | exists? name => exact simulates_exists? h name
  | readValue self name => exact simulates_readValue h self name
  | writeEntry config => exact simulates_writeEntry h config _
  | deleteEntry => exact simulates_deleteEntry h _

variable (self : Self)

theorem uses_readParts (chunks : List Value) : Uses N (readParts self chunks) := by
  induction chunks with
  | nil => exact .done _
  | cons chunk chunks ih =>
    exact .bind (.done _) fun name => .bind (.readValue self name) fun _ => .bind ih fun _ => .done _

theorem uses_readText (name : Str) : Uses N (readText self name) := by
  refine .bind (.readValue self name) fun value => ?_
  split
  · split
    · exact .bind (.done _) fun chunks => .bind (uses_readParts self chunks) fun _ => .done _
    · exact .done _
  · exact .done _
  · exact .done _

/-! ## Text in chunks -/

theorem uses_deleteChunks (chunks : List Value) : Uses (fun _ => True) (deleteChunks chunks) := by
  induction chunks with
  | nil => exact .done _
  | cons chunk chunks ih =>
    refine .bind (.done _) fun name => .bind (.bind (.exists? name) fun found => ?_) fun _ => ih
    split
    · exact .deleteEntry trivial
    · exact .done _

theorem uses_removePriorChunks (name : Str) (found : Bool) :
    Uses (fun _ => True) (removePriorChunks self name found) := by
  unfold removePriorChunks
  split
  · refine .bind (.tryExcept (.bind (.readValue self name) fun prior => ?_)) fun _ => .done _
    unfold deleteChunksOf
    split
    · split
      · exact .bind (.done _) fun chunks => uses_deleteChunks chunks
      · exact .done _
    · exact .done _
  · exact .done _

theorem uses_writeChunks (config : RuntimeConfig) (key : Key) (compress : Option Bool) (codec : Str)
    (chunks : List Bytes) (i : Nat) :
    Uses (fun _ => True) (writeChunks config key compress codec chunks i) := by
  induction chunks generalizing i with
  | nil => exact .done _
  | cons chunk chunks ih =>
    refine .bind (.tryExcept (.bind (.done _) fun _ => .writeEntry config trivial)) fun written => ?_
    cases written with
    | ok _ => exact ih (i + 1)
    | error e => exact .done _

theorem uses_writeTextChunked (config : RuntimeConfig) (args : ChunkedArgs) :
    Uses (fun _ => True) (writeTextChunked self config args) := by
  unfold writeTextChunked
  split
  · split
    · exact .done _
    · refine .bind (.exists? _) fun found => ?_
      split
      · exact .done _
      · refine .bind (uses_removePriorChunks self args.name found) fun _ => .bind (.done _) fun raw => ?_
        refine .bind (.done _) fun key => .bind (.done _) fun chunks => ?_
        refine .bind (uses_writeChunks config key _ _ _ 0) fun failed => ?_
        cases failed with
        | some e => exact .done _
        | none => exact .bind (.writeEntry config trivial) fun _ => .done _
  · exact .done _

end Uses

theorem run_tryExcept {σ α : Type} (exec : (op : Op) → σ → op.Answer × σ) (x : Method α) (s : σ) :
    (tryExcept x).run exec s = (.ok (x.run exec s).1, (x.run exec s).2) :=
  run_attempt exec x _ s

theorem Contents.read_eq_ok_iff [Objects] {c : Contents} {self : Self} {n : Key} {v : Value} :
    c.read self n.val = .ok v ↔ c.value n = some v := by
  rw [read, keyOf_val, ok_bind, value]
  cases c.entries n with
  | none => simp
  | some entry => simp

section Run

variable [Objects] (c : Contents) (self : Self)

theorem run_readParts (chunks : List Value) :
    (readParts self chunks).run Contents.exec c = (c.readParts self chunks, c) := by
  induction chunks with
  | nil => rfl
  | cons chunk chunks ih =>
    unfold readParts Contents.readParts
    cases nameOf chunk with
    | error e => rfl
    | ok name =>
      rw [liftM_ok_bind, run_bind, run_readValue, ok_bind]
      cases c.read self name with
      | error e => rfl
      | ok part =>
        dsimp only
        rw [run_bind, ih, ok_bind]
        cases c.readParts self chunks <;> rfl

theorem run_readText [Runtime] (name : Str) :
    (readText self name).run Contents.exec c = (c.readText self name, c) := by
  unfold readText Contents.readText
  rw [run_bind, run_readValue]
  cases c.read self name with
  | error e => rfl
  | ok value =>
    rw [ok_bind]
    dsimp only
    cases value with
    | dict items =>
      unfold Contents.textOf
      dsimp only
      split
      · cases listedChunks items with
        | error e => rfl
        | ok chunks =>
          rw [liftM_ok_bind, run_bind, run_readParts, ok_bind]
          cases c.readParts self chunks <;> rfl
      · rfl
    | _ => rfl

end Run

theorem coherent_emptySample : emptySample.Coherent := Directory.coherent_init ..

theorem contents_emptySample :
    emptySample.contents = ⟨fun _ => none, [], sampleConfig.policy, 0, [], []⟩ :=
  Directory.contents_init ..

end FileSystem
