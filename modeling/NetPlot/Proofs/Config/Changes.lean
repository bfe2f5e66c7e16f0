/-
  Configurations that are read and then changed.

  1. **Changes** — a `Change` is one call of a setter, or of `apply` with values of a command line.
     Whatever it is, it sets the four fields of `Overrides` to what can be used of the values given
     for them and keeps the rest (`Change.on_eq`), so a sequence of changes leaves in each field the
     last usable value (`run_eq`).

  2. **Validity** — a configuration is `Valid` when every field has a value that could be read.  The
     defaults are, each usable value is, and so is what an entry or a change puts in their place.

  3. **Reading** — after a text and changes, every field has the last usable value that it was
     given, be it by the text or by a change, and the configuration is valid
     (`config_of_read`).
-/
import NetPlot.Config.Entries
import NetPlot.Proofs.Label.RoundTrip
import NetPlot.Proofs.Text.Ends

namespace NetPlot.Config

open NetPlot.Label NetPlot.Text NetPlot.Toml

/-! ## Last values -/

/-- The last of the values that the members of a list give, or `before` if none gives any. -/
def lastGiven {α β : Type} (given? : α → Option β) (l : List α) (before : β) : β :=
  (l.filterMap given?).getLastD before

section

variable {α β : Type} (given? : α → Option β)

@[simp] theorem lastGiven_nil (before : β) : lastGiven given? [] before = before := rfl

theorem lastGiven_cons (a : α) (l : List α) (before : β) :
    lastGiven given? (a :: l) before = lastGiven given? l ((given? a).getD before) := by
  cases h : given? a with
  | none => simp [lastGiven, h]
  | some b => rw [lastGiven, List.filterMap_cons_some h, List.getLastD_cons]; rfl

end

/-! ## Changes

Whether a setter takes a value depends on the value alone, not on the configuration that it is
called on.  That is why a sequence of calls can be read off for each field by itself. -/

/-- A call that changes a configuration. -/
inductive Change where
  | direction (s : String)
  | level (i : Int)
  | format (s : String)
  | program (s : String)
  | overrides (o : Overrides)

namespace Change

/-- The values that a change gives. -/
def values : Change → Overrides
  | direction s => { Overrides.none with direction := some s }
  | level i => { Overrides.none with level := some i }
  | format s => { Overrides.none with format := some s }
  | program s => { Overrides.none with program := some s }
  | overrides o => o

/-- The configuration after a change. -/
def on (c : Config) : Change → Config
  | direction s => (c.setDirection s).1
  | level i => (c.setLevel i).1
  | format s => (c.setFormat s).1
  | program s => (c.setProgram s).1
  | overrides o => (c.apply o).1

/-- The direction that a change gives, if it can be used. -/
def direction? (change : Change) : Option PlotDirection :=
  change.values.direction.bind PlotDirection.ofText?

/-- The level that a change gives, if it can be used. -/
def level? (change : Change) : Option Nat := change.values.level.bind Config.level?

/-- The format that a change gives, if it can be used. -/
def format? (change : Change) : Option String := change.values.format.bind Config.format?

/-- The layout program that a change gives, if it can be used. -/
def program? (change : Change) : Option String := change.values.program.bind Config.program?

end Change

section

variable (c : Config)

/-- A setter sets what can be used, and leaves the configuration otherwise. -/
theorem fst_setIf {α : Type} (usable : Option α) (set : α → Config) (kept : Config) (w : Warning) :
    (setIf usable set kept w).1 = (usable.map set).getD kept := by
  cases usable <;> rfl

theorem fst_setDirection (s : String) : (c.setDirection s).1 =
    { c with direction := (PlotDirection.ofText? s).getD c.direction } := by
  rw [setDirection, fst_setIf]
  cases PlotDirection.ofText? s <;> rfl

theorem fst_setLevel (i : Int) :
    (c.setLevel i).1 = { c with maxLevel := (level? i).getD c.maxLevel } := by
  rw [setLevel, fst_setIf]
  cases level? i <;> rfl

theorem fst_setFormat (s : String) :
    (c.setFormat s).1 = { c with format := (format? s).getD c.format } := by
  rw [setFormat, fst_setIf]
  cases format? s <;> rfl

theorem fst_setProgram (s : String) :
    (c.setProgram s).1 = { c with program := (program? s).getD c.program } := by
  rw [setProgram, fst_setIf]
  cases program? s <;> rfl

/-- Overrides set each field to its value if one is given and can be used. -/
theorem fst_apply (o : Overrides) : (c.apply o).1 =
    { c with
      direction := (o.direction.bind PlotDirection.ofText?).getD c.direction
      maxLevel := (o.level.bind level?).getD c.maxLevel
      format := (o.format.bind format?).getD c.format
      program := (o.program.bind program?).getD c.program } := by
  obtain ⟨direction, level, format, program⟩ := o
  cases direction <;> cases level <;> cases format <;> cases program <;>
    simp [apply, setGiven, fst_setDirection, fst_setLevel, fst_setFormat, fst_setProgram]

/-- A change sets each field to the value that it gives, if any, and keeps the rest. -/
theorem Change.on_eq (change : Change) : change.on c =
    { c with
      direction := change.direction?.getD c.direction
      maxLevel := change.level?.getD c.maxLevel
      format := change.format?.getD c.format
      program := change.program?.getD c.program } := by
  simp only [direction?, level?, format?, program?]
  cases change with
  | direction s => simp [on, fst_setDirection, values, Overrides.none]
  | level i => simp [on, fst_setLevel, values, Overrides.none]
  | format s => simp [on, fst_setFormat, values, Overrides.none]
  | program s => simp [on, fst_setProgram, values, Overrides.none]
  | overrides o => exact c.fst_apply o

/-- The configuration after changes, one after the other. -/
def run (changes : List Change) : Config := changes.foldl (fun c change => change.on c) c

/-- Changes leave in each field the last value that they give for it. -/
theorem run_eq (changes : List Change) : c.run changes =
    { c with
      direction := lastGiven Change.direction? changes c.direction
      maxLevel := lastGiven Change.level? changes c.maxLevel
      format := lastGiven Change.format? changes c.format
      program := lastGiven Change.program? changes c.program } := by
  induction changes generalizing c with
  | nil => rfl
  | cons change changes ih =>
    rw [run, List.foldl_cons, ← run, ih, change.on_eq]
    simp only [lastGiven_cons]

/-- What overrides set, they set again to the same. -/
theorem apply_apply (o : Overrides) : ((c.apply o).1.apply o).1 = (c.apply o).1 := by
  have hagain : ∀ {α : Type} (given : Option α) (kept : α),
      given.getD (given.getD kept) = given.getD kept := fun given _ => by cases given <;> rfl
  simp only [fst_apply, hagain]

end

/-- Each setter sets its field if the value can be used, and nothing else; overrides set what they
set once and for all. -/
structure SetsAlone (c : Config) : Prop where
  direction : ∀ s, (c.setDirection s).1 =
    { c with direction := (PlotDirection.ofText? s).getD c.direction }
  level : ∀ i, (c.setLevel i).1 = { c with maxLevel := (level? i).getD c.maxLevel }
  format : ∀ s, (c.setFormat s).1 = { c with format := (format? s).getD c.format }
  program : ∀ s, (c.setProgram s).1 = { c with program := (program? s).getD c.program }
  again : ∀ o, ((c.apply o).1.apply o).1 = (c.apply o).1

/-- All four setters, and overrides that are set twice. -/
theorem setsAlone (c : Config) : c.SetsAlone :=
  ⟨c.fst_setDirection, c.fst_setLevel, c.fst_setFormat, c.fst_setProgram, c.apply_apply⟩

/-! ## Validity

`Valid` is the invariant of configurations.  A field is either at its default or holds a value that
has passed its check, so the defaults and the checks are all there is to look at. -/

/-- A configuration that the compilers can rely on. -/
structure Valid (c : Config) : Prop where
  level : 1 ≤ c.maxLevel ∧ c.maxLevel < 0x100000000
  format : c.format ∈ formats
  program : c.program ∈ programs
  leafColor : Color.isColor c.leafColor = true ∧ trim c.leafColor = c.leafColor
  boxColor : Color.isColor c.boxColor = true ∧ trim c.boxColor = c.boxColor
  label : ∀ k, Spec.parse (c.labels.get k).display = .ok (c.labels.get k)

/-- The defaults pass the checks of their own fields. -/
theorem valid_default : Config.default.Valid where
  level := by decide
  format := by decide +kernel
  program := by decide +kernel
  leafColor := by decide +kernel
  boxColor := by decide +kernel
  label k := by cases k <;> decide +kernel

/-- What a field settles to has what its default and all its usable values have. -/
theorem Field.value_of {α : Type} {P : α → Prop} (f : Field α) (t : Table) (hd : P f.default)
    (hu : ∀ v a, f.usable? v = some a → P a) : P (f.value t) := by
  rw [Field.value]
  cases h : (t.lookup f.key).bind f.usable? with
  | none => exact hd
  | some a =>
    obtain ⟨v, -, hv⟩ := Option.bind_eq_some_iff.1 h
    exact hu v a hv

/-- A colour is kept without the blanks around it, and is one without them. -/
theorem isColor_of_color? {s t : String} (h : color? s = some t) :
    Color.isColor t = true ∧ trim t = t := by
  rw [color?, Option.ite_none_right_eq_some, Option.some.injEq] at h
  obtain ⟨hs, rfl⟩ := h
  refine ⟨?_, trim_trim s⟩
  have htrim := trimChars_of_trimmed (trimmed_trimChars s.toList)
  rwa [Color.isColor, trim, String.toList_ofList, htrim]

/-- Blocks of columns that fit are read back as the specification that they are written from. -/
theorem parse_display_of_fits {spec : Spec} (hrows : ∀ row ∈ spec.rows, row ≠ [])
    (hfit : ∀ b ∈ spec.toBlocks, ∀ t ∈ b.columns, Fits b.kind t) :
    Spec.parse spec.display = .ok spec := by
  have hskip : skipBlanks spec.display.toList =
      [' '].intercalate (spec.toBlocks.map Block.chars) := by
    rw [Spec.toList_display, skipBlanks_joined]
  rw [Spec.parse, blocks_joined hfit hskip]
  exact congrArg Except.ok (Spec.ofBlocks_toBlocks hrows)

/-- A label that can be used is read back from its canonical text. -/
theorem parse_display_of_usable {k : LabelKind} {v : Value} {spec : Spec}
    (h : (labelField k).usable? v = some spec) : Spec.parse spec.display = .ok spec := by
  cases v with
  | string s =>
    obtain ⟨hrows, hfit⟩ := Spec.fits_of_parse (eq_ok_of_toOption h)
    exact parse_display_of_fits hrows hfit
  | _ => cases h

/-- What entries say is valid, whatever they say. -/
theorem Entries.valid_config (e : Entries) : e.config.Valid where
  -- each field takes a usable entry or keeps the default, and both are checked values
  level := by
    refine levelField.value_of (P := fun l => 1 ≤ l ∧ l < 0x100000000) e.top valid_default.level
      fun v l h => ?_
    cases v with
    | integer i =>
      obtain ⟨hl, hl', -⟩ := level?_eq_some.1 h
      exact ⟨hl, hl'⟩
    | _ => cases h
  format := by
    refine formatField.value_of (P := (· ∈ formats)) e.top valid_default.format fun v f h => ?_
    simp only [formatField] at h
    exact format?_mem h
  program := by
    refine programField.value_of (P := (· ∈ programs)) e.top valid_default.program fun v p h => ?_
    simp only [programField] at h
    exact program?_mem h
  leafColor := leafColorField.value_of (P := fun s => Color.isColor s = true ∧ trim s = s) e.colors
    valid_default.leafColor fun _ _ h => isColor_of_color? h
  boxColor := boxColorField.value_of (P := fun s => Color.isColor s = true ∧ trim s = s) e.colors
    valid_default.boxColor fun _ _ h => isColor_of_color? h
  label k := by
    have hget : e.config.labels.get k = (labelField k).value e.labels := Labels.get_ofKinds _ k
    rw [hget]
    exact (labelField k).value_of (P := fun spec => Spec.parse spec.display = .ok spec) e.labels
      (valid_default.label k) fun _ _ h => parse_display_of_usable h

/-- A value that is kept or comes from a usable one has what both have. -/
theorem getD_of {α β : Type} {P : β → Prop} {usable? : α → Option β} {given : Option α} {kept : β}
    (hk : P kept) (hu : ∀ a b, usable? a = some b → P b) : P ((given.bind usable?).getD kept) := by
  cases h : given.bind usable? with
  | none => exact hk
  | some b =>
    obtain ⟨a, -, ha⟩ := Option.bind_eq_some_iff.1 h
    exact hu a b ha

/-- A change keeps a configuration valid. -/
theorem Valid.on {c : Config} (h : c.Valid) (change : Change) : (change.on c).Valid := by
  rw [change.on_eq]
  exact {
    level := getD_of (P := fun l => 1 ≤ l ∧ l < 0x100000000) h.level
      fun _ _ hl => ⟨(level?_eq_some.1 hl).1, (level?_eq_some.1 hl).2.1⟩
    format := getD_of (P := (· ∈ formats)) h.format fun _ _ hf => format?_mem hf
    program := getD_of (P := (· ∈ programs)) h.program fun _ _ hp => program?_mem hp
    leafColor := h.leafColor
    boxColor := h.boxColor
    label := h.label }

/-- So do changes one after the other. -/
theorem Valid.run {c : Config} (h : c.Valid) (changes : List Change) : (c.run changes).Valid := by
  induction changes generalizing c with
  | nil => exact h
  | cons change changes ih => exact ih (h.on change)

/-! ## Reading -/

/-- A configuration that is read is what the entries of the text say. -/
theorem exists_entries_of_read {text : String} {c : Config} (h : (read text).result = .ok c) :
    ∃ e, (Toml.parse? text).bind Entries.ofTable? = some e ∧ c = e.config := by
  rw [read] at h
  split at h
  next => cases h
  next e he =>
    refine ⟨e, he, ?_⟩
    rw [ofEntries] at h
    split at h <;> cases h
    rfl

/-- The last usable value of a field: one of those given later, or else that of the table. -/
def Field.settled {α : Type} (f : Field α) (t : Table) (later : List α) : α :=
  (((t.lookup f.key).bind f.usable?).toList ++ later).getLastD f.default

/-- With the values given later, a field is settled as they say, or else as the table does. -/
theorem Field.settled_eq {α β : Type} (f : Field α) (t : Table) (given? : β → Option α)
    (l : List β) : f.settled t (l.filterMap given?) = lastGiven given? l (f.value t) := by
  rw [settled, value, lastGiven]
  cases (t.lookup f.key).bind f.usable? with
  | none => rfl
  | some a => rw [Option.toList_some, List.singleton_append, List.getLastD_cons, Option.getD_some]

/-- **Configurations.**  A text that is read and any changes after it give a valid configuration.
Each field has the last usable value given for it, first by the text and then by the changes, and
its default if there is none; only four of the fields can be given values by changes.  Each setter
touches its own field alone, and to apply overrides again changes nothing. -/
theorem config_of_read {text : String} {c : Config} (h : (read text).result = .ok c)
    (changes : List Change) :
    (c.run changes).Valid ∧ (c.run changes).SetsAlone ∧
      ∃ e, (Toml.parse? text).bind Entries.ofTable? = some e ∧
        c.run changes = { e.config with
          direction := directionField.settled e.top (changes.filterMap Change.direction?)
          maxLevel := levelField.settled e.top (changes.filterMap Change.level?)
          format := formatField.settled e.top (changes.filterMap Change.format?)
          program := programField.settled e.top (changes.filterMap Change.program?) } := by
  obtain ⟨e, he, rfl⟩ := exists_entries_of_read h
  refine ⟨e.valid_config.run changes, setsAlone _, e, he, ?_⟩
  rw [run_eq]
  simp only [Field.settled_eq]
  rfl

/-- A format from the text, a level and a program from changes; a level and a format that cannot be
used change nothing. -/
theorem config_of_read_sample :
    ∃ c, (read "format = ' svg '").result = .ok c ∧
      let d := c.run [.level 7, .level 0, .overrides ⟨some "tb ", none, some "bmp", some "fdp"⟩]
      d.Valid ∧ d.SetsAlone ∧ (d.direction, d.maxLevel, d.format, d.program) =
        (.topBottom, 7, "svg", "fdp") := by
  have hread : ∃ c ∈ (read "format = ' svg '").result.toOption,
      let d := c.run [.level 7, .level 0, .overrides ⟨some "tb ", none, some "bmp", some "fdp"⟩]
      (d.direction, d.maxLevel, d.format, d.program) = (.topBottom, 7, "svg", "fdp") := by
    decide +kernel
  obtain ⟨c, hc, hd⟩ := hread
  have hresult := eq_ok_of_toOption hc
  obtain ⟨hv, hs, -⟩ := config_of_read hresult
    [.level 7, .level 0, .overrides ⟨some "tb ", none, some "bmp", some "fdp"⟩]
  exact ⟨c, hresult, hv, hs, hd⟩

end NetPlot.Config
