/-
  Configurations that are read key after key.

  1. **Steps** — `Config.accept` takes one value into a configuration by the setter of its key, with
     a warning that names what holds at that time, and refuses a label that breaks the grammar
     (`accept_eq`).  `Reading.take` takes the key out of what is left of the text.

  2. **Run** — `inSequence` takes the keys of the top and then those of each section, and what is
     left in a section when its keys are taken means nothing there.

  3. **Invariant** — after some keys, their fields are settled, all others have their defaults, and
     the text is left without them (`Reading.After`).  A step keeps that (`After.take`), and so does
     a run over keys that are not refused (`After.run`).

  4. **Agreement** — so to read key after key is to read each field on its own
     (`inSequence_eq_ofEntries`), and every field, every warning and the one way to fail come down
     to single keys (`ofEntries_by_keys`).
-/
import NetPlot.Proofs.Config.Keys

namespace NetPlot.Config

open NetPlot.Label NetPlot.Toml

/-! ## Steps

A setter that warns names the value that holds at that time.  With the default still in place this
is the default, and the step is that of the field on its own (`accept_eq`). -/

/-- A configuration with the label of a kind replaced. -/
def setLabel (c : Config) (k : LabelKind) (spec : Spec) : Config :=
  { c with labels := .ofKinds fun k' => if k' = k then spec else c.labels.get k' }

/-- A configuration with the field of a key replaced. -/
def set (c : Config) : (key : Key) → key.Meaning → Config
  | .direction, d => { c with direction := d }
  | .level, l => { c with maxLevel := l }
  | .format, f => { c with format := f }
  | .program, p => { c with program := p }
  | .label k, spec => c.setLabel k spec
  | .inputPorts, b => { c with clusters.inputPorts := b }
  | .outputPorts, b => { c with clusters.outputPorts := b }
  | .sources, b => { c with clusters.sources := b }
  | .sinks, b => { c with clusters.sinks := b }
  | .others, b => { c with clusters.others := b }
  | .leafColor, s => { c with leafColor := s }
  | .boxColor, s => { c with boxColor := s }
  | .gradient, g => { c with gradient := g }

theorem get_set_same (c : Config) (key : Key) (a : key.Meaning) : (c.set key a).get key = a := by
  cases key with
  | label k =>
    show (Labels.ofKinds _).get k = a
    rw [Labels.get_ofKinds, if_pos rfl]
  | _ => rfl

/-- Setting one key leaves the fields of all others alone. -/
theorem get_set_other (c : Config) {key other : Key} (a : key.Meaning) (h : other ≠ key) :
    (c.set key a).get other = c.get other := by
  cases other with
  | label k' =>
    cases key with
    | label k =>
      -- all labels are in one field, and told apart by their kinds
      have hk : k' ≠ k := fun hk => h (congrArg Key.label hk)
      show (Labels.ofKinds _).get k' = c.labels.get k'
      rw [Labels.get_ofKinds, if_neg hk]
    | _ => rfl
  | _ => cases key <;> first | rfl | exact absurd rfl h

/-- Why a value stops the reading: only a label that breaks the grammar does. -/
def Key.refusal? : Key → Value → Option Error
  | label k, .string s =>
    match Spec.parse s with
    | .error cause => some (.badLabel k cause)
    | .ok _ => none
  | _, _ => none

/-- Takes the label of a kind. -/
def acceptLabel (c : Config) (k : LabelKind) : Value → Except Error (Config × List Warning)
  | .string s =>
    match Spec.parse s with
    | .error cause => .error (.badLabel k cause)
    | .ok spec => .ok (c.setLabel k spec, [])
  | v => .ok (c, [.label k v])

/-- Takes the level from which composites stay closed. -/
def acceptLevel (c : Config) : Value → Config × List Warning
  | .integer i => c.setLevel i
  | v => (c, [.levelKind v c.maxLevel])

/-- Takes a flag, which is set by `set`. -/
def acceptFlag (c : Config) (key : Key) (kept : Bool) (set : Bool → Config) (v : Value) :
    Config × List Warning :=
  setIf (flag? v) set c (.flag key.name v kept)

/-- Takes a colour, which is set by `set`. -/
def acceptColor (c : Config) (key : Key) (kept : String) (set : String → Config) (v : Value) :
    Config × List Warning :=
  setIf (color? (plainText v)) set c (.color key.name (plainText v) kept)

/-- Takes the value of a key, or warns about it; a label that breaks the grammar is refused. -/
def accept (c : Config) (v : Value) : Key → Except Error (Config × List Warning)
  | .direction => .ok (c.setDirection (plainText v))
  | .level => .ok (c.acceptLevel v)
  | .format => .ok (c.setFormat (plainText v))
  | .program => .ok (c.setProgram (plainText v))
  | .label k => c.acceptLabel k v
  | .inputPorts =>
    .ok (c.acceptFlag .inputPorts c.clusters.inputPorts (c.set .inputPorts) v)
  | .outputPorts =>
    .ok (c.acceptFlag .outputPorts c.clusters.outputPorts (c.set .outputPorts) v)
  | .sources => .ok (c.acceptFlag .sources c.clusters.sources (c.set .sources) v)
  | .sinks => .ok (c.acceptFlag .sinks c.clusters.sinks (c.set .sinks) v)
  | .others => .ok (c.acceptFlag .others c.clusters.others (c.set .others) v)
  | .leafColor => .ok (c.acceptColor .leafColor c.leafColor (c.set .leafColor) v)
  | .boxColor => .ok (c.acceptColor .boxColor c.boxColor (c.set .boxColor) v)
  | .gradient => .ok (setIf (gradient? v) (c.set .gradient) c (.gradient v c.gradient))

/-- Where the default holds so far, a value that is not refused is taken as its field takes it. -/
theorem accept_eq {c : Config} {key : Key} (v : Value) (h : c.get key = Config.default.get key) :
    c.accept v key = match key.refusal? v with
      | some err => .error err
      | none =>
        .ok (setIf (key.field.usable? v) (c.set key) c (key.field.complaint v)) := by
  -- the setters name what holds at the time, the fields their defaults
  cases key with
  | label k =>
    cases v with
    | string s =>
      show c.acceptLabel k (.string s) = match (Key.label k).refusal? (.string s) with
        | some err => .error err
        | none => .ok (setIf (Spec.parse s).toOption (c.setLabel k) c (.label k (.string s)))
      rw [acceptLabel, Key.refusal?]
      cases Spec.parse s <;> rfl
    | _ => rfl
  | level =>
    have hlevel : c.maxLevel = Config.default.maxLevel := h
    cases v with
    | integer i =>
      show Except.ok (c.setLevel i) = _
      rw [setLevel, hlevel]
      rfl
    | _ =>
      simp only [accept, acceptLevel, hlevel]
      rfl
  | direction | format | program =>
    simp only [get] at h
    simp only [accept, setDirection, setFormat, setProgram, h, Key.refusal?, Key.field,
      directionField, formatField, programField]
    rfl
  | inputPorts | outputPorts | sources | sinks | others =>
    simp only [get] at h
    simp only [accept, acceptFlag, h]
    rfl
  | leafColor | boxColor =>
    simp only [get] at h
    simp only [accept, acceptColor, h]
    rfl
  | gradient =>
    simp only [get] at h
    simp only [accept, h]
    rfl

/-! ## Run -/

/-- A configuration that is being read: what holds so far, what is left of the text, and the
warnings. -/
structure Reading where
  config : Config
  rest : Entries
  warnings : List Warning

namespace Reading

/-- Takes a key out of the text and its value into the configuration. -/
def take (r : Reading) (key : Key) : Except Outcome Reading :=
  match r.rest.value? key with
  | none => .ok r
  | some v =>
    match r.config.accept v key with
    | .error err => .error ⟨r.warnings, .error err⟩
    | .ok (c, warnings) => .ok ⟨c, r.rest.without key, r.warnings ++ warnings⟩

/-- Warns about what is left in a section. -/
def leave (r : Reading) (part : Part) : Reading :=
  { r with warnings :=
      r.warnings ++ (r.rest.table part).map fun x => .unknownKey part.name? x.1 }

/-- Takes the keys of a section, and warns about what they leave. -/
def takeSection (r : Reading) (part : Part) : Except Outcome Reading :=
  ((Key.ofPart part).foldlM take r).map (·.leave part)

/-- The defaults and the whole text, with warnings about what means nothing at the top. -/
def start (e : Entries) : Reading := ⟨.default, e, unknownKeys none topKeys e.top⟩

/-- Takes the keys of the top and then the sections. -/
def run (r : Reading) : Except Outcome Reading := do
  let r ← (Key.ofPart .top).foldlM take r
  let r ← r.takeSection .labels
  let r ← r.takeSection .clusters
  r.takeSection .colors

end Reading

/-- Reads a text key after key. -/
def inSequence (e : Entries) : Outcome :=
  match (Reading.start e).run with
  | .error outcome => outcome
  | .ok r => ⟨r.warnings, .ok r.config⟩

/-! ## Invariant

`After` says which keys have been read: their fields are those of the whole text, the others have
their defaults still, and what is left of the text is the text without those keys.  A key is read
once, since no two keys share a name in one part. -/

namespace Entries

/-- A key that is not taken out keeps its value. -/
theorem value?_foldl_without {e : Entries} {keys : List Key} {key : Key} (h : key ∉ keys) :
    (keys.foldl without e).value? key = e.value? key := by
  induction keys generalizing e with
  | nil => rfl
  | cons other keys ih =>
    obtain ⟨hne, hkeys⟩ := not_or.1 (mt List.mem_cons.2 h)
    rw [List.foldl_cons, ih hkeys, value?_without_other e hne]

/-- A key without a value has no entries to take out. -/
theorem without_of_value?_eq_none {e : Entries} {key : Key} (h : e.value? key = none) :
    e.without key = e := by
  -- a name that is not found has no entry to take out
  have htable : (e.table key.part).without key.name = e.table key.part := by
    rw [Table.without, List.filter_eq_self]
    intro x hx
    have hne : (key.name != x.1) = true := List.lookup_eq_none_iff.1 h x hx
    exact decide_eq_true (bne_iff_ne.1 hne).symm
  rw [without]
  cases hp : key.part <;> rw [hp] at htable
  · exact congrArg (fun t => { e with top := t }) htable
  · exact congrArg (fun t => { e with labels := t }) htable
  · exact congrArg (fun t => { e with clusters := t }) htable
  · exact congrArg (fun t => { e with colors := t }) htable

/-- Without some keys, a part is left without the names that they have there. -/
theorem table_foldl_without (e : Entries) (keys : List Key) (part : Part) :
    (keys.foldl without e).table part = (e.table part).filter fun x =>
      !((keys.filter (·.part = part)).map Key.name).contains x.1 := by
  induction keys generalizing e with
  | nil => simp
  | cons key keys ih =>
    rw [List.foldl_cons, ih, without]
    -- the first key takes out its name in its own part and leaves the others alone
    by_cases h : part = key.part
    · subst h
      rw [table_modify_same, Table.without, List.filter_filter]
      refine List.filter_congr fun x _ => ?_
      by_cases hx : x.1 = key.name <;> simp [hx]
    · rw [table_modify_other _ _ h, List.filter_cons_of_neg (by simpa using Ne.symm h)]

end Entries

/-- What reading some keys of a text leads to. -/
structure Reading.After (e : Entries) (keys : List Key) (r : Reading) : Prop where
  get : ∀ key, r.config.get key = if key ∈ keys then e.config.get key else Config.default.get key
  rest : r.rest = keys.foldl Entries.without e

namespace Reading.After

variable {e : Entries} {keys : List Key} {r : Reading}

theorem value?_eq (h : r.After e keys) {key : Key} (hkey : key ∉ keys) :
    r.rest.value? key = e.value? key := by
  rw [h.rest, Entries.value?_foldl_without hkey]

theorem get_eq_default (h : r.After e keys) {key : Key} (hkey : key ∉ keys) :
    r.config.get key = Config.default.get key := by
  rw [h.get, if_neg hkey]

/-- A key that is refused ends the reading with the warnings so far. -/
theorem take_of_refused (h : r.After e keys) {key : Key} (hkey : key ∉ keys) {err : Error}
    (herr : (e.value? key).bind key.refusal? = some err) :
    r.take key = .error ⟨r.warnings, .error err⟩ := by
  obtain ⟨v, hv, hrefused⟩ := Option.bind_eq_some_iff.1 herr
  rw [Reading.take, h.value?_eq hkey, hv]
  simp only [accept_eq v (h.get_eq_default hkey), hrefused]

/-- With the field of one more key settled and the key taken out, the reading is one key on. -/
theorem next (h : r.After e keys) {key : Key} {c : Config} (hkey : c.get key = e.config.get key)
    (hother : ∀ other, other ≠ key → c.get other = r.config.get other) (warnings : List Warning) :
    (Reading.mk c (r.rest.without key) warnings).After e (keys ++ [key]) where
  get other := by
    show c.get other = _
    by_cases hk : other = key
    · rw [hk, hkey, if_pos (List.mem_append_right keys (List.mem_singleton_self key))]
    · rw [hother other hk, h.get]
      simp only [List.mem_append, List.mem_singleton, hk, or_false]
  rest := by
    rw [List.foldl_append, ← h.rest]
    rfl

/-- A key that is not refused settles its field, and nothing else. -/
theorem take (h : r.After e keys) {key : Key} (hkey : key ∉ keys)
    (hok : (e.value? key).bind key.refusal? = none) :
    ∃ r', r.take key = .ok r' ∧ r'.After e (keys ++ [key]) ∧
      r'.warnings = r.warnings ++ e.complaints key := by
  rw [Reading.take, h.value?_eq hkey, Entries.complaints_eq]
  -- three cases: the key is absent, its value cannot be used, or it can
  have hget := e.get_config key
  cases hv : e.value? key with
  | none =>
    rw [hv] at hget
    have hrest : r.rest.without key = r.rest :=
      Entries.without_of_value?_eq_none ((h.value?_eq hkey).trans hv)
    have hafter := h.next ((h.get_eq_default hkey).trans hget.symm) (fun _ _ => rfl) r.warnings
    rw [hrest] at hafter
    exact ⟨r, rfl, hafter, (List.append_nil _).symm⟩
  | some v =>
    rw [hv] at hget hok
    simp only [Option.bind_some] at hget hok
    simp only [accept_eq v (h.get_eq_default hkey), hok]
    cases hu : key.field.usable? v with
    | none =>
      rw [hu] at hget
      exact ⟨_, rfl, h.next ((h.get_eq_default hkey).trans hget.symm) (fun _ _ => rfl) _, rfl⟩
    | some a =>
      rw [hu] at hget
      exact ⟨_, rfl, h.next ((get_set_same ..).trans hget.symm)
        (fun _ hother => get_set_other _ a hother) _, rfl⟩

/-- A run over keys that are not refused settles their fields. -/
theorem run (h : r.After e keys) (more : List Key) (hnodup : (keys ++ more).Nodup)
    (hok : ∀ key ∈ more, (e.value? key).bind key.refusal? = none) :
    ∃ r', more.foldlM Reading.take r = .ok r' ∧ r'.After e (keys ++ more) ∧
      r'.warnings = r.warnings ++ more.flatMap e.complaints := by
  -- the keys that are taken move from those ahead to those behind
  induction more generalizing keys r with
  | nil => exact ⟨r, rfl, by rwa [List.append_nil], by rw [List.flatMap_nil, List.append_nil]⟩
  | cons key more ih =>
    have hkey : key ∉ keys := fun hmem =>
      (List.nodup_append.1 hnodup).2.2 key hmem key (List.mem_cons_self ..) rfl
    obtain ⟨r₁, hr₁, hafter₁, hw₁⟩ := h.take hkey (hok key (List.mem_cons_self ..))
    rw [List.append_cons] at hnodup ⊢
    obtain ⟨r₂, hr₂, hafter₂, hw₂⟩ :=
      ih hafter₁ hnodup fun other hother => hok other (List.mem_cons_of_mem _ hother)
    refine ⟨r₂, ?_, hafter₂, ?_⟩
    · rw [List.foldlM_cons, hr₁]
      exact hr₂
    · rw [hw₂, hw₁, List.append_assoc, List.flatMap_cons]

/-- A run ends at the first key that is refused. -/
theorem run_of_refused (h : r.After e keys) {before after : List Key} {key : Key} {err : Error}
    (hnodup : (keys ++ (before ++ key :: after)).Nodup)
    (hok : ∀ other ∈ before, (e.value? other).bind other.refusal? = none)
    (herr : (e.value? key).bind key.refusal? = some err) :
    (before ++ key :: after).foldlM Reading.take r =
      .error ⟨r.warnings ++ before.flatMap e.complaints, .error err⟩ := by
  rw [← List.append_assoc] at hnodup
  have hkey : key ∉ keys ++ before := fun hmem =>
    (List.nodup_append.1 hnodup).2.2 key hmem key (List.mem_cons_self ..) rfl
  obtain ⟨r', hr', hafter, hw⟩ := h.run before (List.nodup_append.1 hnodup).1 hok
  rw [List.foldlM_append, hr']
  show (key :: after).foldlM Reading.take r' = _
  rw [List.foldlM_cons, hafter.take_of_refused hkey herr, hw]
  rfl

/-- When the keys of a section are taken, what is left there means nothing. -/
theorem table_eq (h : r.After e keys) {part : Part} (hpart : part ≠ .top)
    (hall : ∀ key ∈ Key.ofPart part, key ∈ keys) : r.rest.table part = e.unknownIn part := by
  -- below the top, the names that are known are those of the keys
  have hknown : ∀ name, name ∈ (keys.filter (·.part = part)).map Key.name ↔ name ∈ part.known := by
    intro name
    rw [Part.known, if_neg hpart, List.append_nil]
    simp only [List.mem_map, List.mem_filter, decide_eq_true_eq]
    constructor
    · rintro ⟨key, ⟨-, rfl⟩, hname⟩
      exact ⟨key, key.mem_ofPart, hname⟩
    · rintro ⟨key, hkey, hname⟩
      exact ⟨key, ⟨hall key hkey, Key.part_of_mem_ofPart hkey⟩, hname⟩
  rw [h.rest, Entries.table_foldl_without, Entries.unknownIn]
  refine List.filter_congr fun x _ => ?_
  rw [Bool.eq_iff_iff, Bool.not_eq_true', Bool.not_eq_true', ← Bool.not_eq_true,
    ← Bool.not_eq_true, List.contains_iff_mem, List.contains_iff_mem, hknown]

/-- A section whose keys are not refused has their fields settled, with a warning for each entry
that means nothing. -/
theorem takeSection (h : r.After e keys) (part : Part) (hpart : part ≠ .top)
    (hnodup : (keys ++ Key.ofPart part).Nodup)
    (hok : ∀ key ∈ Key.ofPart part, (e.value? key).bind key.refusal? = none) :
    ∃ r', r.takeSection part = .ok r' ∧ r'.After e (keys ++ Key.ofPart part) ∧
      r'.warnings = r.warnings ++ (Key.ofPart part).flatMap e.complaints ++ e.strays part := by
  obtain ⟨r', hr', hafter, hw⟩ := h.run (Key.ofPart part) hnodup hok
  refine ⟨r'.leave part, ?_, ⟨hafter.get, hafter.rest⟩, ?_⟩
  · rw [Reading.takeSection, hr']
    rfl
  · rw [Reading.leave, hw, Entries.strays,
      hafter.table_eq hpart fun key hkey => List.mem_append_right keys hkey]

end Reading.After

/-! ## Agreement

Only labels can be refused, and they come right after the top.  So a reading either stops at the
first label that breaks the grammar or goes through to the end, and both ways are compared with the
reading of the fields on their own. -/

/-- The text of a kind's label breaks the grammar. -/
def Entries.Breaks (e : Entries) (k : LabelKind) (cause : Label.Error) : Prop :=
  ∃ s, e.value? (.label k) = some (.string s) ∧ Spec.parse s = .error cause

namespace Entries

variable (e : Entries)

/-- A label is in error exactly if its text breaks the grammar, and the error is about that label.
-/
theorem labelError?_eq_some {k k' : LabelKind} {cause : Label.Error} :
    labelError? e.labels k = some (k', cause) ↔ k' = k ∧ e.Breaks k cause := by
  have hvalue : e.labels.lookup k.key = e.value? (.label k) := rfl
  rw [labelError?, hvalue, Breaks]
  split
  next s hs =>
    rw [hs]
    cases hp : Spec.parse s <;> simp [hp, eq_comm]
  next v hv =>
    simp only [reduceCtorEq, false_iff, not_and]
    rintro - ⟨s, hs, -⟩
    exact hv s hs

theorem labelError?_eq_none {k : LabelKind} :
    labelError? e.labels k = none ↔ ∀ cause, ¬ e.Breaks k cause := by
  constructor
  · intro hnone cause hbreaks
    have hsome : labelError? e.labels k = some (k, cause) :=
      e.labelError?_eq_some.2 ⟨rfl, hbreaks⟩
    rw [hnone] at hsome
    cases hsome
  · intro hnot
    -- an error would be a break of the grammar
    cases h : labelError? e.labels k with
    | none => rfl
    | some p => exact absurd (e.labelError?_eq_some.1 h).2 (hnot p.2)

/-- A label is refused if it breaks the grammar. -/
theorem bind_refusal?_label (k : LabelKind) :
    (e.value? (.label k)).bind (Key.label k).refusal? =
      (labelError? e.labels k).map fun p => .badLabel p.1 p.2 := by
  have hvalue : e.value? (.label k) = e.labels.lookup k.key := rfl
  rw [hvalue, labelError?]
  cases e.labels.lookup k.key with
  | none => rfl
  | some v =>
    cases v with
    | string s =>
      show (Key.label k).refusal? (.string s) = _
      rw [Key.refusal?]
      cases hs : Spec.parse s <;> simp [hs]
    | _ => rfl

/-- Only labels are refused. -/
theorem bind_refusal?_of_part {part : Part} (h : part ≠ .labels) :
    ∀ key ∈ Key.ofPart part, (e.value? key).bind key.refusal? = none := by
  intro key hkey
  rw [← Key.part_of_mem_ofPart hkey] at h
  cases key with
  | label k => exact absurd rfl h
  | _ => exact Option.bind_eq_none_iff.2 fun _ _ => rfl

/-- The first label that breaks the grammar, with those before it. -/
theorem exists_first_break {k : LabelKind} {cause : Label.Error}
    (h : LabelKind.all.findSome? (labelError? e.labels) = some (k, cause)) :
    ∃ before after, LabelKind.all = before ++ k :: after ∧
      (∀ j ∈ before, labelError? e.labels j = none) ∧ labelError? e.labels k = some (k, cause) := by
  obtain ⟨before, j, after, hall, hj, hbefore⟩ := List.findSome?_eq_some_iff.1 h
  obtain ⟨rfl, -⟩ := e.labelError?_eq_some.1 hj
  exact ⟨before, after, hall, hbefore, hj⟩

end Entries

namespace Reading

/-- The keys of the top are never refused. -/
theorem exists_after_top (e : Entries) : ∃ r, (Key.ofPart .top).foldlM take (start e) = .ok r ∧
    r.After e (Key.ofPart .top) ∧ r.warnings = topWarnings e.top := by
  have hstart : (start e).After e [] := ⟨fun _ => (if_neg List.not_mem_nil).symm, rfl⟩
  obtain ⟨r, hr, hafter, hw⟩ :=
    hstart.run (Key.ofPart .top) (by decide) (e.bind_refusal?_of_part (by decide))
  refine ⟨r, hr, hafter, ?_⟩
  rw [hw, e.topWarnings_eq]
  rfl

/-- A label that breaks the grammar ends the reading, with the warnings up to there. -/
theorem run_start_of_break {e : Entries} {k : LabelKind} {cause : Label.Error}
    (hfind : LabelKind.all.findSome? (labelError? e.labels) = some (k, cause)) :
    (start e).run =
      .error ⟨topWarnings e.top ++ labelWarnings (LabelKind.all.takeWhile (· ≠ k)) e.labels,
        .error (.badLabel k cause)⟩ := by
  obtain ⟨r, hr, hafter, hw⟩ := exists_after_top e
  obtain ⟨before, after, hall, hbefore, hk⟩ := e.exists_first_break hfind
  -- the labels before the first one that breaks the grammar are taken as usual
  have hkeys : Key.ofPart .labels = before.map .label ++ .label k :: after.map .label := by
    rw [Key.ofPart, hall, List.map_append, List.map_cons]
  have hfine : ∀ key ∈ before.map Key.label, (e.value? key).bind key.refusal? = none :=
    List.forall_mem_map.2 fun j hj => by
      rw [e.bind_refusal?_label, hbefore j hj]
      rfl
  have hrefused : (e.value? (.label k)).bind (Key.label k).refusal? = some (.badLabel k cause) := by
    rw [e.bind_refusal?_label, hk]
    rfl
  have hnodup : (Key.ofPart .top ++ Key.ofPart .labels).Nodup := by decide
  rw [hkeys] at hnodup
  have hrun := hafter.run_of_refused hnodup hfine hrefused
  have htake : LabelKind.all.takeWhile (· ≠ k) = before := by
    have hnodup : LabelKind.all.Nodup := by decide
    rw [hall] at hnodup ⊢
    have hne : ∀ j ∈ before, decide (j ≠ k) = true := fun j hj =>
      decide_eq_true ((List.nodup_append.1 hnodup).2.2 j hj k (List.mem_cons_self ..))
    rw [List.takeWhile_append_of_pos hne, List.takeWhile_cons_of_neg (by simp), List.append_nil]
  rw [← hkeys, hw, ← e.labelWarnings_eq, ← htake] at hrun
  simp only [run, hr, takeSection, hrun, bind, Except.bind, Except.map]

/-- Otherwise the reading goes through, with all warnings. -/
theorem run_start_of_fine {e : Entries}
    (hfind : LabelKind.all.findSome? (labelError? e.labels) = none) :
    ∃ r, (start e).run = .ok r ∧ r.config = e.config ∧ r.warnings = e.warnings := by
  have hlabels : ∀ key ∈ Key.ofPart .labels, (e.value? key).bind key.refusal? = none :=
    List.forall_mem_map.2 fun k hk => by
      rw [e.bind_refusal?_label, List.findSome?_eq_none_iff.1 hfind k hk]
      rfl
  -- top level and sections are taken in this order, each leaving the keys of the others in place
  obtain ⟨r₁, hr₁, hafter₁, hw₁⟩ := exists_after_top e
  obtain ⟨r₂, hr₂, hafter₂, hw₂⟩ :=
    hafter₁.takeSection .labels (by decide) (by decide) hlabels
  obtain ⟨r₃, hr₃, hafter₃, hw₃⟩ := hafter₂.takeSection .clusters (by decide)
    (by decide) (e.bind_refusal?_of_part (by decide))
  obtain ⟨r₄, hr₄, hafter₄, hw₄⟩ := hafter₃.takeSection .colors (by decide)
    (by decide) (e.bind_refusal?_of_part (by decide))
  refine ⟨r₄, ?_, ?_, ?_⟩
  · simp only [run, hr₁, hr₂, hr₃, hr₄, bind, Except.bind]
  -- every key belongs to one part, so after the last section all have been settled
  · exact ext_keys fun key => (hafter₄.get key).trans (if_pos key.mem_all)
  · rw [hw₄, hw₃, hw₂, hw₁, e.warnings_eq, e.topWarnings_eq, Key.ofPart]
    simp only [List.append_assoc]

end Reading

/-- To read key after key is to read each field on its own. -/
theorem inSequence_eq_ofEntries (e : Entries) : inSequence e = ofEntries e := by
  rw [inSequence, ofEntries]
  cases hfind : LabelKind.all.findSome? (labelError? e.labels) with
  | some p => rw [Reading.run_start_of_break hfind]
  | none =>
    obtain ⟨r, hr, hconfig, hwarnings⟩ := Reading.run_start_of_fine hfind
    rw [hr]
    show Outcome.mk r.warnings (.ok r.config) = ⟨e.warnings, .ok e.config⟩
    rw [hconfig, hwarnings]

/-! ## Keys -/

section

variable {e : Entries}

/-- A text is refused for the first of its labels that breaks the grammar. -/
theorem exists_break_of_error {err : Error} (h : (ofEntries e).result = .error err) :
    ∃ before k after cause, LabelKind.all = before ++ k :: after ∧ e.Breaks k cause ∧
      (∀ j ∈ before, ∀ cause, ¬ e.Breaks j cause) ∧ err = .badLabel k cause := by
  rw [ofEntries] at h
  split at h
  next k cause hfind =>
    cases h
    obtain ⟨before, after, hall, hbefore, hk⟩ := e.exists_first_break hfind
    exact ⟨before, k, after, cause, hall, (e.labelError?_eq_some.1 hk).2,
      fun j hj => e.labelError?_eq_none.1 (hbefore j hj), rfl⟩
  next => cases h

/-- A text gives a configuration exactly when no label breaks the grammar. -/
theorem result_eq_ok_iff {c : Config} : (ofEntries e).result = .ok c ↔
    (∀ k cause, ¬ e.Breaks k cause) ∧ e.config = c := by
  have hnone : LabelKind.all.findSome? (labelError? e.labels) = none ↔
      ∀ k cause, ¬ e.Breaks k cause := by
    rw [List.findSome?_eq_none_iff]
    exact ⟨fun h k => e.labelError?_eq_none.1 (h k k.mem_all),
      fun h k _ => e.labelError?_eq_none.2 (h k)⟩
  rw [ofEntries, ← hnone]
  cases LabelKind.all.findSome? (labelError? e.labels) <;> simp

/-- A text that gives a configuration is warned about in full. -/
theorem warnings_of_ok {c : Config} (h : (ofEntries e).result = .ok c) :
    (ofEntries e).warnings = e.warnings := by
  rw [ofEntries] at h ⊢
  split at h
  · cases h
  next => rfl

/-- A key with an unusable value can be taken out: nothing changes but that its warning is gone. -/
theorem without_unusable {c : Config} (h : (ofEntries e).result = .ok c) {key : Key}
    (hkey : key ∈ e.unusable) : (ofEntries (e.without key)).result = .ok c ∧
      (ofEntries (e.without key)).warnings.length + 1 = (ofEntries e).warnings.length := by
  obtain ⟨hfine, rfl⟩ := result_eq_ok_iff.1 h
  obtain ⟨v, hv, hunusable⟩ := Entries.mem_unusable.1 hkey
  -- the default held for the key before as well, and no other key is touched
  have hconfig : (e.without key).config = e.config := by
    refine ext_keys fun other => ?_
    by_cases hother : other = key
    · rw [hother, Entries.get_config, Entries.get_config, Entries.value?_without_same, hv]
      simp [hunusable]
    · exact Entries.get_config_congr (e.value?_without_other hother)
  have hresult : (ofEntries (e.without key)).result = .ok e.config := by
    refine result_eq_ok_iff.2 ⟨?_, hconfig⟩
    rintro k cause ⟨s, hs, hcause⟩
    by_cases hk : Key.label k = key
    · rw [hk, Entries.value?_without_same] at hs
      cases hs
    · rw [e.value?_without_other hk] at hs
      exact hfine k cause ⟨s, hs, hcause⟩
  refine ⟨hresult, ?_⟩
  have hcount := Entries.length_unusable_without hkey
  rw [warnings_of_ok hresult, warnings_of_ok h, Entries.length_warnings, Entries.length_warnings,
    Entries.unknown_without]
  omega

/-- The values of the known keys decide what a text gives, whatever else it says. -/
theorem result_congr {e' : Entries} (h : ∀ key, e'.value? key = e.value? key) :
    (ofEntries e').result = (ofEntries e).result := by
  have hconfig : e'.config = e.config := ext_keys fun key => Entries.get_config_congr (h key)
  have herror : labelError? e'.labels = labelError? e.labels := by
    funext k
    have hlookup : e'.labels.lookup k.key = e.labels.lookup k.key := h (.label k)
    rw [labelError?, labelError?, hlookup]
  rw [ofEntries, ofEntries, herror, hconfig]
  cases LabelKind.all.findSome? (labelError? e.labels) <;> rfl

end

/-- **Keys.**  To read a text key after key, with each key taken out of its table, is to read each
field on its own.  The text is refused exactly if one of its labels breaks the grammar, and then for
the first such label.  Otherwise each field is the value of its own key, if that can be used, and the
default if not, and so agrees with any other text that has the same value there; there are as many
warnings as unknown entries and unusable values; and a key whose value cannot be used might as well
be absent, for one warning less.  Entries with unknown names change nothing of the result. -/
theorem ofEntries_by_keys (e : Entries) :
    inSequence e = ofEntries e ∧
    ((∃ err, (ofEntries e).result = .error err) ↔ ∃ k cause, e.Breaks k cause) ∧
    (∀ err, (ofEntries e).result = .error err →
      ∃ before k after cause, LabelKind.all = before ++ k :: after ∧ e.Breaks k cause ∧
        (∀ j ∈ before, ∀ cause, ¬ e.Breaks j cause) ∧ err = .badLabel k cause) ∧
    (∀ e', (∀ key, e'.value? key = e.value? key) →
      (ofEntries e').result = (ofEntries e).result) ∧
    ∀ c, (ofEntries e).result = .ok c →
      (∀ key, c.get key =
        ((e.value? key).bind key.field.usable?).getD (Config.default.get key)) ∧
      (∀ e' c', (ofEntries e').result = .ok c' → ∀ key, e'.value? key = e.value? key →
        c'.get key = c.get key) ∧
      (ofEntries e).warnings.length = e.unknown.length + e.unusable.length ∧
      ∀ key ∈ e.unusable, (ofEntries (e.without key)).result = .ok c ∧
        (ofEntries (e.without key)).warnings.length + 1 = (ofEntries e).warnings.length := by
  refine ⟨inSequence_eq_ofEntries e, ?_, fun err => exists_break_of_error,
    fun e' => result_congr, fun c hc => ⟨?_, ?_, ?_, fun key => without_unusable hc⟩⟩
  · constructor
    · rintro ⟨err, herr⟩
      obtain ⟨_, k, _, cause, -, hbreaks, -⟩ := exists_break_of_error herr
      exact ⟨k, cause, hbreaks⟩
    · rintro ⟨k, cause, hbreaks⟩
      -- a broken entry leaves no configuration
      cases hresult : (ofEntries e).result with
      | error err => exact ⟨err, rfl⟩
      | ok c => exact absurd hbreaks ((result_eq_ok_iff.1 hresult).1 k cause)
  · obtain ⟨-, rfl⟩ := result_eq_ok_iff.1 hc
    exact e.get_config
  · intro e' c' hc' key hkey
    obtain ⟨-, rfl⟩ := result_eq_ok_iff.1 hc
    obtain ⟨-, rfl⟩ := result_eq_ok_iff.1 hc'
    exact Entries.get_config_congr hkey
  · rw [warnings_of_ok hc, Entries.length_warnings]

/-- An unknown entry and an unusable value give a warning each. -/
example : (ofEntries ⟨[("detail_level", .integer 0), ("colour", .boolean true)], [], [], []⟩).warnings
    = [.unknownKey none "colour", .level 0 99] := by rfl

end NetPlot.Config
