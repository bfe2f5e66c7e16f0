/-
  The keys of a configuration text, one by one.

  1. **Tables** — what is left of a table without a key (`lookup_without_same`,
     `lookup_without_other`).

  2. **Keys** — a `Key` is one of the names that mean something, each in its `Part` of the text,
     and no two keys share a name in one part (`name_inj`).  `Config.get` is the field of a key;
     the fields make up the configuration (`ext_keys`).

  3. **Values** — the field of a key is settled by its own value alone (`get_config`), so it is the
     same where the value is (`get_config_congr`).

  4. **Counting** — there are as many warnings as there are unknown entries and unusable values
     (`length_warnings`); a key that is taken out takes one unusable value with it and no unknown
     entry (`length_unusable_without`, `unknown_without`).
-/
import NetPlot.Config.Entries
import Mathlib.Data.List.Nodup

namespace NetPlot.Config

open NetPlot.Label NetPlot.Toml

/-! ## Tables

A table may name a key several times, and it is the first entry that is looked up.  A key is
therefore taken out with all entries of its name. -/

namespace Table

/-- A table without the entries of a name. -/
def without (t : Table) (name : String) : Table := t.filter fun x => x.1 ≠ name

/-- A name that is taken out is not found any more. -/
theorem lookup_without_same (t : Table) (name : String) : (t.without name).lookup name = none := by
  rw [List.lookup_eq_none_iff]
  intro x hx
  have hne : x.1 ≠ name := of_decide_eq_true (List.mem_filter.1 hx).2
  exact bne_iff_ne.2 hne.symm

/-- Other names are found as before. -/
theorem lookup_without_other (t : Table) {name other : String} (h : other ≠ name) :
    (t.without name).lookup other = t.lookup other := by
  induction t with
  | nil => rfl
  | cons x t ih =>
    obtain ⟨name', v⟩ := x
    -- an entry that goes has not the name looked up
    by_cases hx : name' = name
    · have hother : (other == name') = false := beq_false_of_ne (hx ▸ h)
      rw [List.lookup_cons, hother, ← ih, without, List.filter_cons_of_neg (by simpa using hx)]
      rfl
    · rw [without, List.filter_cons_of_pos (by simpa using hx), List.lookup_cons, List.lookup_cons]
      cases other == name'
      · exact ih
      · rfl

end Table

/-! ## Keys

The program has a function for each part of the text.  With the keys as data, what is said about
fields and warnings is said once, for any key. -/

/-- The parts of a configuration text: the top and the sections. -/
inductive Part where
  | top
  | labels
  | clusters
  | colors
  deriving DecidableEq, Repr

/-- All parts. -/
def Part.all : List Part := [.top, .labels, .clusters, .colors]

/-- The entries of a part. -/
def Entries.table (e : Entries) : Part → Table
  | .top => e.top
  | .labels => e.labels
  | .clusters => e.clusters
  | .colors => e.colors

/-- The names that mean something, but for those of the sections. -/
inductive Key where
  | direction
  | level
  | format
  | program
  | label (kind : LabelKind)
  | inputPorts
  | outputPorts
  | sources
  | sinks
  | others
  | leafColor
  | boxColor
  | gradient
  deriving DecidableEq, Repr

namespace Key

/-- What the values of a key stand for. -/
abbrev Meaning : Key → Type
  | direction => PlotDirection
  | level => Nat
  | format => String
  | program => String
  | label _ => Spec
  | inputPorts => Bool
  | outputPorts => Bool
  | sources => Bool
  | sinks => Bool
  | others => Bool
  | leafColor => String
  | boxColor => String
  | gradient => Color.Gradient

/-- How the value of a key is read. -/
def field : (key : Key) → Field key.Meaning
  | direction => directionField
  | level => levelField
  | format => formatField
  | program => programField
  | label k => labelField k
  | inputPorts => inputPortsField
  | outputPorts => outputPortsField
  | sources => sourcesField
  | sinks => sinksField
  | others => othersField
  | leafColor => leafColorField
  | boxColor => boxColorField
  | gradient => gradientField

/-- The name of a key in the text. -/
def name (key : Key) : String := key.field.key

/-- The part where a key stands. -/
def part : Key → Part
  | direction | level | format | program => .top
  | label _ => .labels
  | inputPorts | outputPorts | sources | sinks | others => .clusters
  | leafColor | boxColor | gradient => .colors

/-- The keys of a part, in the order in which they are read. -/
def ofPart : Part → List Key
  | .top => [direction, level, format, program]
  | .labels => LabelKind.all.map label
  | .clusters => [inputPorts, outputPorts, sources, sinks, others]
  | .colors => [leafColor, boxColor, gradient]

/-- All keys. -/
def all : List Key := Part.all.flatMap ofPart

theorem mem_ofPart (key : Key) : key ∈ ofPart key.part := by
  cases key with
  | label k => exact List.mem_map_of_mem k.mem_all
  | _ => simp [ofPart, part]

theorem part_of_mem_ofPart {key : Key} {p : Part} (h : key ∈ ofPart p) : key.part = p := by
  have hall : ∀ key ∈ ofPart p, key.part = p := by cases p <;> decide
  exact hall key h

theorem mem_all (key : Key) : key ∈ all :=
  List.mem_flatMap.2 ⟨key.part, by cases key.part <;> simp [Part.all], key.mem_ofPart⟩

theorem nodup_all : all.Nodup := by decide

/-- No two keys share a name in one part. -/
theorem name_inj {key key' : Key} (hpart : key.part = key'.part) (hname : key.name = key'.name) :
    key = key' := by
  -- `leaf` is both a label and a colour, so the part has a say
  have hall : ∀ key ∈ all, ∀ key' ∈ all, key.part = key'.part → key.name = key'.name →
      key = key' := by
    decide +kernel
  exact hall key key.mem_all key' key'.mem_all hpart hname

end Key

/-- The field of a key. -/
def get (c : Config) : (key : Key) → key.Meaning
  | .direction => c.direction
  | .level => c.maxLevel
  | .format => c.format
  | .program => c.program
  | .label k => c.labels.get k
  | .inputPorts => c.clusters.inputPorts
  | .outputPorts => c.clusters.outputPorts
  | .sources => c.clusters.sources
  | .sinks => c.clusters.sinks
  | .others => c.clusters.others
  | .leafColor => c.leafColor
  | .boxColor => c.boxColor
  | .gradient => c.gradient

/-- A configuration consists of the fields of the keys. -/
theorem ext_keys {c c' : Config} (h : ∀ key : Key, c.get key = c'.get key) : c = c' := by
  obtain ⟨_, _, _, _, ⟨_, _, _, _, _⟩, ⟨_, _, _, _, _⟩, _, _, _⟩ := c
  obtain ⟨_, _, _, _, ⟨_, _, _, _, _⟩, ⟨_, _, _, _, _⟩, _, _, _⟩ := c'
  obtain rfl := h .direction
  obtain rfl := h .level
  obtain rfl := h .format
  obtain rfl := h .program
  obtain rfl := h (.label .leaf)
  obtain rfl := h (.label .composite)
  obtain rfl := h (.label .leafPort)
  obtain rfl := h (.label .compositePort)
  obtain rfl := h (.label .signal)
  obtain rfl := h .inputPorts
  obtain rfl := h .outputPorts
  obtain rfl := h .sources
  obtain rfl := h .sinks
  obtain rfl := h .others
  obtain rfl := h .leafColor
  obtain rfl := h .boxColor
  obtain rfl := h .gradient
  rfl

/-! ## Values -/

namespace Entries

/-- The value of a key, if the text has one. -/
def value? (e : Entries) (key : Key) : Option Value := (e.table key.part).lookup key.name

/-- The field of a key is the value of that key, if it has one that can be used, and the default
otherwise. -/
theorem get_config (e : Entries) (key : Key) :
    e.config.get key = ((e.value? key).bind key.field.usable?).getD (Config.default.get key) := by
  cases key with
  | label k => exact Labels.get_ofKinds _ k
  | _ => rfl

/-- The field of a key depends on the value of that key alone. -/
theorem get_config_congr {e e' : Entries} {key : Key} (h : e'.value? key = e.value? key) :
    e'.config.get key = e.config.get key := by
  rw [get_config, get_config, h]

/-- The entries with one of the tables changed. -/
def modify (e : Entries) (f : Table → Table) : Part → Entries
  | .top => { e with top := f e.top }
  | .labels => { e with labels := f e.labels }
  | .clusters => { e with clusters := f e.clusters }
  | .colors => { e with colors := f e.colors }

theorem table_modify_same (e : Entries) (f : Table → Table) (part : Part) :
    (e.modify f part).table part = f (e.table part) := by
  cases part <;> rfl

theorem table_modify_other (e : Entries) (f : Table → Table) {part other : Part}
    (h : other ≠ part) : (e.modify f part).table other = e.table other := by
  cases part <;> cases other <;> first | rfl | exact absurd rfl h

/-- The entries without those of a key. -/
def without (e : Entries) (key : Key) : Entries := e.modify (·.without key.name) key.part

/-- A key that is taken out has no value any more. -/
theorem value?_without_same (e : Entries) (key : Key) : (e.without key).value? key = none := by
  rw [value?, without, table_modify_same, Table.lookup_without_same]

/-- The other keys keep their values. -/
theorem value?_without_other (e : Entries) {key other : Key} (h : other ≠ key) :
    (e.without key).value? other = e.value? other := by
  rw [value?, value?, without]
  -- another key has another name, or the same name in another part
  by_cases hpart : other.part = key.part
  · have hname : other.name ≠ key.name := fun hname => h (Key.name_inj hpart hname)
    rw [hpart, table_modify_same, Table.lookup_without_other _ hname]
  · rw [table_modify_other _ _ hpart]

end Entries

/-! ## Counting

The program warns part by part, in an order that differs between the top and the sections. Sorted by
keys, these are the unknown entries of each part and the complaints about its keys, which can be
counted. -/

/-- The name of a section; the top has none. -/
def Part.name? : Part → Option String
  | .top => none
  | .labels => some "labels"
  | .clusters => some "clusters"
  | .colors => some "colors"

/-- The names that mean something in a part; at the top they include those of the sections. -/
def Part.known (part : Part) : List String :=
  (Key.ofPart part).map Key.name ++ if part = .top then sectionKeys else []

theorem Key.name_mem_known (key : Key) : key.name ∈ key.part.known :=
  List.mem_append_left _ (List.mem_map_of_mem key.mem_ofPart)

namespace Entries

/-- The entries of a part whose names mean nothing there. -/
def unknownIn (e : Entries) (part : Part) : Table :=
  (e.table part).filter fun x => !part.known.contains x.1

/-- All entries whose names mean nothing where they stand. -/
def unknown (e : Entries) : Table := Part.all.flatMap e.unknownIn

/-- Is there a value of a key that cannot be used? -/
def spoils (e : Entries) (key : Key) : Bool :=
  (e.value? key).any fun v => (key.field.usable? v).isNone

/-- The keys with values that cannot be used. -/
def unusable (e : Entries) : List Key := Key.all.filter e.spoils

/-- A key spoils the text if it has a value that its field cannot use. -/
theorem spoils_eq_true {e : Entries} {key : Key} :
    e.spoils key = true ↔ ∃ v, e.value? key = some v ∧ key.field.usable? v = none := by
  rw [spoils]
  cases e.value? key <;> simp

theorem mem_unusable {e : Entries} {key : Key} :
    key ∈ e.unusable ↔ ∃ v, e.value? key = some v ∧ key.field.usable? v = none := by
  rw [unusable, List.mem_filter, and_iff_right key.mem_all, spoils_eq_true]

/-- The warnings about the unknown entries of a part. -/
def strays (e : Entries) (part : Part) : List Warning :=
  (e.unknownIn part).map fun x => .unknownKey part.name? x.1

/-- The warnings about the value of a key. -/
def complaints (e : Entries) (key : Key) : List Warning := key.field.warnings (e.table key.part)

/-- At the top the unknown entries come first. -/
theorem topWarnings_eq (e : Entries) :
    topWarnings e.top = e.strays .top ++ (Key.ofPart .top).flatMap e.complaints := by
  rw [topWarnings]
  simp only [Key.ofPart, List.flatMap_cons, List.flatMap_nil, List.append_nil, List.append_assoc]
  rfl

theorem labelWarnings_eq (e : Entries) (kinds : List LabelKind) :
    labelWarnings kinds e.labels = (kinds.map Key.label).flatMap e.complaints := by
  rw [labelWarnings, List.flatMap_map]
  rfl

theorem clusterWarnings_eq (e : Entries) :
    clusterWarnings e.clusters =
      (Key.ofPart .clusters).flatMap e.complaints ++ e.strays .clusters := by
  rw [clusterWarnings]
  simp only [Key.ofPart, List.flatMap_cons, List.flatMap_nil, List.append_nil, List.append_assoc]
  rfl

theorem colorWarnings_eq (e : Entries) :
    colorWarnings e.colors = (Key.ofPart .colors).flatMap e.complaints ++ e.strays .colors := by
  rw [colorWarnings]
  simp only [Key.ofPart, List.flatMap_cons, List.flatMap_nil, List.append_nil, List.append_assoc]
  rfl

theorem complaints_eq (e : Entries) (key : Key) : e.complaints key =
    match e.value? key with
    | none => []
    | some v => if (key.field.usable? v).isSome then [] else [key.field.complaint v] := rfl

/-- A key is complained about once if its value cannot be used, and else not at all. -/
theorem length_complaints (e : Entries) (key : Key) :
    (e.complaints key).length = if e.spoils key then 1 else 0 := by
  rw [complaints_eq, spoils]
  cases e.value? key with
  | none => rfl
  | some v => cases hv : key.field.usable? v <;> simp [hv]

/-- There are as many complaints as there are keys to complain about. -/
theorem length_flatMap_complaints (e : Entries) (keys : List Key) :
    (keys.flatMap e.complaints).length = (keys.filter e.spoils).length := by
  induction keys with
  | nil => rfl
  | cons key keys ih =>
    rw [List.flatMap_cons, List.length_append, ih, length_complaints, List.filter_cons]
    split
    · rw [List.length_cons, Nat.add_comm]
    · exact Nat.zero_add _

/-- The warnings part by part; those about unknown entries come last, but at the top first. -/
theorem warnings_eq (e : Entries) : e.warnings =
    (e.strays .top ++ (Key.ofPart .top).flatMap e.complaints)
      ++ ((Key.ofPart .labels).flatMap e.complaints ++ e.strays .labels)
      ++ ((Key.ofPart .clusters).flatMap e.complaints ++ e.strays .clusters)
      ++ ((Key.ofPart .colors).flatMap e.complaints ++ e.strays .colors) := by
  rw [warnings, topWarnings_eq, labelWarnings_eq, clusterWarnings_eq, colorWarnings_eq]
  simp only [List.append_assoc]
  rfl

/-- There are as many warnings as unknown entries and unusable values. -/
theorem length_warnings (e : Entries) :
    e.warnings.length = e.unknown.length + e.unusable.length := by
  -- part by part the warnings stand in another order than the keys, but they are as many
  have hlength : ∀ part, (e.strays part).length = (e.unknownIn part).length :=
    fun part => List.length_map ..
  rw [warnings_eq, unusable, ← length_flatMap_complaints, unknown, Key.all]
  simp only [Part.all, List.flatMap_cons, List.flatMap_nil, List.flatMap_append,
    List.length_append, hlength, List.append_nil]
  omega

/-- What is known is no unknown entry. -/
theorem unknown_without (e : Entries) (key : Key) : (e.without key).unknown = e.unknown := by
  have hpart : ∀ part, (e.without key).unknownIn part = e.unknownIn part := by
    intro part
    rw [unknownIn, unknownIn, without]
    -- in the part of the key, the entries that go have a known name
    by_cases h : part = key.part
    · rw [h, table_modify_same, Table.without, List.filter_filter]
      refine List.filter_congr fun x _ => ?_
      by_cases hx : x.1 = key.name
      · simp [hx, key.name_mem_known]
      · simp [hx]
    · rw [table_modify_other _ _ h]
  exact congrArg (List.flatMap · Part.all) (funext hpart)

/-- A key that is taken out is unusable no longer, and the others are as they were. -/
theorem unusable_without (e : Entries) (key : Key) :
    (e.without key).unusable = e.unusable.erase key := by
  have hnodup : e.unusable.Nodup := Key.nodup_all.filter _
  rw [hnodup.erase_eq_filter, unusable, unusable, List.filter_filter]
  refine List.filter_congr fun other _ => ?_
  by_cases h : other = key
  · simp [h, spoils, value?_without_same]
  · simp [h, spoils, value?_without_other e h]

theorem length_unusable_without {e : Entries} {key : Key} (h : key ∈ e.unusable) :
    (e.without key).unusable.length + 1 = e.unusable.length := by
  rw [unusable_without, List.length_erase_of_mem h]
  have hpos : 0 < e.unusable.length := List.length_pos_of_mem h
  omega

end Entries

end NetPlot.Config
