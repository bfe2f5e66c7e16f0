/-
  The configuration that a TOML text describes.

  1. **Data** — `Entries` are the entries of a text with the three sections apart.  A `Field` says
     under which key a value stands, what holds without it, which values can be used, and how to
     complain about others.

  2. **Program** — `Entries.config` reads every field on its own.  `ofEntries` adds the warnings,
     in the order of the fields and the unknown keys of each table after its fields — at the top
     before them; a label that breaks the grammar stops it, with the warnings up to there.

  3. **Refusals** — `Error`: the text is no TOML or has a section that is no table, or a label is
     no label specification.
-/
import NetPlot.Config.Override
import NetPlot.Toml.Document
import NetPlot.Toml.Settled

namespace NetPlot.Config

open NetPlot.Label NetPlot.Toml

/-- The entries of a table. -/
abbrev Table := List (String × Value)

/-- The entries of a configuration text. -/
structure Entries where
  top : Table
  labels : Table
  clusters : Table
  colors : Table

/-! ## Sections -/

/-- A value as a section.  A moment is a table with one entry, its text. -/
def section? : Value → Option Table
  | .table es => settleEntries? false es
  | .moment m => some [(momentKey, .string m.display)]
  | _ => none

/-- The section under a key; a missing one is empty. -/
def sectionAt? (t : Table) (key : String) : Option Table :=
  match t.lookup key with
  | none => some []
  | some v => section? v

/-- The keys at the top that stand for one value. -/
def valueKeys : List String := ["direction", "detail_level", "format", "prog"]

/-- The keys of the sections. -/
def sectionKeys : List String := ["labels", "clusters", "colors"]

/-- An entry at the top with its value settled; sections are left as they are, and unknown entries
are taken as a whole. -/
def settleTop? (e : String × Value) : Option (String × Value) :=
  if sectionKeys.contains e.1 then some e
  else (e.2.settle? !(valueKeys.contains e.1)).map (e.1, ·)

/-- The entries of a table with its sections; none if a section is no table or a value is none. -/
def Entries.ofTable? (t : Table) : Option Entries := do
  some ⟨← t.mapM settleTop?, ← sectionAt? t "labels", ← sectionAt? t "clusters",
    ← sectionAt? t "colors"⟩

/-! ## Fields -/

/-- A field of the configuration. -/
structure Field (α : Type) where
  key : String
  default : α
  usable? : Value → Option α
  complaint : Value → Warning

namespace Field

/-- What a table says about a field. -/
def value {α : Type} (f : Field α) (t : Table) : α := ((t.lookup f.key).bind f.usable?).getD f.default

/-- A complaint if the table has a value for the field that cannot be used. -/
def warnings {α : Type} (f : Field α) (t : Table) : List Warning :=
  match t.lookup f.key with
  | none => []
  | some v => if (f.usable? v).isSome then [] else [f.complaint v]

end Field

/-- The direction of the plot. -/
def directionField : Field PlotDirection where
  key := "direction"
  default := Config.default.direction
  usable? v := PlotDirection.ofText? (plainText v)
  complaint v := .direction (plainText v) Config.default.direction

/-- The level from which composites stay closed. -/
def levelField : Field Nat where
  key := "detail_level"
  default := Config.default.maxLevel
  usable? v := match v with
    | .integer i => level? i
    | _ => none
  complaint v := match v with
    | .integer i => .level i Config.default.maxLevel
    | v => .levelKind v Config.default.maxLevel

/-- The output format. -/
def formatField : Field String where
  key := "format"
  default := Config.default.format
  usable? v := format? (plainText v)
  complaint v := .format (Text.trim (plainText v)) Config.default.format

/-- The layout program. -/
def programField : Field String where
  key := "prog"
  default := Config.default.program
  usable? v := program? (plainText v)
  complaint v := .program (Text.trim (plainText v)) Config.default.program

/-- The label of a kind of element. -/
def labelField (k : LabelKind) : Field Spec where
  key := k.key
  default := Config.default.labels.get k
  usable? v := match v with
    | .string s => (Spec.parse s).toOption
    | _ => none
  complaint v := .label k v

/-- Whether a role is drawn as a cluster. -/
def flagField (key : String) (default : Bool) : Field Bool where
  key := key
  default := default
  usable? := flag?
  complaint v := .flag key v default

/-- A colour. -/
def colorField (key default : String) : Field String where
  key := key
  default := default
  usable? v := color? (plainText v)
  complaint v := .color key (plainText v) default

/-- How frames darken with their level. -/
def gradientField : Field Color.Gradient where
  key := "composite_gradient"
  default := Config.default.gradient
  usable? := gradient?
  complaint v := .gradient v Config.default.gradient

/-- Whether input ports are drawn as a cluster. -/
def inputPortsField : Field Bool := flagField "input_ports" Config.default.clusters.inputPorts

/-- Whether output ports are drawn as a cluster. -/
def outputPortsField : Field Bool := flagField "output_ports" Config.default.clusters.outputPorts

/-- Whether processes without inputs are drawn as a cluster. -/
def sourcesField : Field Bool := flagField "sources" Config.default.clusters.sources

/-- Whether processes without outputs are drawn as a cluster. -/
def sinksField : Field Bool := flagField "sinks" Config.default.clusters.sinks

/-- Whether all other processes are drawn as a cluster. -/
def othersField : Field Bool := flagField "others" Config.default.clusters.others

/-- The colour of leaf processes. -/
def leafColorField : Field String := colorField "leaf" Config.default.leafColor

/-- The colour of composite processes drawn as boxes. -/
def boxColorField : Field String := colorField "composite_box" Config.default.boxColor

/-! ## The configuration -/

/-- What the entries say, field by field. -/
def Entries.config (e : Entries) : Config where
  direction := directionField.value e.top
  maxLevel := levelField.value e.top
  format := formatField.value e.top
  program := programField.value e.top
  labels := .ofKinds fun k => (labelField k).value e.labels
  clusters :=
    { inputPorts := inputPortsField.value e.clusters
      outputPorts := outputPortsField.value e.clusters
      sources := sourcesField.value e.clusters
      sinks := sinksField.value e.clusters
      others := othersField.value e.clusters }
  leafColor := leafColorField.value e.colors
  boxColor := boxColorField.value e.colors
  gradient := gradientField.value e.colors

/-! ## Warnings -/

/-- The keys at the top that mean something. -/
def topKeys : List String := valueKeys ++ sectionKeys

/-- The keys of the clusters section. -/
def clusterKeys : List String := ["input_ports", "output_ports", "sources", "sinks", "others"]

/-- The keys of the colors section. -/
def colorKeys : List String := ["leaf", "composite_box", "composite_gradient"]

/-- A warning for each key of a table that is not among the known ones. -/
def unknownKeys («section» : Option String) (known : List String) (t : Table) : List Warning :=
  (t.filter fun e => !known.contains e.1).map fun e => .unknownKey «section» e.1

/-- The warnings about the top. -/
def topWarnings (t : Table) : List Warning :=
  unknownKeys none topKeys t ++ directionField.warnings t ++ levelField.warnings t
    ++ formatField.warnings t ++ programField.warnings t

/-- The warnings about labels of some kinds. -/
def labelWarnings (kinds : List LabelKind) (t : Table) : List Warning :=
  kinds.flatMap fun k => (labelField k).warnings t

/-- The warnings about the clusters section. -/
def clusterWarnings (t : Table) : List Warning :=
  inputPortsField.warnings t ++ outputPortsField.warnings t ++ sourcesField.warnings t
    ++ sinksField.warnings t ++ othersField.warnings t
    ++ unknownKeys (some "clusters") clusterKeys t

/-- The warnings about the colors section. -/
def colorWarnings (t : Table) : List Warning :=
  leafColorField.warnings t ++ boxColorField.warnings t ++ gradientField.warnings t
    ++ unknownKeys (some "colors") colorKeys t

/-- All warnings, where every label can be read. -/
def Entries.warnings (e : Entries) : List Warning :=
  topWarnings e.top ++ labelWarnings LabelKind.all e.labels
    ++ unknownKeys (some "labels") (LabelKind.all.map LabelKind.key) e.labels
    ++ clusterWarnings e.clusters ++ colorWarnings e.colors

/-! ## Refusals -/

/-- Why a text is no configuration. -/
inductive Error where
  | malformed
  | badLabel (kind : LabelKind) (cause : Label.Error)
  deriving DecidableEq, Repr

/-- The error in words, outermost first; the path names the text. -/
def Error.messages (path : Path) : Error → List String
  | malformed => ["Failed to parse TOML configuration " ++ path.text ++ ": invalid document"]
  | badLabel kind cause =>
    ["Invalid label grammar for `labels." ++ kind.key ++ "`", cause.message]

/-- The label of a kind, where it breaks the grammar. -/
def labelError? (t : Table) (k : LabelKind) : Option (LabelKind × Label.Error) :=
  match t.lookup k.key with
  | some (.string s) =>
    match Spec.parse s with
    | .error cause => some (k, cause)
    | .ok _ => none
  | _ => none

/-- A configuration or why there is none, with the warnings on the way. -/
structure Outcome where
  warnings : List Warning
  result : Except Error Config

/-- The configuration that entries describe. -/
def ofEntries (e : Entries) : Outcome :=
  match LabelKind.all.findSome? (labelError? e.labels) with
  | some (k, cause) =>
    ⟨topWarnings e.top ++ labelWarnings (LabelKind.all.takeWhile (· ≠ k)) e.labels,
      .error (.badLabel k cause)⟩
  | none => ⟨e.warnings, .ok e.config⟩

/-- The configuration that a text describes. -/
def read (text : String) : Outcome :=
  match (Toml.parse? text).bind Entries.ofTable? with
  | none => ⟨[], .error .malformed⟩
  | some e => ofEntries e

/-- Without entries the defaults hold. -/
theorem ofEntries_nil : (ofEntries ⟨[], [], [], []⟩).result = .ok Config.default := rfl

end NetPlot.Config
