/-
  What a plot looks like, and the paths of one run.

  `Config` gathers everything that can be configured, `Config.default` is what holds where nothing
  is configured.  `Settings` adds the paths of a run, all of which derive from the path of the
  model: its stem names the root process, its directory is where the other documents are.
-/
import NetPlot.Color
import NetPlot.Label.Spec
import NetPlot.Network.Cluster
import NetPlot.Path
import NetPlot.Plot

namespace NetPlot

open NetPlot.Label

/-- The kinds of elements that have labels. -/
inductive LabelKind where
  | leaf
  | composite
  | leafPort
  | compositePort
  | signal
  deriving DecidableEq, Repr

namespace LabelKind

/-- The key of a label in a configuration text. -/
def key : LabelKind → String
  | leaf => "leaf"
  | composite => "composite"
  | leafPort => "leaf_port"
  | compositePort => "composite_port"
  | signal => "signal"

/-- All kinds, in the order in which their labels are read. -/
def all : List LabelKind := [leaf, composite, leafPort, compositePort, signal]

theorem mem_all (k : LabelKind) : k ∈ all := by cases k <;> simp [all]

end LabelKind

/-- A label for each kind of element. -/
structure Labels where
  leaf : Spec
  composite : Spec
  leafPort : Spec
  compositePort : Spec
  signal : Spec
  deriving DecidableEq, Repr

/-- The labels that a function gives. -/
def Labels.ofKinds (f : LabelKind → Spec) : Labels :=
  ⟨f .leaf, f .composite, f .leafPort, f .compositePort, f .signal⟩

/-- The label of a kind of element. -/
def Labels.get (l : Labels) : LabelKind → Spec
  | .leaf => l.leaf
  | .composite => l.composite
  | .leafPort => l.leafPort
  | .compositePort => l.compositePort
  | .signal => l.signal

theorem Labels.get_ofKinds (f : LabelKind → Spec) (k : LabelKind) :
    (Labels.ofKinds f).get k = f k := by cases k <;> rfl

/-- Everything is labelled with its name, signals with nothing. -/
def Labels.default : Labels :=
  ⟨.ofQuery "@name", .ofQuery "@name", .ofQuery "@name", .ofQuery "@name", .empty⟩

/-- Everything that can be configured. -/
structure Config where
  direction : PlotDirection
  /-- The level from which composite processes are no longer expanded; the root frame is 1. -/
  maxLevel : Nat
  format : String
  program : String
  labels : Labels
  clusters : Network.Flags
  leafColor : String
  boxColor : String
  gradient : Color.Gradient
  deriving DecidableEq, Repr

/-- The configuration where nothing is configured. -/
def Config.default : Config where
  direction := .leftRight
  maxLevel := 99
  format := "dot"
  program := "dot"
  labels := .default
  clusters := .default
  leafColor := "#FCD975"
  boxColor := "#79AB78"
  gradient := ⟨11, 16, 21⟩

/-- The paths of one run with its configuration. -/
structure Settings where
  input : Path
  /-- Where the documents of composite processes are. -/
  inDir : Path
  /-- The name of the root process. -/
  rootName : String
  outputDir : Path
  config : Config
  deriving DecidableEq, Repr

namespace Settings

/-- The settings for a model; none if the path names no file. -/
def new? (input : Path) (outputDir : Option Path) (config : Config) : Option Settings :=
  match input.stem? with
  | none => none
  | some stem =>
    if stem = "" then none
    else some ⟨input, input.directory, stem, outputDir.getD input.directory, config⟩

/-- The file that a run writes, by its extension. -/
def outputFile (s : Settings) (extension : String) : Path :=
  s.outputDir.join (s.rootName ++ "." ++ extension)

end Settings

end NetPlot
