/-
  The way a plot runs, and where edges meet their nodes.

  A plot runs from left to right or from top to bottom.  Data enters a node on the side the plot
  comes from (`inputSide`) and leaves it on the other (`outputSide`); an edge end is anchored at a
  field of a record and a side, or at a side alone.
-/
import NetPlot.Label.Record

namespace NetPlot

open NetPlot.Text

/-- The way a plot runs. -/
inductive PlotDirection where
  | leftRight
  | topBottom
  deriving DecidableEq, Repr

namespace PlotDirection

/-- The name of the direction in DOT. -/
def rankdir : PlotDirection → String
  | leftRight => "LR"
  | topBottom => "TB"

/-- The direction that a text names; case and blanks around it do not matter. -/
def ofText? (s : String) : Option PlotDirection :=
  match String.ofList ((trimChars s.toList).map Char.toUpper) with
  | "LR" => some leftRight
  | "TB" => some topBottom
  | _ => none

/-- The compass point at which data enters a node. -/
def inputSide : PlotDirection → String
  | leftRight => "w"
  | topBottom => "n"

/-- The compass point at which data leaves a node. -/
def outputSide : PlotDirection → String
  | leftRight => "e"
  | topBottom => "s"

/-- The turn of a symbol that points along the plot. -/
def orientation : PlotDirection → String
  | leftRight => "90"
  | topBottom => "0"

theorem ofText?_rankdir (d : PlotDirection) : ofText? d.rankdir = some d := by
  cases d <;> decide +kernel

end PlotDirection

/-- The anchor of an edge end: the field of the port and the side, or the side alone if there is
no port or nothing is left of its name. -/
def anchor (port : Option String) (side : String) : String :=
  match port with
  | none => side
  | some p => if Label.sanitize p = "" then side else Label.sanitize p ++ ":" ++ side

end NetPlot
