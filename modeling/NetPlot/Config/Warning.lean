/-
  Warnings about a configuration.

  What a configuration says and cannot be used is no error: the value that holds already stays,
  and a warning names both.  `Warning.message` has the wording.
-/
import NetPlot.Config.Basic
import NetPlot.Toml.Value

namespace NetPlot.Config

open NetPlot.Toml

/-- What was not used, and what was kept in its place. -/
inductive Warning where
  /-- A key that means nothing, at the top or in a section. -/
  | unknownKey («section» : Option String) (key : String)
  | direction (given : String) (kept : PlotDirection)
  /-- A level that is no integer. -/
  | levelKind (given : Value) (kept : Nat)
  | level (given : Int) (kept : Nat)
  | format (given kept : String)
  | program (given kept : String)
  | label (kind : LabelKind) (given : Value)
  | flag (key : String) (given : Value) (kept : Bool)
  | color (key given kept : String)
  | gradient (given : Value) (kept : Color.Gradient)

/-- The channels of a gradient as a list. -/
def gradientText (g : Color.Gradient) : String :=
  "[" ++ ", ".intercalate ([g.red, g.green, g.blue].map fun c => c.toNat.repr) ++ "]"

/-- A boolean in words. -/
def boolText (b : Bool) : String := if b then "true" else "false"

/-- The warning in words. -/
def Warning.message : Warning → String
  | unknownKey none key => "Unrecognized configuration key `" ++ key ++ "` ignored"
  | unknownKey (some s) key => "Unrecognized configuration key `" ++ s ++ "." ++ key ++ "` ignored"
  | direction given kept =>
    "Unrecognized direction `" ++ given ++ "` (expected LR or TB); using " ++ kept.rankdir
  | levelKind given kept =>
    "detail_level must be an integer, got `" ++ given.display ++ "`; using " ++ kept.repr
  | level given kept =>
    "Detail level must be at least 1, got " ++ given.repr ++ "; using " ++ kept.repr
  | format given kept => "Unsupported output format `" ++ given ++ "`; using " ++ kept
  | program given kept => "Unsupported layout program `" ++ given ++ "`; using " ++ kept
  | label kind given =>
    "labels." ++ kind.key ++ " must be a string, got `" ++ given.display ++ "`; using default"
  | flag key given kept =>
    "clusters." ++ key ++ " must be a boolean, got `" ++ given.display ++ "`; using "
      ++ boolText kept
  | color key given kept => "colors." ++ key ++ " is not a color: `" ++ given ++ "`; using " ++ kept
  | gradient given kept =>
    "colors.composite_gradient must be three integers in 0..=255, got `" ++ given.display
      ++ "`; using " ++ gradientText kept

end NetPlot.Config
