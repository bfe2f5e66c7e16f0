/-
  Changing a configuration that holds.

  Each setter changes its own field if the value given can be used, and otherwise keeps it and
  warns.  `Overrides` are the values of a command line, `Config.apply` sets them one after the
  other.
-/
import NetPlot.Config.Usable
import NetPlot.Config.Warning

namespace NetPlot.Config

/-- Takes what a value stands for, or keeps the configuration with a warning. -/
def setIf {α : Type} (usable : Option α) (set : α → Config) (kept : Config) (w : Warning) :
    Config × List Warning :=
  match usable with
  | some a => (set a, [])
  | none => (kept, [w])

/-- Sets the direction by its name. -/
def setDirection (c : Config) (s : String) : Config × List Warning :=
  setIf (PlotDirection.ofText? s) (fun d => { c with direction := d }) c
    (.direction s c.direction)

/-- Sets the level from which composites stay closed. -/
def setLevel (c : Config) (i : Int) : Config × List Warning :=
  setIf (level? i) (fun l => { c with maxLevel := l }) c (.level i c.maxLevel)

/-- Sets the output format by its name. -/
def setFormat (c : Config) (s : String) : Config × List Warning :=
  setIf (format? s) (fun f => { c with format := f }) c (.format (Text.trim s) c.format)

/-- Sets the layout program by its name. -/
def setProgram (c : Config) (s : String) : Config × List Warning :=
  setIf (program? s) (fun p => { c with program := p }) c (.program (Text.trim s) c.program)

/-- Values that win over a configuration text. -/
structure Overrides where
  direction : Option String
  level : Option Int
  format : Option String
  program : Option String
  deriving DecidableEq, Repr

/-- Nothing is given. -/
def Overrides.none : Overrides := ⟨.none, .none, .none, .none⟩

/-- Sets a value if it is given, and adds the warnings to earlier ones. -/
def setGiven {α : Type} (set : Config → α → Config × List Warning) (given : Option α)
    (c : Config × List Warning) : Config × List Warning :=
  match given with
  | some a => ((set c.1 a).1, c.2 ++ (set c.1 a).2)
  | none => c

/-- Sets what is given: direction, level, format, program. -/
def apply (c : Config) (o : Overrides) : Config × List Warning :=
  setGiven setProgram o.program <|
  setGiven setFormat o.format <|
  setGiven setLevel o.level <|
  setGiven setDirection o.direction (c, [])

end NetPlot.Config
