/-
  The command line: which options there are and what a row of arguments asks for.

  1. **Language** — `--name value` and `--name=value`, one-letter options alone, together
     (`-gl`) or with their value attached (`-oout`), `--` in front of what is no option, and one
     plain argument, the model.  A value does not begin with a dash unless it is attached.

  2. **Program** — `read` takes the arguments one after the other into a `Draft`, and the first
     one that asks for help or cannot be understood ends it (`Stop`).  Only then is asked whether
     the model is there.
-/
import NetPlot.Config.Override
import NetPlot.Network.Mode

namespace NetPlot.CommandLine

open NetPlot.Text NetPlot.Network

/-! ## Options -/

/-- The names of options. -/
inductive OptionName where
  | mode
  | output
  | config
  | generateConfig
  | direction
  | level
  | program
  | format
  | raw
  | dumpGraph
  | logLevel
  | log
  | help
  | version
  deriving DecidableEq, Repr

namespace OptionName

/-- All options, in the order of the help text. -/
def all : List OptionName :=
  [mode, output, config, generateConfig, direction, level, program, format, raw, dumpGraph,
   logLevel, log, help, version]

/-- The name after two dashes. -/
def long : OptionName → String
  | mode => "mode"
  | output => "output"
  | config => "config"
  | generateConfig => "generate-config"
  | direction => "dir"
  | level => "level"
  | program => "prog"
  | format => "format"
  | raw => "raw"
  | dumpGraph => "dump-graph"
  | logLevel => "log-level"
  | log => "log"
  | help => "help"
  | version => "version"

/-- The letter after one dash. -/
def short? : OptionName → Option Char
  | mode => some 'm'
  | output => some 'o'
  | config => some 'c'
  | generateConfig => some 'g'
  | log => some 'l'
  | help => some 'h'
  | version => some 'V'
  | _ => none

/-- Does the option have a value? -/
def takesValue : OptionName → Bool
  | mode | output | config | direction | level | program | format | logLevel => true
  | generateConfig | raw | dumpGraph | log | help | version => false

/-- The option with a long name. -/
def ofLong? (name : String) : Option OptionName := all.find? (·.long == name)

/-- The option with a letter. -/
def ofShort? (c : Char) : Option OptionName := all.find? (·.short? == some c)

theorem ofLong?_long (n : OptionName) : ofLong? n.long = some n := by cases n <;> decide +kernel

end OptionName

/-! ## What is asked for -/

/-- What the arguments ask for. -/
structure Options where
  input : Option String
  mode : Mode
  output : Option String
  config : Option String
  generateConfig : Bool
  overrides : Config.Overrides
  raw : Bool
  dumpGraph : Bool
  logLevel : String
  log : Bool
  deriving DecidableEq, Repr

/-- What holds where nothing is asked for. -/
def Options.default : Options where
  input := none
  mode := .network
  output := none
  config := none
  generateConfig := false
  overrides := .none
  raw := false
  dumpGraph := false
  logLevel := "info"
  log := false

/-- Why arguments cannot be understood. -/
inductive Misuse where
  | unknown (argument : String)
  | repeated (option : OptionName)
  | missingValue (option : OptionName)
  | unexpectedValue (option : OptionName) (value : String)
  | badValue (option : OptionName) (value : String)
  | missingInput
  deriving DecidableEq, Repr

/-- What ends the reading of arguments early. -/
inductive Stop where
  | help (long : Bool)
  | version
  | misuse (m : Misuse)
  deriving DecidableEq, Repr

/-- Options being gathered, with the names that were given. -/
structure Draft where
  seen : List OptionName
  options : Options

/-! ## Values -/

/-- The kind of model that a text names. -/
def mode? : String → Option Mode
  | "forsyde" => some .network
  | "sdf3" => some .application
  | _ => none

/-- An integer of 64 bits, with or without a sign. -/
def integer? (s : String) : Option Int :=
  let (negative, ds) := match s.toList with
    | '-' :: ds => (true, ds)
    | '+' :: ds => (false, ds)
    | ds => (false, ds)
  if ds ≠ [] ∧ ds.all Char.isDigit then
    let i : Int := if negative then -(numeral 10 ds : Int) else numeral 10 ds
    if -0x8000000000000000 ≤ i ∧ i < 0x8000000000000000 then some i else none
  else none

/-- Sets an option that has a value; nothing if the value is none for it. -/
def setValue? (o : Options) (n : OptionName) (v : String) : Option Options :=
  match n with
  | .mode => (mode? v).map fun m => { o with mode := m }
  | .output => some { o with output := some v }
  | .config => some { o with config := some v }
  | .direction => some { o with overrides := { o.overrides with direction := some v } }
  | .level =>
    (integer? v).map fun i => { o with overrides := { o.overrides with level := some i } }
  | .program => some { o with overrides := { o.overrides with program := some v } }
  | .format => some { o with overrides := { o.overrides with format := some v } }
  | .logLevel => some { o with logLevel := v }
  | _ => none

/-- Sets an option without a value. -/
def setFlag (o : Options) : OptionName → Options
  | .generateConfig => { o with generateConfig := true }
  | .raw => { o with raw := true }
  | .dumpGraph => { o with dumpGraph := true }
  | .log => { o with log := true }
  | _ => o

/-! ## Reading -/

/-- Takes an option with its value. -/
def Draft.value (d : Draft) (n : OptionName) (v : String) : Except Stop Draft :=
  if n ∈ d.seen then .error (.misuse (.repeated n))
  else
    match setValue? d.options n v with
    | some o => .ok ⟨n :: d.seen, o⟩
    | none => .error (.misuse (.badValue n v))

/-- Takes an option without a value. -/
def Draft.flag (d : Draft) (n : OptionName) (long : Bool) : Except Stop Draft :=
  match n with
  | .help => .error (.help long)
  | .version => .error .version
  | n =>
    if n ∈ d.seen then .error (.misuse (.repeated n))
    else .ok ⟨n :: d.seen, setFlag d.options n⟩

/-- Takes a plain argument. -/
def Draft.plain (d : Draft) (s : String) : Except Stop Draft :=
  if d.options.input.isSome then .error (.misuse (.unknown s))
  else .ok { d with options := { d.options with input := some s } }

/-- A draft, and an option whose value is the next argument. -/
abbrev Pending := Draft × Option OptionName

/-- Takes a long option without its dashes. -/
def Draft.long (d : Draft) (s : List Char) : Except Stop Pending :=
  let (name, r) := splitRun (· != '=') s
  match OptionName.ofLong? (String.ofList name), r with
  | none, _ => .error (.misuse (.unknown (String.ofList ('-' :: '-' :: name))))
  | some n, [] => if n.takesValue then .ok (d, some n) else (d.flag n true).map (·, none)
  | some n, _ :: v =>
    if n.takesValue then (d.value n (String.ofList v)).map (·, none)
    else .error (.misuse (.unexpectedValue n (String.ofList v)))

/-- Takes one-letter options without their dash. -/
def Draft.letters (d : Draft) : List Char → Except Stop Pending
  | [] => .ok (d, none)
  | c :: s =>
    match OptionName.ofShort? c with
    | none => .error (.misuse (.unknown (String.ofList ['-', c])))
    | some n =>
      if n.takesValue then
        match s with
        | [] => .ok (d, some n)
        | '=' :: v => (d.value n (String.ofList v)).map (·, none)
        | v => (d.value n (String.ofList v)).map (·, none)
      else
        match d.flag n false with
        | .ok d => d.letters s
        | .error e => .error e

/-- Takes one argument that is no value. -/
def Draft.argument (d : Draft) (arg : String) : Except Stop Pending :=
  match arg.toList with
  | '-' :: '-' :: s => d.long s
  | '-' :: c :: s => d.letters (c :: s)
  | _ => (d.plain arg).map (·, none)

/-- Can an argument be the value of the option in front of it? -/
def isValue (arg : String) : Bool :=
  match arg.toList with
  | '-' :: _ :: _ => false
  | _ => true

/-- Takes all arguments. -/
def Draft.arguments (d : Draft) : Option OptionName → List String → Except Stop Draft
  | none, [] => .ok d
  | some n, [] => .error (.misuse (.missingValue n))
  | some n, arg :: r =>
    if isValue arg then
      match d.value n arg with
      | .ok d => d.arguments none r
      | .error e => .error e
    else .error (.misuse (.missingValue n))
  | none, arg :: r =>
    if arg = "--" then r.foldlM Draft.plain d
    else
      match d.argument arg with
      | .ok (d, pending) => d.arguments pending r
      | .error e => .error e

/-- What a row of arguments asks for.  A model is needed unless the configuration is to be
written. -/
def read (args : List String) : Except Stop Options :=
  match Draft.arguments ⟨[], .default⟩ none args with
  | .error e => .error e
  | .ok d =>
    if d.options.input.isNone && !d.options.generateConfig then .error (.misuse .missingInput)
    else .ok d.options

example : (read ["m.xml", "-gl", "-oout", "--level=-3"]).toOption =
    some { Options.default with
      input := some "m.xml", generateConfig := true, log := true, output := some "out",
      overrides := { Config.Overrides.none with level := some (-3) } } := by decide +kernel

end NetPlot.CommandLine
