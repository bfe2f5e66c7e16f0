/-
  What the command line says about itself: the help text, the version, and why arguments cannot
  be understood.
-/
import NetPlot.CommandLine.Options

namespace NetPlot.CommandLine

namespace OptionName

/-- What stands for the value of an option. -/
def placeholder (n : OptionName) : String :=
  " <" ++ String.ofList (n.long.toList.map fun c => if c = '-' then '_' else c.toUpper) ++ ">"

/-- The option as it is written, with its value. -/
def usage (n : OptionName) : String :=
  "--" ++ n.long ++ if n.takesValue then n.placeholder else ""

/-- The option with its letter, at the front of a line of help. -/
def heading (n : OptionName) : String :=
  (match n.short? with
    | some c => "  -" ++ String.singleton c ++ ", "
    | none => "      ") ++ n.usage

/-- What an option does. -/
def purpose : OptionName → String
  | mode => "Kind of model in INPUT"
  | output => "Output directory (default: the input folder)"
  | config => "Configuration file (default: f2dot.toml in the input folder)"
  | generateConfig => "Write the default configuration file and exit"
  | direction => "Plot direction: LR or TB"
  | level => "Detail level; composites at this depth are drawn as boxes"
  | program => "Graphviz layout program"
  | format => "Graphviz output format"
  | raw => "Write the DOT source without running Graphviz"
  | dumpGraph => "Print the compiled graph as JSON instead of writing a file"
  | logLevel => "Log level: off, error, warn, info, debug or trace"
  | log => "Write a debug log to f2dot.log in the input folder"
  | help => "Print help"
  | version => "Print version"

/-- Notes on the values of an option, one after the other. -/
def notes : OptionName → List String
  | mode => ["[default: forsyde]", "[possible values: forsyde, sdf3]"]
  | logLevel => ["[default: info]"]
  | _ => []

end OptionName

/-- The line that shows how to call the program. -/
def usageLine : String := "Usage: f2dot [OPTIONS] [INPUT]"

/-- What the program is for. -/
def about : String := "Plot ForSyDe-XML and SDF3 models as Graphviz graphs"

/-- A text filled up with blanks to a width. -/
def padTo (width : Nat) (s : String) : String :=
  s ++ String.ofList (List.replicate (width - s.length) ' ')

/-- The line of help for an option; the help option points to the other kind of help. -/
def shortHelp (n : OptionName) : String :=
  let more := if n = .help then " (see more with '--help')" else ""
  padTo 31 n.heading ++ " ".intercalate ((n.purpose ++ more) :: n.notes) ++ "\n"

/-- The help for an option over several lines. -/
def longHelp (n : OptionName) : String :=
  let lines := match n with
    | .mode =>
      [n.purpose, "", "Possible values:", "- forsyde: Hierarchical ForSyDe-XML process network",
       "- sdf3:    SDF3 application graph", "", "[default: forsyde]"]
    | .logLevel => [n.purpose, "", "[default: info]"]
    | .help => [n.purpose ++ " (see a summary with '-h')"]
    | n => [n.purpose]
  n.heading ++ "\n"
    ++ String.join (lines.map fun s => (if s = "" then "" else "          " ++ s) ++ "\n")

/-- The help text. -/
def helpText (long : Bool) : String :=
  about ++ "\n\n" ++ usageLine ++ "\n\nArguments:\n"
    ++ (if long then "  [INPUT]\n          Root model file\n" else "  [INPUT]  Root model file\n")
    ++ "\nOptions:\n"
    ++ if long then "\n".intercalate (OptionName.all.map longHelp)
      else String.join (OptionName.all.map shortHelp)

/-- The version. -/
def versionText : String := "f2dot 0.2.0\n"

/-- What is wrong with the arguments, in words. -/
def Misuse.message : Misuse → String
  | unknown argument => "unexpected argument '" ++ argument ++ "' found"
  | repeated n => "the argument '" ++ n.usage ++ "' cannot be used multiple times"
  | missingValue n => "a value is required for '" ++ n.usage ++ "' but none was supplied"
  | unexpectedValue n v => "unexpected value '" ++ v ++ "' for '" ++ n.usage ++ "' found; no more were expected"
  | badValue n v => "invalid value '" ++ v ++ "' for '" ++ n.usage ++ "'"
  | missingInput => "the following required arguments were not provided:\n  <INPUT>"

/-- The message for arguments that cannot be understood. -/
def misuseText (m : Misuse) : String :=
  "error: " ++ m.message ++ "\n\n" ++ usageLine ++ "\n\nFor more information, try '--help'.\n"

end NetPlot.CommandLine
