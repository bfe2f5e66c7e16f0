/-
  A run of the program, from its arguments to the files it leaves.

  1. **Program** — `run` reads the arguments, opens the log, and then does one of two things: it
     writes the default configuration (`generate`), or it loads the settings, compiles the model
     and puts out the graph (`plot`) as a dump, as DOT text or as a plot.

  2. **Failure** — the first step that fails ends the run.  Its causes are reported from the
     outermost to the innermost (`report`), and the exit code is 1; it is 2 for arguments that
     cannot be understood.

  3. **Paths** — `paths` are the places that a run looks at, so that whoever has only a part of
     the files at hand knows what else to fetch.
-/
import NetPlot.CommandLine.Help
import NetPlot.Graph.Dot
import NetPlot.Graph.Dump
import NetPlot.Run.Loading
import NetPlot.Run.Rendering

namespace NetPlot.CommandLine

open NetPlot.Text NetPlot.Network

/-! ## Log levels -/

/-- How much is logged; each level has all of those before it. -/
inductive LogLevel where
  | off
  | error
  | warn
  | info
  | debug
  | trace
  deriving DecidableEq, Repr

namespace LogLevel

/-- The level that a word in any case names. -/
def ofText? (s : String) : Option LogLevel :=
  match String.ofList (s.toList.map Char.toLower) with
  | "off" => some off
  | "error" => some error
  | "warn" => some warn
  | "info" => some info
  | "debug" => some debug
  | "trace" => some trace
  | _ => none

/-- Are warnings logged? -/
def showsWarnings : LogLevel → Bool
  | off | error => false
  | warn | info | debug | trace => true

end LogLevel

/-- The note about a log level that is none. -/
def logNote (level : String) : String :=
  if (LogLevel.ofText? level).isSome then ""
  else "Invalid log level: " ++ level ++ ". Using 'warn' instead.\n"

/-- The log file of a run; it is next to the model. -/
def logFile? (o : Options) : Option Path :=
  if o.log then o.input.map fun input => (Path.mk input).directory.join "f2dot.log" else none

/-! ## Reports -/

/-- The lines of a text, the first one after a mark and the others below it. -/
def indented (mark : String) (blanks : Nat) (s : String) : String :=
  let gap := String.ofList ('\n' :: List.replicate blanks ' ')
  mark ++ gap.intercalate ((pieces '\n' [] s.toList).map String.ofList)

/-- Causes, numbered if there is more than one. -/
def causeLines : List String → List String
  | [] => []
  | [cause] => ["", "Caused by:", indented "    " 4 cause]
  | causes =>
    "" :: "Caused by:" :: (causes.zipIdx.map fun (cause, i) =>
      indented (String.ofList (List.replicate (5 - i.repr.length) ' ') ++ i.repr ++ ": ") 7 cause)

/-- The report of a failure and its causes. -/
def report : List String → String
  | [] => ""
  | message :: causes =>
    String.join (("Error: " ++ message) :: causeLines causes |>.map (· ++ "\n"))

/-! ## The steps of a run -/

/-- What a step leaves: the files, the warnings, and the text to print or the failure. -/
structure Step where
  files : Files
  warnings : List Config.Warning
  result : Except (List String) String

/-- Writes the default configuration. -/
def generate (fs : Files) (o : Options) : Step :=
  match generateConfig fs ⟨o.output.getD "."⟩ with
  | .error e => ⟨fs, [], .error e.messages⟩
  | .ok (fs, p) => ⟨fs, [], .ok ("Configuration written to " ++ p.text ++ "\n")⟩

/-- What to load for the options. -/
def loadRequest (o : Options) (input : String) : LoadRequest where
  input := ⟨input⟩
  outputDir := o.output.map Path.mk
  config := o.config.map Path.mk
  overrides := o.overrides

/-- The graph of the model, or the failure. -/
def compileModel (fs : Files) (mode : Mode) (s : Settings) : Except (List String) Graph :=
  (compileAs mode fs.source s).outcome.mapError fun t =>
    ("Failed to compile " ++ s.input.text) :: t.messages

/-- The file that a run writes. -/
def outputFile (o : Options) (s : Settings) : Path :=
  s.outputFile (if o.raw then "dot" else s.config.format)

/-- Puts out a graph: printed, as DOT text, or drawn. -/
def emit (launch : Launcher) (fs : Files) (o : Options) (s : Settings) (g : Graph) :
    Files × Except (List String) String :=
  if o.dumpGraph then (fs, .ok (g.dump ++ "\n"))
  else if o.raw then
    match writeSource fs g.toDot (outputFile o s) with
    | .error e => (fs, .error e.messages)
    | .ok fs => (fs, .ok "")
  else
    match render launch fs g.toDot s.config.program s.config.format (outputFile o s) with
    | (fs, .error e) => (fs, .error e.messages)
    | (fs, .ok ()) => (fs, .ok "")

/-- Loads, compiles and puts out a model. -/
def plot (launch : Launcher) (fs : Files) (o : Options) (input : String) : Step :=
  let loading := loadSettings fs (loadRequest o input)
  match loading.result with
  | .error e => ⟨loading.files, loading.warnings, .error e.messages⟩
  | .ok s =>
    match compileModel loading.files o.mode s with
    | .error messages => ⟨loading.files, loading.warnings, .error messages⟩
    | .ok g =>
      let (fs, result) := emit launch loading.files o s g
      ⟨fs, loading.warnings, result⟩

/-- What the options ask for. -/
def perform (launch : Launcher) (fs : Files) (o : Options) : Step :=
  match o.generateConfig, o.input with
  | false, some input => plot launch fs o input
  | _, _ => generate fs o

/-! ## The run -/

/-- What a run leaves. -/
structure Outcome where
  files : Files
  exitCode : Nat
  output : String
  errors : String
  deriving DecidableEq

/-- Warnings as lines of a log. -/
def logLines (ws : List Config.Warning) : String :=
  String.join (ws.map fun w => "[WARN] " ++ w.message ++ "\n")

/-- The first line of a log. -/
def logOpening : String := "[INFO] Starting\n"

/-- Adds warnings to a log, if it is still there. -/
def appendLog (fs : Files) (p : Path) (ws : List Config.Warning) : Files :=
  match fs.readText p with
  | .ok old => ((fs.writeText p (old ++ logLines ws)).toOption).getD fs
  | .error _ => fs

/-- Ends a run: warnings go to the log file if there is one, and else to the errors as far as the
log level shows them. -/
def finish (o : Options) (x : Step) : Outcome :=
  let level := (LogLevel.ofText? o.logLevel).getD .warn
  let (files, shown) := match logFile? o with
    | some p => (appendLog x.files p x.warnings, "")
    | none => (x.files, if level.showsWarnings then logLines x.warnings else "")
  match x.result with
  | .ok output => ⟨files, 0, output, logNote o.logLevel ++ shown⟩
  | .error messages => ⟨files, 1, "", logNote o.logLevel ++ shown ++ report messages⟩

/-- Creates the log file if one is asked for. -/
def openLog (fs : Files) (o : Options) : Except (List String) Files :=
  match logFile? o with
  | none => .ok fs
  | some p =>
    (fs.writeText p logOpening).mapError fun e =>
      ["Failed to create log file " ++ p.text, e.message]

/-- A run with options. -/
def runOptions (launch : Launcher) (fs : Files) (o : Options) : Outcome :=
  match openLog fs o with
  | .error messages => ⟨fs, 1, "", logNote o.logLevel ++ report messages⟩
  | .ok fs => finish o (perform launch fs o)

/-- A run with arguments. -/
def run (launch : Launcher) (fs : Files) (args : List String) : Outcome :=
  match read args with
  | .error (.help long) => ⟨fs, 0, helpText long, ""⟩
  | .error .version => ⟨fs, 0, versionText, ""⟩
  | .error (.misuse m) => ⟨fs, 2, "", misuseText m⟩
  | .ok o => runOptions launch fs o

/-! ## Paths -/

/-- The places that a run with a model looks at, as far as the files show. -/
def plotPaths (fs : Files) (o : Options) (input : String) : List Path :=
  let config := (o.config.map Path.mk).getD (configBeside (Path.mk input).directory)
  let loading := loadSettings fs (loadRequest o input)
  match loading.result with
  | .error _ => [config]
  | .ok s =>
    config :: outputFile o s :: (compileAs o.mode loading.files.source s).opened

/-- The places that a run looks at, as far as the files show. -/
def paths (fs : Files) (args : List String) : List Path :=
  match read args with
  | .error _ => []
  | .ok o =>
    (logFile? o).toList ++
      match o.generateConfig, o.input with
      | false, some input => plotPaths fs o input
      | _, _ => [configBeside ⟨o.output.getD "."⟩]

end NetPlot.CommandLine
