/-
  Loading the settings of a run.

  1. **Program** — `loadSettings` finds the configuration: the file that was given, or the one next to
     the model, which is written first where there is none (`ensureConfig`).  Its text is read and
     the values of the command line are set on top.

  2. **Refusals** — `LoadError` says at which step it ended and on which path.

  3. **Effect** — at most the configuration next to the model changes, and only from nothing to
     the default text.
-/
import NetPlot.Config.DefaultText
import NetPlot.Host.Files

namespace NetPlot

open NetPlot.Config

/-- Why there are no settings. -/
inductive LoadError where
  /-- The input names no file. -/
  | badInput (input : Path)
  | unreadable (config : Path) (cause : OsError)
  | unwritable (config : Path) (cause : OsError)
  | badConfig (config : Path) (cause : Config.Error)
  deriving DecidableEq, Repr

/-- The error in words, outermost first. -/
def LoadError.messages : LoadError → List String
  | badInput input => ["Input path `" ++ input.text ++ "` does not name a model file"]
  | unreadable config cause =>
    ["Failed to read configuration file " ++ config.text, cause.message]
  | unwritable config cause =>
    ["Failed to write configuration file " ++ config.text, cause.message]
  | badConfig config cause => cause.messages config

/-- What to load settings for. -/
structure LoadRequest where
  input : Path
  outputDir : Option Path
  config : Option Path
  overrides : Overrides
  deriving DecidableEq, Repr

/-- What loading leaves. -/
structure Loading where
  files : Files
  warnings : List Warning
  result : Except LoadError Settings

/-- The configuration file next to a model. -/
def configBeside (dir : Path) : Path := dir.join fileName

/-- Writes the default configuration. -/
def writeDefault (fs : Files) (p : Path) : Except LoadError Files :=
  (fs.writeText p defaultText).mapError (.unwritable p)

/-- Writes the default configuration where nothing is. -/
def ensureConfig (fs : Files) (p : Path) : Except LoadError Files :=
  if fs.exists p then .ok fs else writeDefault fs p

/-- The settings with the configuration in a text and the given values on top. -/
def withConfig (s : Settings) (path : Path) (text : String) (o : Overrides) :
    List Warning × Except LoadError Settings :=
  let outcome := Config.read text
  match outcome.result with
  | .error e => (outcome.warnings, .error (.badConfig path e))
  | .ok c => (outcome.warnings ++ (c.apply o).2, .ok { s with config := (c.apply o).1 })

/-- Reads the configuration at a path. -/
def loadConfig (fs : Files) (s : Settings) (path : Path) (o : Overrides) : Loading :=
  match fs.readText path with
  | .error e => ⟨fs, [], .error (.unreadable path e)⟩
  | .ok text => ⟨fs, (withConfig s path text o).1, (withConfig s path text o).2⟩

/-- Loads the settings of a run. -/
def loadSettings (fs : Files) (r : LoadRequest) : Loading :=
  match Settings.new? r.input r.outputDir .default with
  | none => ⟨fs, [], .error (.badInput r.input)⟩
  | some s =>
    match r.config with
    | some path => loadConfig fs s path r.overrides
    | none =>
      match ensureConfig fs (configBeside s.inDir) with
      | .error e => ⟨fs, [], .error e⟩
      | .ok fs => loadConfig fs s (configBeside s.inDir) r.overrides

/-- Writes the default configuration into a directory, also over an older one. -/
def generateConfig (fs : Files) (dir : Path) : Except LoadError (Files × Path) :=
  (writeDefault fs (configBeside dir)).map (·, configBeside dir)

/-- Where a configuration is given, loading changes no file. -/
theorem files_loadSettings_of_config (fs : Files) (r : LoadRequest) {p : Path} (h : r.config = some p) :
    (loadSettings fs r).files = fs := by
  unfold loadSettings
  split
  · rfl
  · simp only [h, loadConfig]; split <;> rfl

end NetPlot
