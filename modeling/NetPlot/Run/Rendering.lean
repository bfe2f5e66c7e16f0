/-
  From the files of a model to the files of a plot.

  `Files.source` takes the documents of a model from files.  `writeSource` writes DOT text as it
  is; `render` hands it to a layout program, which writes the plot itself.
-/
import NetPlot.Host.Launch
import NetPlot.Network.Document

namespace NetPlot

/-- Documents are the contents of files. -/
def Files.source (fs : Files) : Network.Source := fun p =>
  (fs.readText p).mapError fun e => ⟨["Failed to read " ++ p.text, e.message]⟩

/-- Why there is no plot. -/
inductive PlotError where
  | unwritable (path : Path) (cause : OsError)
  | unstartable (program : String) (cause : OsError)
  /-- The layout program did not take all of the graph. -/
  | unpiped (program : String)
  /-- The layout program gave up. -/
  | failed (program : String) (status : Status) (errors : String)
  deriving DecidableEq, Repr

/-- The error in words, outermost first. -/
def PlotError.messages : PlotError → List String
  | unwritable path cause => ["Failed to write " ++ path.text, cause.message]
  | unstartable program cause =>
    ["Failed to start Graphviz program `" ++ program ++ "`", cause.message]
  | unpiped program =>
    ["Failed to pipe graph into `" ++ program ++ "`", OsError.brokenPipe.message]
  | failed program status errors =>
    ["`" ++ program ++ "` exited with " ++ status.text ++ ": " ++ Text.trim errors]

/-- Writes DOT text as it is. -/
def writeSource (fs : Files) (dot : String) (out : Path) : Except PlotError Files :=
  (fs.writeText out dot).mapError (.unwritable out)

/-- The arguments of a layout program. -/
def renderArguments (format : String) (out : Path) : List String := ["-T" ++ format, "-o", out.text]

/-- As many bytes as this can be written to a program that does not read them. -/
def pipeSize : Nat := 65536

/-- What a layout program has done. -/
def rendered (program : String) (x : Finished) : Except PlotError Unit :=
  if pipeSize < x.unread then .error (.unpiped program)
  else if x.status.success then .ok ()
  else .error (.failed program x.status x.errors)

/-- Has a layout program draw DOT text.  What the program did to the files stays, also when it
failed. -/
def render (launch : Launcher) (fs : Files) (dot program format : String) (out : Path) :
    Files × Except PlotError Unit :=
  match launch fs program (renderArguments format out) dot with
  | .error e => (fs, .error (.unstartable program e))
  | .ok x => (x.files, rendered program x)

end NetPlot
