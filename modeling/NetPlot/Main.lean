/-
  The program.

  A run is a function on files (`CommandLine.run`).  Here the files that it looks at are fetched,
  again and again until it looks at nothing new, and afterwards what it changed is written back.
-/
import NetPlot.CommandLine.Run

namespace NetPlot

open NetPlot.Text

/-- The names of a path from the root down. -/
def locationOf (home : Location) (p : Path) : Location :=
  let start := if p.text.toList.head? = some '/' then [] else home
  ((pieces '/' [] p.text.toList).map String.ofList).foldl
    (fun l name =>
      if name = "" ∨ name = "." then l else if name = ".." then l.dropLast else l ++ [name])
    start

/-- The text of a location. -/
def locationText (l : Location) : String := "/" ++ "/".intercalate l

/-- What is at a location on the disk. -/
def fetch (l : Location) : IO (Option Entry) := do
  let p := (← IO.currentDir) / locationText l
  if ← p.isDir then return some .directory
  try
    return some (.file (← IO.FS.readBinFile p) false)
  catch _ => return none

/-- Adds the entries at a location and on the way to it. -/
def fetchAll (fs : Files) (l : Location) : IO Files :=
  ((List.range (l.length + 1)).map l.take).foldlM
    (fun fs d => do
      if (fs.find? d).isSome then return fs
      match ← fetch d with
      | some e => return fs.put d e
      | none => return fs)
    fs

/-- Fetches what a run looks at, until there is nothing new. -/
partial def gather (args : List String) (fs : Files) (known : List Location) : IO Files := do
  let wanted := (CommandLine.paths fs args).map (locationOf fs.home)
  match wanted.filter fun l => !known.contains l with
  | [] => return fs
  | fresh => gather args (← fresh.foldlM fetchAll fs) (fresh ++ known)

/-- Writes back the files that a run has changed. -/
def writeBack (before after : Files) : IO Unit :=
  after.entries.forM fun (l, e) =>
    match e with
    | .file content _ =>
      if before.find? l = some e then pure () else IO.FS.writeBinFile (locationText l) content
    | .directory => pure ()
    | .void => pure ()

end NetPlot

open NetPlot in
/-- Runs the program on the files of the disk. -/
def main (args : List String) : IO UInt32 := do
  let home := locationOf [] ⟨(← IO.currentDir).toString⟩
  let before ← gather args (← fetchAll ⟨home, []⟩ home) []
  let outcome := CommandLine.run .none before args
  writeBack before outcome.files
  IO.print outcome.output
  IO.eprint outcome.errors
  return outcome.exitCode.toUInt32
