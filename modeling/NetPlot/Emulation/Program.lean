/-
  Emulated programs and where they are found.

  1. **Data** — a `Program` is a tool, the command language, something that runs another program,
     or a file that can be run.

  2. **Finding** — `Program.at?` follows a path; the directories of the system have the programs
     that every system has, all others those that are in the files.  `Program.resolve` also follows
     the first line of a text that names the program to read it.
-/
import NetPlot.Emulation.Shell.Syntax
import NetPlot.Emulation.Tool.Table

namespace NetPlot.Emulation

open NetPlot.Text

/-- A program. -/
inductive Program where
  | tool (t : Tool Unit)
  | shell (dialect : Shell.Dialect)
  /-- Runs a program that its arguments name. -/
  | runner (name : String)
  | text (content : ByteArray)

namespace Program

/-- The directories of the system. -/
def systemDirectories : List String := ["/usr/bin", "/bin"]

/-- The names of the command language, in either form. -/
def shellNames : List (String × Shell.Dialect) :=
  [("sh", .plain), ("dash", .plain), ("bash", .broad), ("rbash", .broad)]

/-- The names of programs that run others, or look for them. -/
def runnerNames : List String :=
  ["env", "nice", "nohup", "setsid", "timeout", "which", "xargs"]

/-- A program of the system. -/
def ofSystem? (name : String) : Option Program :=
  match shellNames.lookup name with
  | some dialect => some (.shell dialect)
  | none =>
    if runnerNames.contains name then some (.runner name) else (Tool.named? name).map .tool

/-- What is at a path, as a program.  Texts are octets. -/
def at? (fs : Files) (path : String) : Except OsError Program :=
  let directory := Tool.directoryPart path
  if path.toList.contains '\x00' then .error .badName
  else if systemDirectories.contains directory ∧ path.toList.getLast? ≠ some '/' then
    match ofSystem? (Tool.lastPart path) with
    | some p => .ok p
    | none => .error .notFound
  else
    match fs.locate (Tool.pathOf path) with
    | .error e => .error e
    | .ok l =>
      match fs.find? l with
      | none => .error .notFound
      | some (.file content true) => .ok (.text content)
      | some _ => .error .permissionDenied

/-- The longest first line that is looked at. -/
def longestMark : Nat := 255

/-- The program that a first line names, and an argument for it. -/
def interpreter? (content : ByteArray) : Option (String × Option String) :=
  let front := (octetsOf (content.extract 0 longestMark)).toList
  match afterMark? Files.scriptMark front with
  | none => none
  | some r =>
    let gap (c : Char) := c == ' ' || c == '\t'
    let line := ((r.takeWhile (· ≠ '\n')).dropWhile gap).reverse.dropWhile gap |>.reverse
    let (name, r) := splitRun (fun c => !gap c) line
    let argument := r.dropWhile gap
    if name = [] then none
    else some (String.ofList name, if argument = [] then none else some (String.ofList argument))

/-- The program at a path and the words that it is started with; the first of them is its name. -/
def resolve (fs : Files) : Nat → String → List String → Except OsError (Program × List String)
  | 0, _, _ => .error .notExecutable
  | fuel + 1, path, words =>
    match at? fs path with
    | .error e => .error e
    | .ok (.text content) =>
      match interpreter? content with
      | none => .error .notExecutable
      | some (name, argument) =>
        resolve fs fuel name (name :: argument.toList ++ path :: words.drop 1)
    | .ok p => .ok (p, words)

/-- How many first lines are followed. -/
def longestChain : Nat := 5

/-- A path inside of a directory; an empty name means the directory where one is. -/
def pathIn (directory name : String) : String :=
  if directory = "" then name else Tool.inside directory name

/-- The places where a program may be. -/
def candidates (directories : List String) (name : String) : List String :=
  if name.toList.contains '/' then [name] else directories.map (pathIn · name)

/-- The first place with a program: what is not there is passed over, and what may not be run is
remembered as the reason. -/
def search (fs : Files) (words : List String) (reason : OsError) :
    List String → Except OsError (Program × List String)
  | [] => .error reason
  | path :: rest =>
    match resolve fs longestChain path words with
    | .ok x => .ok x
    | .error .permissionDenied => search fs words .permissionDenied rest
    | .error .notFound => search fs words reason rest
    | .error .notDirectory => search fs words reason rest
    | .error e => .error e

end Program

end NetPlot.Emulation
