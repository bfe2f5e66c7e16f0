/-
  Tools: the programs that every system has.

  1. **Data** — a tool gets a `Request` with its arguments, its whole input and the files, and
     leaves a `Work`: the files, what it wrote to which stream, its status, and how much of the
     input it took.  Texts are octets.

  2. **Program** — `Tool` is what a tool does.  `stop` ends it; `readOptions` reads the options in
     front of and between the operands.

  3. **Complaints** — a complaint has the name of the tool in front; one about the arguments ends
     with a hint (`misuse`).
-/
import NetPlot.Emulation.Files
import NetPlot.Emulation.Octets
import NetPlot.Text.Numeral

namespace NetPlot.Emulation

open NetPlot.Text

namespace Tool

/-- What a tool is given. -/
structure Request where
  name : String
  arguments : List String
  input : String
  /-- Can the input be read again from any place? -/
  seekable : Bool
  /-- Is the input a directory, so that nothing can be read? -/
  barred : Bool
  environment : List (String × String)

/-- What a tool has done so far. -/
structure Work where
  files : Files
  /-- What was written to which stream, the last first. -/
  written : List (Nat × String)
  status : Nat
  /-- How many octets of the input were taken. -/
  taken : Nat

end Tool

/-- What a tool does. -/
abbrev Tool := ReaderT Tool.Request (ExceptT Unit (StateM Tool.Work))

namespace Tool

/-- Runs a tool. -/
def run (t : Tool Unit) (r : Request) (fs : Files) : Work := (StateT.run (ExceptT.run (ReaderT.run t r)) ⟨fs, [], 0, 0⟩).2

/-! ## Writing -/

/-- Writes to a stream. -/
def write (stream : Nat) (s : String) : Tool Unit :=
  modify fun w => if s.isEmpty then w else { w with written := (stream, s) :: w.written }

/-- Writes to the output. -/
def say (s : String) : Tool Unit := write 1 s

/-- Sets the status. -/
def setStatus (n : Nat) : Tool Unit := modify fun w => { w with status := n }

/-- Complains with the name of the tool in front. -/
def warn (s : String) : Tool Unit := do write 2 ((← read).name ++ ": " ++ s ++ "\n")

/-- Complains, and fails in the end. -/
def fault (s : String) : Tool Unit := do
  warn s
  setStatus 1

/-- Ends the tool with a status. -/
def stop {α : Type} (status : Nat) : Tool α := do
  setStatus status
  throw ()

/-- Complains and ends the tool. -/
def refuse {α : Type} (s : String) (status : Nat) : Tool α := do
  warn s
  stop status

/-- The name of a tool without its directory. -/
def ownName (name : String) : String :=
  String.ofList (((pieces '/' [] name.toList).getLast?).getD [])

/-- What stands under a complaint about the arguments of a tool. -/
def hintFor (name : String) : String :=
  let own := ownName name
  let front :=
    if ["grep", "egrep", "fgrep"].contains own then
      "Usage: " ++ own ++ " [OPTION]... PATTERNS [FILE]...\n"
    else if ["cmp", "diff"].contains own then name ++ ": "
    else ""
  let shown := if ["grep", "egrep", "fgrep", "rev"].contains own then own else name
  front ++ "Try '" ++ shown ++ " --help' for more information.\n"

/-- Complains about the arguments and ends the tool. -/
def misuse {α : Type} (s : String) (status : Nat) : Tool α := do
  warn s
  write 2 (hintFor (← read).name)
  stop status

/-- A name in quotes. -/
def quote (s : String) : String := "'" ++ s ++ "'"

/-! ## Options -/

/-- An option that a tool knows: its letter, its long name, and whether it takes a value. -/
structure Known where
  letter : Char
  long : String
  valued : Bool

/-- The known options of a row of letters, those with a value before a colon, and of long names. -/
def knownOptions (letters : String) (longs : List (String × Char)) : List Known :=
  let rec row : List Char → List (Char × Bool)
    | [] => []
    | c :: ':' :: r => (c, true) :: row r
    | c :: r => (c, false) :: row r
  let table := row letters.toList
  table.flatMap fun (c, valued) =>
    match longs.filter fun l => l.2 == c with
    | [] => [⟨c, "", valued⟩]
    | ls => ls.map fun l => ⟨c, l.1, valued⟩

/-- Options with their values, and operands. -/
structure Given where
  options : List (Char × String)
  operands : List String

namespace Given

/-- Was an option given? -/
def has (g : Given) (c : Char) : Bool := g.options.any fun o => o.1 == c

/-- The last value of an option. -/
def value? (g : Given) (c : Char) : Option String := g.options.reverse.lookup c

/-- The last of several options that exclude each other. -/
def last? (g : Given) (cs : List Char) : Option Char :=
  (g.options.reverse.find? fun o => cs.contains o.1).map (·.1)

/-- Adds an option in front. -/
def add (g : Given) (c : Char) (value : String) : Given :=
  { g with options := (c, value) :: g.options }

end Given

/-- Does a text begin with another one? -/
def beginsWith (mark s : String) : Bool := (afterMark? mark.toList s.toList).isSome

/-- The options in a group of letters; the next argument may be the value of the last of them. -/
def readLetters (known : List Known) (status : Nat) :
    List Char → List String → Tool (List (Char × String) × List String)
  | [], rest => return ([], rest)
  | c :: cs, rest => do
    match known.find? fun k => k.letter == c with
    | none => misuse ("invalid option -- '" ++ String.singleton c ++ "'") status
    | some k =>
      if k.valued then
        match cs, rest with
        | [], [] => misuse ("option requires an argument -- '" ++ String.singleton c ++ "'") status
        | [], v :: rest => return ([(c, v)], rest)
        | cs, rest => return ([(c, String.ofList cs)], rest)
      else
        let (more, rest) ← readLetters known status cs rest
        return ((c, "") :: more, rest)

/-- The options of a long argument after its two dashes. -/
def readLong (known : List Known) (status : Nat) (s : String) (rest : List String) :
    Tool ((Char × String) × List String) := do
  let (name, value) := splitRun (· ≠ '=') s.toList
  let name := String.ofList name
  let exact := known.filter fun k => k.long == name && k.long != ""
  let found := if exact.isEmpty then known.filter fun k => k.long != "" && beginsWith name k.long
    else exact
  match found, value with
  | [], _ => misuse ("unrecognized option '--" ++ s ++ "'") status
  | k :: more, value =>
    if more.any fun m => m.letter != k.letter then
      misuse ("option '--" ++ s ++ "' is ambiguous; possibilities:"
        ++ String.join (found.map fun m => " '--" ++ m.long ++ "'")) status
    else if k.valued then
      match value, rest with
      | _ :: v, rest => return ((k.letter, String.ofList v), rest)
      | [], v :: rest => return ((k.letter, v), rest)
      | [], [] => misuse ("option '--" ++ k.long ++ "' requires an argument") status
    else if value.isEmpty then return ((k.letter, ""), rest)
    else misuse ("option '--" ++ k.long ++ "' doesn't allow an argument") status

/-- Reads options and operands; `strict` says that the first operand ends the options. -/
def readOptions (known : List Known) (status : Nat) (strict : Bool) :
    Nat → List String → Tool Given
  | 0, rest => return ⟨[], rest⟩
  | _, [] => return ⟨[], []⟩
  | fuel + 1, a :: rest => do
    match a.toList with
    | ['-', '-'] => return ⟨[], rest⟩
    | '-' :: '-' :: cs =>
      let (o, rest) ← readLong known status (String.ofList cs) rest
      return (← readOptions known status strict fuel rest).add o.1 o.2
    | '-' :: c :: cs =>
      let (os, rest) ← readLetters known status (c :: cs) rest
      let g ← readOptions known status strict fuel rest
      return { g with options := os ++ g.options }
    | _ =>
      if strict then return ⟨[], a :: rest⟩
      else
        let g ← readOptions known status strict fuel rest
        return { g with operands := a :: g.operands }

/-- The options and operands of the tool. -/
def given (letters : String) (longs : List (String × Char)) (status : Nat) : Tool Given := do
  let arguments := (← read).arguments
  readOptions (knownOptions letters longs) status false (arguments.length + 1) arguments

/-- The same for a tool whose first operand ends the options. -/
def givenInFront (letters : String) (longs : List (String × Char)) (status : Nat) :
    Tool Given := do
  let arguments := (← read).arguments
  readOptions (knownOptions letters longs) status true (arguments.length + 1) arguments

/-- Complains about an operand that is lacking. -/
def lacking {α : Type} (status : Nat) : Tool α := misuse "missing operand" status

/-- Complains about an operand that is too much. -/
def extra {α : Type} (s : String) (status : Nat) : Tool α :=
  misuse ("extra operand " ++ quote s) status

/-! ## Files -/

/-- The path that octets name. -/
def pathOf (s : String) : Path := ⟨lossyText s⟩

/-- Takes all of the input. -/
def takeInput : Tool String := do
  let input := (← read).input
  let taken := (← get).taken
  modify fun w => { w with taken := input.length }
  return String.ofList (input.toList.drop taken)

/-- Names of the input among those of files. -/
def inputNames : List String := ["/dev/stdin", "/dev/fd/0", "/proc/self/fd/0"]

/-- The number of the stream that a name means. -/
def streamOf? (name : String) : Option Nat :=
  if name = "/dev/stdout" ∨ name = "/dev/fd/1" ∨ name = "/proc/self/fd/1" then some 1
  else if name = "/dev/stderr" ∨ name = "/dev/fd/2" ∨ name = "/proc/self/fd/2" then some 2
  else none

/-- The content of a file, or of the input for `-`. -/
def contentOf (name : String) : Tool (Except OsError String) := do
  if name = "-" ∨ inputNames.contains name then
    if (← read).barred then return .error .isDirectory
    return .ok (← takeInput)
  else return ((← get).files.read (pathOf name)).map octetsOf

/-- Writes a file. -/
def writeFile (name content : String) : Tool (Except OsError Unit) := do
  match streamOf? name with
  | some n =>
    write n content
    return .ok ()
  | none =>
    match (← get).files.write (pathOf name) (bytesOf content) with
    | .error e => return .error e
    | .ok fs =>
      modify fun w => { w with files := fs }
      return .ok ()

/-- What is at a path. -/
def entryAt (name : String) : Tool (Except OsError (Location × Option Entry)) := do
  let fs := (← get).files
  return (fs.locate (pathOf name)).map fun l => (l, fs.find? l)

/-- Does a path lead to a directory? -/
def isDirectory (name : String) : Tool Bool := do
  match ← entryAt name with
  | .ok (_, some .directory) => return true
  | _ => return false

/-- Changes the files. -/
def setFiles (fs : Files) : Tool Unit := modify fun w => { w with files := fs }

/-! ## Lines -/

/-- The lines of a text without their ends; a last line may have none. -/
def linesOf (s : String) : List String :=
  if s.isEmpty then []
  else
    let ls := (pieces '\n' [] s.toList).map String.ofList
    if s.toList.getLast? = some '\n' then ls.dropLast else ls

/-- The lines of a text with their ends. -/
def fullLines (s : String) : List String :=
  let ls := pieces '\n' [] s.toList
  let ended := ls.dropLast.map fun l => String.ofList (l ++ ['\n'])
  match ls.getLast? with
  | none => ended
  | some [] => ended
  | some l => ended ++ [String.ofList l]

/-- A text with blanks in front, up to a width. -/
def padLeft (width : Nat) (s : String) : String :=
  String.ofList (List.replicate (width - s.length) ' ') ++ s

/-- The number that a row of digits is. -/
def digits? (s : String) : Option Nat :=
  if s ≠ "" ∧ s.all Char.isDigit then some (numeral 10 s.toList) else none

/-- Does something with the content of each file, and complains about those that cannot be
read. -/
def forContents (names : List String) (act : String → String → Tool Unit) : Tool Unit := do
  for name in (if names.isEmpty then ["-"] else names) do
    match ← contentOf name with
    | .ok s => act name s
    | .error e => fault (name ++ ": " ++ e.reason)

end Tool

end NetPlot.Emulation
