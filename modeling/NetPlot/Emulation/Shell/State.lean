/-
  The state of a running script.

  1. **Streams** — a `Stream` is an open file, or a text that is read or written.  Commands know
     them by small numbers (`descriptors`); several numbers may mean one stream, and then they
     share its position.

  2. **Values** — names have values, which may be handed on to other programs and may be fixed.

  3. **Flow** — `flow` tells whether the next command is run, or how far a script is left.

  The directory of a script is the `home` of its files.
-/
import NetPlot.Emulation.Files
import NetPlot.Emulation.Octets
import NetPlot.Emulation.Shell.Syntax
import NetPlot.Emulation.Signal

namespace NetPlot.Emulation.Shell

open NetPlot.Text

/-! ## Data -/

/-- Where an open stream leads. -/
inductive Stream where
  | void
  /-- A text of which this much is still to be read. -/
  | source (rest : List Char)
  /-- A text of which this much has been written. -/
  | sink (text : String)
  | file (place : Location) (position : Nat) (atEnd : Bool)
  /-- A directory, of which nothing can be read. -/
  | directory

/-- What is known about a name. -/
structure Variable where
  value : Option String
  exported : Bool
  fixed : Bool
  deriving DecidableEq, Repr

/-- What comes after a command. -/
inductive Flow where
  | go
  /-- Out of so many loops. -/
  | leave (loops : Nat)
  /-- Out of all but one of so many loops, and on with the last. -/
  | again (loops : Nat)
  | back
  /-- Out of the line. -/
  | drop
  | exit
  | killed (signal : Nat)
  deriving DecidableEq, Repr

/-- A running script. -/
structure Script where
  dialect : Dialect
  files : Files
  streams : Array Stream
  descriptors : List (Nat × Nat)
  bindings : List (String × Variable)
  functions : List (String × Command)
  /-- The values to put back when functions are left, innermost first. -/
  frames : List (List (String × Option Variable))
  /-- Is the text of another file run? -/
  sourced : Bool
  program : String
  arguments : List String
  /-- The letters of the options that are on. -/
  options : List Char
  status : Nat
  flow : Flow
  /-- What is done when a signal comes; number zero is the end of the script. -/
  traps : List (Nat × String)
  /-- What the script does about signals that its parts send to it. -/
  outerTraps : List (Nat × String)
  /-- Signals that came and were not dealt with. -/
  pending : List Nat
  line : Nat
  /-- What a complaint names after the line. -/
  context : String
  loops : Nat
  /-- May a command fail without ending the script? -/
  tested : Bool
  /-- Is this a part of the script with a state of its own? -/
  apart : Bool
  number : Nat
  /-- The number of the last program that was started on the side, and how it ended. -/
  aside : Option (Nat × Nat)
  /-- The status of the last command in a word. -/
  captured : Option Nat
  /-- How far `getopts` has come inside an argument. -/
  letterIndex : Nat
  /-- What new files do not allow. -/
  mask : Nat

/-- A way to run commands. -/
abbrev Runner := Command → Script → Script

namespace Script

/-! ## Streams -/

/-- The stream behind a number, and where it is kept. -/
def stream? (sh : Script) (descriptor : Nat) : Option (Nat × Stream) := do
  let i ← sh.descriptors.lookup descriptor
  let s ← sh.streams[i]?
  some (i, s)

/-- Changes a stream. -/
def setStream (sh : Script) (i : Nat) (s : Stream) : Script :=
  { sh with streams := sh.streams.setIfInBounds i s }

/-- Opens a stream and gives its place. -/
def openStream (sh : Script) (s : Stream) : Nat × Script :=
  (sh.streams.size, { sh with streams := sh.streams.push s })

/-- Lets a number mean a stream. -/
def bind (sh : Script) (descriptor i : Nat) : Script :=
  { sh with descriptors := (descriptor, i) :: sh.descriptors.filter fun d => d.1 != descriptor }

/-- Lets a number mean nothing. -/
def unbind (sh : Script) (descriptor : Nat) : Script :=
  { sh with descriptors := sh.descriptors.filter fun d => d.1 != descriptor }

/-- Bytes with others in place of those from a position on; a gap is filled with zeros. -/
def splice (old new : ByteArray) (position : Nat) : ByteArray :=
  let front := old.extract 0 position
  let gap := ByteArray.mk (Array.replicate (position - front.size) 0)
  front ++ gap ++ new ++ old.extract (position + new.size) old.size

/-- Writes to a stream. -/
def writeStream (sh : Script) (i : Nat) (text : String) : Script :=
  match sh.streams[i]? with
  | some (.sink t) => sh.setStream i (.sink (t ++ text))
  | some (.file l position atEnd) =>
    match sh.files.find? l with
    | some (.file content executable) =>
      let new := bytesOf text
      let start := if atEnd then content.size else position
      let sh := sh.setStream i (.file l (start + new.size) atEnd)
      { sh with files := sh.files.put l (.file (splice content new start) executable) }
    | _ => sh
  | _ => sh

/-- Writes to the stream behind a number. -/
def write (sh : Script) (descriptor : Nat) (text : String) : Script :=
  match sh.descriptors.lookup descriptor with
  | some i => sh.writeStream i text
  | none => sh

/-- What can be read from the stream behind a number. -/
def readable (sh : Script) (descriptor : Nat) : String :=
  match sh.stream? descriptor with
  | some (_, .source rest) => String.ofList rest
  | some (_, .file l position _) =>
    match sh.files.find? l with
    | some (.file content _) => octetsOf (content.extract position content.size)
    | _ => ""
  | _ => ""

/-- Leaves out so many octets of what can be read. -/
def advance (sh : Script) (descriptor n : Nat) : Script :=
  match sh.stream? descriptor with
  | some (i, .source rest) => sh.setStream i (.source (rest.drop n))
  | some (i, .file l position atEnd) => sh.setStream i (.file l (position + n) atEnd)
  | _ => sh

/-! ## Complaints -/

/-- What holds in the form of the script. -/
def pick {α : Type} (sh : Script) (plain broad : α) : α :=
  match sh.dialect with
  | .plain => plain
  | .broad => broad

/-- Is the script in the broad form? -/
def isBroad (sh : Script) : Bool := sh.pick false true

/-- Writes to the errors, with the program and the line in front. -/
def complain (sh : Script) (message : String) : Script :=
  sh.write 2 (sh.program ++ ": " ++ sh.pick "" "line " ++ sh.line.repr ++ ": " ++ sh.context
    ++ message ++ "\n")

/-- Complains and ends the script. -/
def fail (sh : Script) (message : String) : Script :=
  { sh.complain message with status := sh.pick 2 1, flow := .exit }

/-- Complains and ends the script, or in the broad form the line. -/
def giveUp (sh : Script) (plain broad : String) : Script :=
  match sh.dialect with
  | .plain => sh.fail plain
  | .broad => { ({ sh with context := "" }).complain broad with
      context := sh.context, status := 1, flow := .drop }

/-- Sets the status by a condition. -/
def answer (sh : Script) (b : Bool) : Script := { sh with status := if b then 0 else 1 }

/-! ## Names -/

/-- What is known about a name. -/
def binding? (sh : Script) (name : String) : Option Variable := sh.bindings.lookup name

/-- The value of a name. -/
def value? (sh : Script) (name : String) : Option String := (sh.binding? name).bind (·.value)

/-- Replaces what is known about a name. -/
def setVariable (sh : Script) (name : String) (v : Option Variable) : Script :=
  { sh with bindings := (v.map (name, ·)).toList ++ sh.bindings.filter fun x => x.1 != name }

/-- Gives a value to a name, unless the name is fixed. -/
def assign (sh : Script) (name value : String) : Script :=
  let old := sh.binding? name
  if (old.map (·.fixed)).getD false then
    sh.giveUp (name ++ ": is read only") (name ++ ": readonly variable")
  else
    let exported := (old.map (·.exported)).getD false || sh.options.contains 'a'
    let sh := sh.setVariable name (some ⟨some value, exported, false⟩)
    if name = "OPTIND" then { sh with letterIndex := 0 } else sh

/-- The names that other programs get to know, with their values. -/
def environment (sh : Script) : List (String × String) :=
  sh.bindings.filterMap fun (name, v) =>
    if v.exported then v.value.map (name, ·) else none

/-- The characters at which values are split. -/
def separators (sh : Script) : List Char := ((sh.value? "IFS").getD " \t\n").toList

/-- Is an option on? -/
def has (sh : Script) (option : Char) : Bool := sh.options.contains option

/-- Turns an option on or off. -/
def setOption (sh : Script) (option : Char) (on : Bool) : Script :=
  let others := sh.options.filter (· != option)
  { sh with options := if on then others ++ [option] else others }

/-- The text of the directory where a script is. -/
def directory (sh : Script) : String := toOctets ("/" ++ "/".intercalate sh.files.home)

/-! ## Parts -/

/-- The state of a part that has a state of its own. -/
def part (sh : Script) : Script :=
  { sh with traps := sh.traps.filter (·.2 = ""), outerTraps := if sh.apart then sh.outerTraps else sh.traps,
            apart := true, loops := 0, pending := [] }

/-- The state after a part: what the part did to files and streams stays. -/
def afterPart (sh inner : Script) : Script :=
  { sh with files := { inner.files with home := sh.files.home }, streams := inner.streams,
            status := inner.status, pending := sh.pending ++ inner.pending,
            flow := match inner.flow with
              | .killed n => .killed n
              | _ => sh.flow }

/-- Runs something with other descriptors, and puts them back. -/
def withDescriptors (sh : Script) (act : Script → Script) : Script :=
  { act sh with descriptors := sh.descriptors }

end Script

end NetPlot.Emulation.Shell
