/-
  A launcher for trials.

  The programs that it starts are emulated: `Emulation` has a command language and the tools that
  scripts call, as functions on files and streams.  With it a request that brings a script along as
  its layout program can be answered without a system around.

  What the program itself is made of takes a `Launcher` as a parameter, and so does its theory:
  neither imports this module or anything of `Emulation`.

  A program whose name has a slash is at that path; any other is looked for in directories that are
  given, and then in those of the system.  It gets the input as a stream, its output is thrown away,
  and what it writes to its errors is kept.
-/
import NetPlot.Emulation.Shell.Run

namespace NetPlot.Programs

open NetPlot.Text NetPlot.Emulation NetPlot.Emulation.Shell

/-- The directories where programs are looked for last. -/
def commonDirectories : List String := Program.directoriesOf usualPath

/-- How deep commands may be inside of each other. -/
def deepest : Nat := 10000

/-- The state from which programs are started. -/
def base (fs : Files) (directories : List String) (input : String) : Script where
  dialect := .plain
  files := fs
  streams := #[.source input.toList, .void, .sink ""]
  descriptors := [(0, 0), (1, 1), (2, 2)]
  bindings := [("PATH", ⟨some (":".intercalate directories), true, false⟩),
    ("HOME", ⟨some "/root", true, false⟩)]
  functions := []
  frames := []
  sourced := false
  program := ""
  arguments := []
  options := []
  status := 0
  flow := .go
  traps := []
  outerTraps := []
  pending := []
  line := 0
  context := ""
  loops := 0
  tested := false
  apart := false
  number := 4000
  aside := none
  captured := none
  letterIndex := 0
  mask := 0o22

/-- What is left after a program. -/
def finished (fs : Files) (sh : Script) (status : Status) : Finished where
  files := { sh.files with home := fs.home }
  status := status
  errors := match sh.streams[(2 : Nat)]? with
    | some (.sink t) => lossyText t
    | _ => ""
  unread := match sh.streams[(0 : Nat)]? with
    | some (.source rest) => rest.length
    | _ => 0

/-- Starts programs; `own` are the directories where they are looked for first. -/
def launcher (own : List String) : Launcher := fun fs program arguments input =>
  let words := (program :: arguments).map toOctets
  let directories := own.map toOctets ++ commonDirectories
  if words.any fun w => w.toList.contains '\x00' then .error .badWord
  else
    let name := toOctets program
    let found :=
      if name = "" then .error .notFound
      else if name.toList.contains '/' then Program.resolve fs Program.longestChain name words
      else Program.search fs words .notFound (Program.candidates directories name)
    match found with
    | .error e => .error e
    | .ok (p, words) =>
      let (sh, status) := startProgram (engine deepest) p words (base fs directories (toOctets input))
      .ok (finished fs sh status)

end NetPlot.Programs
