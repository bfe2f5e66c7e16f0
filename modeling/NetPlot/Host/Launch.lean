/-
  Starting programs.

  A `Launcher` runs a program with arguments and an input, and gives the files that it leaves,
  how it ended, what it wrote to its error stream, and how much of the input it left; or it says
  why the program cannot be started.
-/
import NetPlot.Host.Files
import NetPlot.Host.Signal

namespace NetPlot

/-- How a program ended. -/
inductive Status where
  | exited (code : Nat)
  | killed (signal : Nat)
  deriving DecidableEq, Repr

namespace Status

/-- The name of a signal in brackets, if it has one. -/
def signalNote (n : Nat) : String :=
  match Signal.name? n with
  | some name => " (SIG" ++ name ++ ")"
  | none => ""

/-- Did the program do what it was asked? -/
def success (s : Status) : Bool := s == exited 0

/-- The status in words. -/
def text : Status → String
  | exited code => "exit status: " ++ code.repr
  | killed signal => "signal: " ++ signal.repr ++ signalNote signal

end Status

/-- What is left of a program that was run. -/
structure Finished where
  files : Files
  status : Status
  errors : String
  /-- How many bytes of the input the program left. -/
  unread : Nat
  deriving DecidableEq

/-- The directories where programs are looked for, named by a row with colons. -/
def Program.directoriesOf (s : String) : List String :=
  (Text.pieces ':' [] s.toList).map String.ofList

/-- A way to run programs. -/
abbrev Launcher :=
  Files → (program : String) → (arguments : List String) → (input : String) →
    Except OsError Finished

/-- No program can be started. -/
def Launcher.none : Launcher := fun _ _ _ _ => .error .notFound

end NetPlot
