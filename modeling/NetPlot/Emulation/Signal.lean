/-
  What signals do to a program that has not asked for anything else, and what is said about a
  program that one has ended.
-/
import NetPlot.Host.Signal

namespace NetPlot.Signal

/-- The number of a name in capital letters. -/
def number? (name : String) : Option Nat := (names.idxOf? name).map (· + 1)

/-- Signals that end no program: those that a program does not notice, and those that make it
wait or go on. -/
def harmless : List Nat := [17, 18, 19, 20, 21, 22, 23, 28]

/-- The largest number that a signal may have. -/
def largest : Nat := 64

/-- Does the signal end a program? -/
def isDeadly (n : Nat) : Bool := n ≠ 0 && !harmless.contains n

/-- What is said about programs that signals have ended, in the order of the numbers. -/
def notes : List String :=
  ["Hangup", "Interrupt", "Quit", "Illegal instruction", "Trace/breakpoint trap", "Aborted",
   "Bus error", "Floating point exception", "Killed", "User defined signal 1",
   "Segmentation fault", "User defined signal 2", "Broken pipe", "Alarm clock", "Terminated",
   "Stack fault", "Child exited", "Continued", "Stopped (signal)", "Stopped", "Stopped (tty input)",
   "Stopped (tty output)", "Urgent I/O condition", "CPU time limit exceeded",
   "File size limit exceeded", "Virtual timer expired", "Profiling timer expired",
   "Window changed", "I/O possible", "Power failure", "Bad system call"]

/-- What is said about a program that a signal has ended. -/
def note (n : Nat) : String :=
  match if n = 0 then none else notes[n - 1]? with
  | some s => s
  | none => if 34 ≤ n then "Real-time signal " ++ (n - 34).repr else "Unknown signal " ++ n.repr

example : number? "PROF" = some 27 := by decide

end NetPlot.Signal
