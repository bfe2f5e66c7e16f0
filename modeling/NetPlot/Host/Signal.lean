/-
  Signals, and the names that go with their numbers.
-/
namespace NetPlot.Signal

/-- The names of the signals, in the order of their numbers from one on. -/
def names : List String :=
  ["HUP", "INT", "QUIT", "ILL", "TRAP", "ABRT", "BUS", "FPE", "KILL", "USR1", "SEGV", "USR2",
   "PIPE", "ALRM", "TERM", "STKFLT", "CHLD", "CONT", "STOP", "TSTP", "TTIN", "TTOU", "URG",
   "XCPU", "XFSZ", "VTALRM", "PROF", "WINCH", "IO", "PWR", "SYS"]

/-- The name of a signal. -/
def name? (n : Nat) : Option String := if n = 0 then none else names[n - 1]?

example : name? 9 = some "KILL" := by decide

end NetPlot.Signal
