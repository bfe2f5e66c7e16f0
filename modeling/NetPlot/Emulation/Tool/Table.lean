/-
  The tools by their names.
-/
import NetPlot.Emulation.Tool.Bytes
import NetPlot.Emulation.Tool.Compare
import NetPlot.Emulation.Tool.Condition
import NetPlot.Emulation.Tool.Editor
import NetPlot.Emulation.Tool.Lines
import NetPlot.Emulation.Tool.Reckoning
import NetPlot.Emulation.Tool.Record.Run
import NetPlot.Emulation.Tool.Search
import NetPlot.Emulation.Tool.Sorting

namespace NetPlot.Emulation.Tool

open NetPlot.Text

/-! ## Small tools -/

/-- `sleep`: waits, which takes no time here. -/
def sleep : Tool Unit := do
  let g ← given "" [] 1
  if g.operands.isEmpty then lacking 1
  for n in g.operands do
    let cs := n.toList
    let body := if cs.getLast?.any "smhd".toList.contains then cs.dropLast else cs
    match places? (String.ofList body) with
    | some ⟨v, _⟩ => if v < 0 then misuse ("invalid time interval " ++ quote n) 1
    | none => misuse ("invalid time interval " ++ quote n) 1

/-- `echo`: words. -/
def echo : Tool Unit := do
  say (echoedWithFlags (← read).arguments)

/-- `printf`: a format with its directives filled. -/
def printf : Tool Unit := do
  match (← read).arguments with
  | [] => lacking 1
  | format :: arguments =>
    let x := fill (arguments.length + 1) format.toList arguments
    say (String.ofList x.text)
    for f in x.faults do
      warn f
    if x.status ≠ 0 then setStatus 1
    if x.faults.isEmpty && x.arguments.length == arguments.length && !arguments.isEmpty
        && !x.ended then
      warn ("warning: ignoring excess arguments, starting with " ++ quote (arguments.headD ""))

/-- `test`: a condition; in the other form, it ends with a bracket. -/
def test (bracketed : Bool) : Tool Unit := do
  let arguments := (← read).arguments
  if bracketed && arguments.getLast? ≠ some "]" then refuse "missing ']'" 2
  let arguments := if bracketed then arguments.dropLast else arguments
  match conditionOf (← get).files arguments with
  | .ok b => setStatus (if b then 0 else 1)
  | .error m =>
    match arguments with
    | _ :: _ :: _ :: _ :: _ => refuse ("extra argument " ++ quote ((arguments[1]?).getD "")) 2
    | _ => refuse m 2

/-- `printenv`: the values of names. -/
def printenv : Tool Unit := do
  let g ← givenInFront "0" [("null", '0')] 2
  let env := (← read).environment
  if g.operands.isEmpty then
    say (String.join (env.map fun (n, v) => n ++ "=" ++ v ++ "\n"))
  else
    for n in g.operands do
      match env.lookup n with
      | some v => say (v ++ "\n")
      | none => setStatus 1

/-- How often a text that has no end is repeated. -/
def manyTimes : Nat := 8192

/-- `yes`: the same line again and again. -/
def yes : Tool Unit := do
  let words := (← given "" [] 1).operands
  let line := (if words.isEmpty then "y" else " ".intercalate words) ++ "\n"
  say (String.join (List.replicate manyTimes line))

/-- `uname`: the name of the system. -/
def uname : Tool Unit := do
  let g ← given "asnrvmpio" [] 1
  if let x :: _ := g.operands then extra x 1
  if g.options.all fun o => o.1 == 's' then say "Linux\n"
  else if g.options.all fun o => o.1 == 'm' then say "x86_64\n"
  else if g.options.all fun o => o.1 == 'o' then say "GNU/Linux\n"

/-- `whoami`: the name of the user. -/
def whoami : Tool Unit := do
  let g ← given "" [] 1
  if let x :: _ := g.operands then extra x 1
  say "root\n"

/-- `id`: the number of the user. -/
def id : Tool Unit := do
  let g ← given "ugGnrz" [] 1
  say (if g.has 'n' then "root\n"
    else if g.has 'u' || g.has 'g' || g.has 'G' then "0\n"
    else "uid=0(root) gid=0(root) groups=0(root)\n")

/-- `nproc`: how much can be done at once. -/
def nproc : Tool Unit := do
  let g ← given "" [] 1
  if let x :: _ := g.operands then extra x 1
  say "1\n"

/-- `hostname`: the name of the machine. -/
def hostname : Tool Unit := do
  let _ ← given "sfidAIy" [] 1
  say "localhost\n"

/-- `sync`: nothing is left to be written. -/
def sync : Tool Unit := do
  let _ ← given "df" [("data", 'd'), ("file-system", 'f')] 1

/-- `date`: the beginning of time, because nothing tells a later one. -/
def date : Tool Unit := do
  let g ← given "uRd:r:I" [("utc", 'u'), ("date", 'd')] 1
  say (if g.operands.isEmpty then "Thu Jan  1 00:00:00 UTC 1970\n" else "1970-01-01\n")

/-! ## The table -/

/-- The tool of a name. -/
def named? (name : String) : Option (Tool Unit) :=
  match name with
  | "true" => some (pure ())
  | "false" => some (setStatus 1)
  | "awk" => some awk
  | "mawk" => some awk
  | "base64" => some base64
  | "sync" => some sync
  | "basename" => some basename
  | "cat" => some cat
  | "chmod" => some chmod
  | "cmp" => some cmp
  | "comm" => some comm
  | "cp" => some cp
  | "cut" => some cut
  | "date" => some date
  | "dd" => some dd
  | "diff" => some diff
  | "dirname" => some dirname
  | "echo" => some echo
  | "egrep" => some (grep true false)
  | "expr" => some expr
  | "fgrep" => some (grep false true)
  | "find" => some find
  | "fold" => some fold
  | "grep" => some (grep false false)
  | "head" => some head
  | "hostname" => some hostname
  | "id" => some id
  | "ln" => some ln
  | "ls" => some ls
  | "mkdir" => some mkdir
  | "mktemp" => some mktemp
  | "mv" => some mv
  | "nl" => some nl
  | "nproc" => some nproc
  | "od" => some od
  | "paste" => some paste
  | "printenv" => some printenv
  | "readlink" => some readlink
  | "printf" => some printf
  | "pwd" => some pwd
  | "realpath" => some realpath
  | "rev" => some rev
  | "rm" => some rm
  | "rmdir" => some rmdir
  | "sed" => some sed
  | "seq" => some seq
  | "sleep" => some sleep
  | "sort" => some sort
  | "stat" => some stat
  | "tac" => some tac
  | "tail" => some tail
  | "tee" => some tee
  | "test" => some (test false)
  | "[" => some (test true)
  | "touch" => some touch
  | "tr" => some tr
  | "truncate" => some truncate
  | "uname" => some uname
  | "uniq" => some uniq
  | "unlink" => some unlink
  | "wc" => some wc
  | "whoami" => some whoami
  | "yes" => some yes
  | _ => none

end NetPlot.Emulation.Tool
