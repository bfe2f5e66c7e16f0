/-
  Commands that the command language has itself.

  1. **Data** — a `Call` has the name, the arguments, and whether the command is `special`: a fault
     of a special one ends the script, and one of another only fails it.

  2. **Program** — `builtin?` gives what a command does.  Those that run other commands are not
     among them.
-/
import NetPlot.Emulation.Shell.Expansion
import NetPlot.Emulation.Tool.Condition
import NetPlot.Emulation.Tool.Format

namespace NetPlot.Emulation.Shell

open NetPlot.Text

/-- A command that is called. -/
structure Call where
  name : String
  arguments : List String
  special : Bool

/-- Commands whose faults end a script in the plain form. -/
def specialNames : List String :=
  [".", ":", "break", "continue", "eval", "exec", "exit", "export", "local", "readonly", "return",
   "set", "shift", "times", "trap", "unset"]

namespace Script

/-- Complains about a call. -/
def trouble (sh : Script) (c : Call) (message : String) : Script :=
  match sh.dialect with
  | .broad => { sh.complain message with status := 1 }
  | .plain =>
    { sh.complain message with
      status := 2, flow := if c.special && sh.flow == .go then .exit else sh.flow }

/-- Complains about a call, in the words of either form. -/
def objection (sh : Script) (c : Call) (plain broad : String) : Script :=
  sh.trouble c (sh.pick plain broad)

/-- Succeeds. -/
def fine (sh : Script) : Script := { sh with status := 0 }

/-- Writes a text and succeeds. -/
def say (sh : Script) (s : String) : Script := (sh.write 1 s).fine

end Script

/-- The number that an argument is. -/
def count? (s : String) : Option Nat :=
  if s ≠ "" ∧ s.all Char.isDigit ∧ numeral 10 s.toList < 0x80000000 then some (numeral 10 s.toList)
  else none

/-- Does something with a number that an argument has to be. -/
def withCount (sh : Script) (c : Call) (s : String) (act : Nat → Script) : Script :=
  match count? s with
  | some n => act n
  | none => sh.objection c ("Illegal number: " ++ s) (s ++ ": numeric argument required")

/-- A text in quotes. -/
def quoted (s : String) : String :=
  let part (cs : List Char) : String := "'" ++ String.ofList cs ++ "'"
  "\"'\"".intercalate ((pieces '\'' [] s.toList).map part)

/-- Letters in front of arguments, each known; and the arguments behind them, or a letter that is
not known. -/
def letters (known : List Char) : List String → Except Char (List Char × List String)
  | [] => .ok ([], [])
  | a :: rest =>
    match a.toList with
    | ['-', '-'] => .ok ([], rest)
    | '-' :: c :: cs =>
      match (c :: cs).find? fun c => !known.contains c with
      | some c => .error c
      | none => (letters known rest).map fun (more, rest) => (c :: cs ++ more, rest)
    | _ => .ok ([], a :: rest)

/-- Does something with the letters and the arguments of a call. -/
def withLetters (sh : Script) (c : Call) (known : String) (act : List Char → List String → Script) :
    Script :=
  match letters known.toList c.arguments with
  | .ok (ls, rest) => act ls rest
  | .error l =>
    let letter := String.singleton l
    sh.objection c ("Illegal option -" ++ letter) ("-" ++ letter ++ ": invalid option")

/-! ## Writing and conditions -/

/-- A complaint about an argument of a format, in the words of the broad form. -/
def broadFormatFault (message : String) : String :=
  let without (ending : String) : Option String :=
    (afterMark? ending.toList.reverse message.toList.reverse).map fun r =>
      String.ofList r.reverse ++ ": invalid number"
  ((without ": expected numeric value").or (without ": not completely converted")).getD message

/-- A complaint about the words of a condition, in the words of the broad form. -/
def broadConditionFault (words : List String) (message : String) : String :=
  match afterMark? "Illegal number: ".toList message.toList, words with
  | some r, _ => String.ofList r ++ ": integer expression expected"
  | none, [a, _] => a ++ ": unary operator expected"
  | none, [_, b, _] => b ++ ": binary operator expected"
  | none, _ => "too many arguments"

/-- `printf`; complaints come first, because the text is written as a whole. -/
def printfCommand (sh : Script) (c : Call) : Script :=
  match letters [] c.arguments with
  | .error l => sh.trouble c ("Illegal option -" ++ String.singleton l)
  | .ok (_, []) => sh.trouble c "usage: printf format [arg ...]"
  | .ok (_, format :: arguments) =>
    let x := Tool.fill (arguments.length + 1) format.toList arguments
    let sh := x.faults.foldl (fun sh f => sh.complain (sh.pick f (broadFormatFault f))) sh
    { sh.write 1 (String.ofList x.text) with status := if sh.isBroad then min x.status 1 else x.status }

/-- `test` and `[` -/
def testCommand (sh : Script) (c : Call) : Script :=
  let condition (ws : List String) : Script :=
    let ws := if sh.isBroad then ws.map fun w => if w = "==" then "=" else w else ws
    match Tool.conditionOf sh.files ws with
    | .ok b => sh.answer b
    | .error m => { sh.objection c m (broadConditionFault ws m) with status := 2 }
  if c.name = "[" then
    if c.arguments.getLast? = some "]" then condition c.arguments.dropLast
    else { sh.objection c "missing ]" "missing `]'" with status := 2 }
  else condition c.arguments

/-! ## Directories -/

/-- `cd` -/
def cdCommand (sh : Script) (c : Call) : Script :=
  withLetters sh c "LP" fun _ rest =>
    let goal := match rest with
      | [] => (sh.value? "HOME").getD ""
      | "-" :: _ => (sh.value? "OLDPWD").getD ""
      | d :: _ => d
    let old := sh.directory
    let there (l : Location) : Script :=
      let sh := { sh with files := { sh.files with home := l } }
      let sh := (sh.assign "OLDPWD" old).assign "PWD" sh.directory
      if rest.head? = some "-" then sh.say (sh.directory ++ "\n") else sh.fine
    let bad (e : OsError) : Script :=
      sh.objection c ("can't cd to " ++ goal) (goal ++ ": " ++ e.reason)
    if sh.isBroad && rest.length > 1 then sh.trouble c "too many arguments"
    else if goal = "" then sh.fine
    else
      match sh.files.locate ⟨lossyText goal⟩ with
      | .error e => bad e
      | .ok l =>
        match sh.files.find? l with
        | some .directory => there l
        | some _ => bad .notDirectory
        | none => bad .notFound

/-! ## Reading -/

/-- The characters of a line, each with whether a backslash stood before it, how many octets they
took, and whether the line has an end. -/
def readLine (raw : Bool) : Nat → List Char → List Mark × Nat × Bool
  | 0, _ => ([], 0, false)
  | _, [] => ([], 0, false)
  | _, '\n' :: _ => ([], 1, true)
  | fuel + 1, '\\' :: s =>
    if raw then
      let (ms, n, ended) := readLine raw fuel s
      (('\\', false) :: ms, n + 1, ended)
    else
      match s with
      | '\n' :: r =>
        let (ms, n, ended) := readLine raw fuel r
        (ms, n + 2, ended)
      | d :: r =>
        let (ms, n, ended) := readLine raw fuel r
        ((d, true) :: ms, n + 2, ended)
      | [] => ([], 1, false)
  | fuel + 1, d :: s =>
    let (ms, n, ended) := readLine raw fuel s
    (if d = '\x00' then ms else (d, false) :: ms, n + 1, ended)

/-- The parts of a line for so many names; the last one gets all that is left. -/
def shares (separators : List Char) : Nat → List Mark → List (List Mark)
  | 0, _ => []
  | n + 1, s =>
    let isSeparator (m : Mark) := !m.2 && separators.contains m.1
    let isBlank (m : Mark) := isSeparator m && (m.1 == ' ' || m.1 == '\t' || m.1 == '\n')
    let s := s.dropWhile isBlank
    let front := s.takeWhile fun m => !isSeparator m
    let r := (s.drop front.length).dropWhile isBlank
    let r := match r with
      | m :: r' => if isSeparator m then r'.dropWhile isBlank else r
      | [] => []
    if n = 0 then
      if r.isEmpty then [front] else [(untilQuoted isBlank s.length s).reverse.dropWhile isBlank |>.reverse]
    else front :: shares separators n r
where
  /-- What stands before blanks that a character with a backslash follows. -/
  untilQuoted (isBlank : Mark → Bool) : Nat → List Mark → List Mark
    | 0, _ => []
    | _, [] => []
    | fuel + 1, m :: s =>
      if isBlank m then
        match s.dropWhile isBlank with
        | (_, true) :: _ => []
        | _ => m :: untilQuoted isBlank fuel s
      else m :: untilQuoted isBlank fuel s

/-- `read` -/
def readCommand (sh : Script) (c : Call) : Script :=
  match letters "r".toList (c.arguments.filter fun a => a != "-p") with
  | .error l => sh.trouble c ("Illegal option -" ++ String.singleton l)
  | .ok (ls, []) =>
    if sh.isBroad then
      let input := sh.readable 0
      let (marks, n, ended) := readLine (ls.contains 'r') (input.length + 1) input.toList
      ((sh.advance 0 n).answer ended).assign "REPLY" (bare marks)
    else sh.trouble c "arg count"
  | .ok (ls, names) =>
    let input := sh.readable 0
    let (marks, n, ended) := readLine (ls.contains 'r') (input.length + 1) input.toList
    let sh := sh.advance 0 n
    let values := shares sh.separators names.length marks
    let sh := sh.answer ended
    (names.zip (values ++ names.map fun _ => [])).foldl
      (fun sh (name, v) =>
        if sh.flow ≠ .go then sh
        else if !isName name then
          sh.objection c (name ++ ": bad variable name") ("`" ++ name ++ "': not a valid identifier")
        else sh.assign name (bare v)) sh

/-! ## Arguments and options -/

/-- `shift` -/
def shiftCommand (sh : Script) (c : Call) : Script :=
  withCount sh c (c.arguments.headD "1") fun n =>
    if n ≤ sh.arguments.length then
      { sh.fine with arguments := sh.arguments.drop n, letterIndex := 0 }
    else if sh.isBroad then { sh with status := 1 }
    else sh.trouble c "can't shift that many"

/-- The options and their long names, in order. -/
def optionNames : List (Char × String) :=
  [('e', "errexit"), ('f', "noglob"), ('I', "ignoreeof"), ('i', "interactive"), ('m', "monitor"),
   ('n', "noexec"), ('s', "stdin"), ('x', "xtrace"), ('v', "verbose"), ('V', "vi"),
   ('E', "emacs"), ('C', "noclobber"), ('a', "allexport"), ('b', "notify"), ('u', "nounset"),
   ('p', "privileged")]

/-- The mark of the option that lets a pipe fail where any part of it fails. -/
def pipeOption : Char := '|'

/-- The letter of a long name of an option. -/
def optionLetter? (dialect : Dialect) (name : String) : Option Char :=
  if dialect = .broad ∧ name = "pipefail" then some pipeOption
  else (optionNames.find? fun o => o.2 == name).map (·.1)

/-- Sets options; what is left are the arguments, if there are any.  The fault is a complaint. -/
def setOptions : Nat → List String → Script → Except String (Option (List String) × Script)
  | 0, _, sh => .ok (none, sh)
  | _, [], sh => .ok (none, sh)
  | fuel + 1, a :: rest, sh =>
    match a.toList with
    | ['-', '-'] => .ok (some rest, sh)
    | ['-'] => .ok (some rest, (sh.setOption 'x' false).setOption 'v' false)
    | ['+'] => .ok (if rest.isEmpty then none else some rest, sh)
    | sign :: c :: cs =>
      if sign = '-' ∨ sign = '+' then
        let on := sign == '-'
        let known (c : Char) : Bool := c == 'o' || optionNames.any fun o => o.1 == c
        match (c :: cs).find? fun c => !known c with
        | some c => .error ("Illegal option " ++ String.ofList [sign, c])
        | none =>
          let sh := ((c :: cs).filter (· != 'o')).foldl (fun sh c => sh.setOption c on) sh
          if (c :: cs).contains 'o' then
            match rest with
            | [] =>
              let rows := optionNames.map fun (c, name) =>
                name ++ String.ofList (List.replicate (16 - name.length) ' ')
                  ++ (if sh.has c then "on" else "off") ++ "\n"
              let others := ["nolog           off\n", "debug           off\n"]
              let text := "Current option settings\n" ++ String.join (rows ++ others)
              .ok (none, if on then sh.write 1 text else sh)
            | name :: rest =>
              match optionLetter? sh.dialect name with
              | some l => setOptions fuel rest (sh.setOption l on)
              | none => .error ("Illegal option " ++ String.ofList [sign] ++ "o " ++ name)
          else setOptions fuel rest sh
      else .ok (some (a :: rest), sh)
    | _ => .ok (some (a :: rest), sh)

/-- The names with values, in order, each as an assignment. -/
def assignments (vs : List (String × Variable)) (front : String) : String :=
  let sorted := vs.mergeSort fun a b => decide (a.1 ≤ b.1)
  String.join (sorted.map fun (name, v) =>
    front ++ name ++ (match v.value with
      | some s => "=" ++ quoted s
      | none => "") ++ "\n")

/-- `set` -/
def setCommand (sh : Script) (c : Call) : Script :=
  if c.arguments.isEmpty then
    sh.say (assignments (sh.bindings.filter fun x => x.2.value.isSome) "")
  else
    match setOptions (c.arguments.length + 1) c.arguments sh with
    | .error m => sh.trouble c m
    | .ok (none, sh) => sh.fine
    | .ok (some rest, sh) => { sh.fine with arguments := rest, letterIndex := 0 }

/-- `getopts` -/
def getoptsCommand (sh : Script) (c : Call) : Script :=
  match c.arguments with
  | known :: name :: given =>
    let arguments := if given.isEmpty then sh.arguments else given
    let silent := known.toList.head? = some ':'
    let place := ((sh.value? "OPTIND").bind count?).getD 1
    let place := if arguments.length + 1 < place then 1 else place
    let index := sh.letterIndex
    let set (sh : Script) (place index : Nat) : Script :=
      { sh.assign "OPTIND" place.repr with letterIndex := index }
    let finish (place : Nat) : Script :=
      let sh := (sh.setVariable "OPTARG" none).assign name "?"
      { set sh place 0 with status := 1 }
    match arguments[place - 1]? with
    | none => finish place
    | some a =>
      if index = 0 ∧ (a.toList.head? ≠ some '-' ∨ a = "-") then finish place
      else if index = 0 ∧ a = "--" then finish (place + 1)
      else
        let index := max 1 index
        match a.toList.drop index with
        | [] => finish place
        | l :: rest =>
          let (nextPlace, nextIndex) := if rest.isEmpty then (place + 1, 0) else (place, index + 1)
          let spec := known.toList.dropWhile (· == ':')
          match if l = ':' then [] else spec.dropWhile (· != l) with
          | [] =>
            let sh := if silent then sh.assign "OPTARG" (String.singleton l)
              else (sh.write 2 ("Illegal option -" ++ String.singleton l ++ "\n")).setVariable
                "OPTARG" none
            (set (sh.assign name "?") nextPlace nextIndex).fine
          | _ :: ':' :: _ =>
            match rest, arguments[place]? with
            | [], none =>
              let sh := if silent then (sh.assign "OPTARG" (String.singleton l)).assign name ":"
                else ((sh.write 2 ("No arg for -" ++ String.singleton l ++ " option\n")).setVariable
                  "OPTARG" none).assign name "?"
              (set sh (place + 1) 0).fine
            | [], some v =>
              (set ((sh.assign "OPTARG" v).assign name (String.singleton l)) (place + 2) 0).fine
            | rest, _ =>
              (set ((sh.assign "OPTARG" (String.ofList rest)).assign name (String.singleton l))
                (place + 1) 0).fine
          | _ =>
            let sh := (sh.assign "OPTARG" "").assign name (String.singleton l)
            (set sh nextPlace nextIndex).fine
  | _ => sh.trouble c "Usage: getopts optstring var [arg...]"

/-! ## Names -/

/-- The name and the value of an argument. -/
def nameAndValue (s : String) : String × Option String :=
  match splitRun (· ≠ '=') s.toList with
  | (name, _ :: value) => (String.ofList name, some (String.ofList value))
  | (name, []) => (String.ofList name, none)

/-- Marks names, and gives values to those with one. -/
def markNames (sh : Script) (c : Call) (exported fixed : Bool) : List String → Script
  | [] => sh.fine
  | a :: rest =>
    let (name, value) := nameAndValue a
    if !isName name then
      sh.objection c (name ++ ": bad variable name") ("`" ++ a ++ "': not a valid identifier")
    else
      let given := match value with
        | some v => sh.assign name v
        | none => sh
      if given.flow ≠ .go then given
      else
        let old := (given.binding? name).getD ⟨none, false, false⟩
        let new : Variable := ⟨old.value, old.exported || exported, old.fixed || fixed⟩
        markNames (given.setVariable name (some new)) c exported fixed rest

/-- `export` and `readonly` -/
def markCommand (sh : Script) (c : Call) (exported : Bool) : Script :=
  withLetters sh c "p" fun ls names =>
    if names.isEmpty || ls.contains 'p' then
      sh.say (assignments (sh.bindings.filter fun x => if exported then x.2.exported else x.2.fixed)
        (c.name ++ " "))
    else markNames sh c exported (!exported) names

/-- `local` -/
def localCommand (sh : Script) (c : Call) : Script :=
  match sh.frames with
  | [] => sh.objection c "not in a function" "can only be used in a function"
  | frame :: outer =>
    let isOption (a : String) : Bool := a == "-" || (sh.isBroad && a.toList.head? == some '-')
    let names := c.arguments.filter fun a => !isOption a
    let frame := names.foldl (fun frame a =>
      let (name, _) := nameAndValue a
      if frame.any fun x => x.1 == name then frame else (name, sh.binding? name) :: frame) frame
    let sh := { sh with frames := frame :: outer }
    names.foldl (fun sh a =>
      match nameAndValue a with
      | (name, some v) => if sh.flow = .go then sh.assign name v else sh
      | (_, none) => sh) sh.fine

/-- `unset` -/
def unsetCommand (sh : Script) (c : Call) : Script :=
  withLetters sh c "vf" fun ls names =>
    names.foldl (fun sh name =>
      if sh.flow ≠ .go then sh
      else if ls.contains 'f' then
        { sh with functions := sh.functions.filter fun x => x.1 != name }
      else if !isName name then
        sh.pick (sh.trouble c (name ++ ": bad variable name")) sh
      else if ((sh.binding? name).map (·.fixed)).getD false then
        sh.objection c (name ++ ": is read only") (name ++ ": cannot unset: readonly variable")
      else sh.setVariable name none) sh.fine

/-! ## Flow -/

/-- `exit` -/
def exitCommand (sh : Script) (c : Call) : Script :=
  match c.arguments with
  | [] => { sh with flow := .exit }
  | a :: rest =>
    if sh.isBroad then
      match Tool.conditionNumber a with
      | .error _ =>
        { sh.complain (a ++ ": numeric argument required") with status := 2, flow := .exit }
      | .ok n =>
        if rest.isEmpty then { sh with status := (n % 256).toNat, flow := .exit }
        else sh.trouble c "too many arguments"
    else withCount sh c a fun n => { sh with status := n % 256, flow := .exit }

/-- `return` -/
def returnCommand (sh : Script) (c : Call) : Script :=
  if sh.isBroad && sh.frames.isEmpty && !sh.sourced then
    { sh.trouble c "can only `return' from a function or sourced script" with status := 2 }
  else match c.arguments with
  | [] => { sh with flow := .back }
  | a :: _ => withCount sh c a fun n => { sh with status := n, flow := .back }

/-- `break` and `continue` -/
def leaveCommand (sh : Script) (c : Call) (flow : Nat → Flow) : Script :=
  let a := c.arguments.headD "1"
  withCount sh c a fun n =>
    if n = 0 then sh.trouble c ("Illegal number: " ++ a)
    else if sh.loops = 0 then
      sh.pick sh.fine
        (sh.complain "only meaningful in a `for', `while', or `until' loop").fine
    else { sh.fine with flow := flow (min n sh.loops) }

/-! ## Signals -/

/-- The number of a signal that a text names; in any case of letters. -/
def signalOf? (s : String) : Option Nat :=
  if s ≠ "" ∧ s.all Char.isDigit then
    let n := numeral 10 s.toList
    if n ≤ Signal.largest then some n else none
  else
    let name := String.ofList (s.toList.map Char.toUpper)
    if name = "EXIT" then some 0 else Signal.number? name

/-- What is done when a signal comes. -/
def raise (sh : Script) (n : Nat) : Script :=
  let traps := if sh.apart then sh.outerTraps else sh.traps
  let deadly := Signal.isDeadly n
  match if n = 9 then none else traps.lookup n with
  | some "" => sh
  | some _ => { sh with pending := sh.pending ++ [n] }
  | none =>
    if !deadly then sh
    else if sh.apart then { sh with pending := sh.pending ++ [n] }
    else { sh with flow := .killed n }

/-- The lines about how `kill` is used. -/
def killUsage : String :=
  "Usage: kill [-s sigspec | -signum | -sigspec] [pid | job]... or\nkill -l [exitstatus]"

/-- The lines about how `kill` is used in the broad form. -/
def broadKillUsage : String :=
  "kill: usage: kill [-s sigspec | -n signum | -sigspec] pid | jobspec ... or kill -l [sigspec]\n"

/-- Sends a signal to programs. -/
def sendAll (sh : Script) (c : Call) (n : Nat) : List String → Script
  | [] => sh
  | a :: rest =>
    let digits := match a.toList with
      | '-' :: r => String.ofList r
      | _ => a
    match count? digits with
    | none => sh.trouble c ("Illegal number: " ++ digits)
    | some p =>
      let isAside := (sh.aside.map (·.1)) = some p
      if p = sh.number ∨ a = "0" ∨ a = "-0" then sendAll (raise sh n) c n rest
      else if isAside then sendAll sh c n rest
      else
        sendAll { sh.complain "No such process\n" with status := 1 } c n rest

/-- The names of signals for a list. -/
def signalNames : List String :=
  (List.range Signal.largest).map fun i =>
    let n := i + 1
    match Signal.name? n with
    | some "STKFLT" => "16"
    | some s => s
    | none =>
      if n < 34 then n.repr
      else if n = 34 then "RTMIN"
      else if n < 50 then "RTMIN+" ++ (n - 34).repr
      else if n = 64 then "RTMAX"
      else "RTMAX-" ++ (64 - n).repr

/-- `kill` -/
def killCommand (sh : Script) (c : Call) : Script :=
  let usage := sh.pick (sh.trouble c killUsage)
    { sh.write 2 broadKillUsage with status := 2 }
  let unknown (name plain : String) : Script :=
    sh.objection c plain (name ++ ": invalid signal specification")
  let send (n : Nat) (targets : List String) : Script :=
    if targets.isEmpty then usage else sendAll sh.fine c n targets
  match c.arguments with
  | [] => usage
  | a :: rest =>
    match a.toList with
    | '-' :: cs =>
      match signalOf? (String.ofList cs) with
      | some n => send n rest
      | none =>
        match cs, rest with
        | ['-'], rest => send 15 rest
        | ['l'], [] => sh.say ("0\n" ++ String.join (signalNames.map (· ++ "\n")))
        | ['l'], s :: _ =>
          withCount sh c s fun n =>
            sh.say ((if n % 128 = 0 then "EXIT" else (signalNames[n % 128 - 1]?).getD "") ++ "\n")
        | ['s'], [] => sh.trouble c "No arg for -s option"
        | ['s'], s :: targets =>
          match signalOf? s with
          | some n => send n targets
          | none => unknown s ("invalid signal number or name: " ++ s)
        | 's' :: s, targets =>
          match signalOf? (String.ofList s) with
          | some n => send n targets
          | none => sh.trouble c ("invalid signal number or name: " ++ String.ofList s)
        | l :: _, _ => unknown (String.ofList cs) ("Illegal option -" ++ String.singleton l)
        | [], _ => usage
    | _ => send 15 c.arguments

/-- The name of a signal in a list of traps. -/
def trapName (n : Nat) : String := if n = 0 then "EXIT" else (signalNames[n - 1]?).getD n.repr

/-- `trap` -/
def trapCommand (sh : Script) (c : Call) : Script :=
  let c := { c with arguments := if c.arguments.head? = some "--" then c.arguments.drop 1
    else c.arguments }
  let sorted := sh.traps.mergeSort fun a b => decide (a.1 ≤ b.1)
  match c.arguments with
  | [] =>
    sh.say (String.join (sorted.map fun (n, s) =>
      "trap -- " ++ quoted s ++ " " ++ trapName n ++ "\n"))
  | a :: rest =>
    let (action, names) : Option String × List String :=
      if rest.isEmpty ∨ a.all Char.isDigit ∧ a ≠ "" then (none, c.arguments)
      else (if a = "-" then none else some a, rest)
    names.foldl (fun sh name =>
      match signalOf? name with
      | none =>
        sh.pick { sh.write 2 ("trap: " ++ name ++ ": bad trap\n") with status := 1 }
          { sh.complain (name ++ ": invalid signal specification") with status := 1 }
      | some n =>
        let others := sh.traps.filter fun t => t.1 != n
        { sh with traps := (action.map (n, ·)).toList ++ others }) sh.fine

/-! ## Others -/

/-- `wait` -/
def waitCommand (sh : Script) (c : Call) : Script :=
  match c.arguments with
  | [] => sh.fine
  | a :: _ =>
    withCount sh c a fun n =>
      match sh.aside with
      | some (m, status) => { sh with status := if n = m then status else 127 }
      | none => { sh with status := 127 }

/-- The rights that a mask leaves, in letters. -/
def maskLetters (mask : Nat) : String :=
  let rights (n : Nat) : String :=
    String.ofList ([(4, 'r'), (2, 'w'), (1, 'x')].filterMap fun (b, l) =>
      if n / b % 2 = 0 then some l else none)
  "u=" ++ rights (mask / 64) ++ ",g=" ++ rights (mask / 8) ++ ",o=" ++ rights mask

/-- `umask` -/
def umaskCommand (sh : Script) (c : Call) : Script :=
  withLetters sh c "S" fun ls rest =>
    match rest with
    | [] =>
      let ds := Nat.toDigits 8 sh.mask
      sh.say ((if ls.contains 'S' then maskLetters sh.mask
        else String.ofList (List.replicate (4 - ds.length) '0' ++ ds)) ++ "\n")
    | a :: _ =>
      if a.all (isDigitIn 8) then { sh.fine with mask := numeral 8 a.toList % 512 }
      else if a.all Char.isDigit then sh.trouble c ("Illegal number: " ++ a)
      else sh.fine

/-- `let` -/
def letCommand (sh : Script) (c : Call) : Script :=
  c.arguments.foldl (fun sh e =>
    if sh.flow ≠ .go then sh
    else
      let (n, sh) := calculate e sh
      if sh.flow = .go then sh.answer (n ≠ 0) else sh) sh

/-- `declare` -/
def declareCommand (sh : Script) (c : Call) : Script :=
  let isOption (a : String) : Bool := a.toList.head? == some '-'
  let has (l : Char) : Bool := c.arguments.any fun a => isOption a && a.toList.contains l
  let sh := if sh.frames.isEmpty then sh else localCommand sh c
  markNames sh c (has 'x') (has 'r') (c.arguments.filter fun a => !isOption a)

/-- What a command of the broad form does, by its name. -/
def broadBuiltin? (name : String) : Option (Script → Call → Script) :=
  match name with
  | "echo" => some fun sh c => sh.say (Tool.echoedWithFlags c.arguments)
  | "let" => some letCommand
  | "declare" => some declareCommand
  | "typeset" => some declareCommand
  | "shopt" => some fun sh _ => sh.fine
  | "disown" => some fun sh _ => sh.fine
  | _ => none

/-- What a command of both forms does, by its name. -/
def commonBuiltin? (name : String) : Option (Script → Call → Script) :=
  match name with
  | ":" => some fun sh _ => sh.fine
  | "true" => some fun sh _ => sh.fine
  | "false" => some fun sh _ => sh.answer false
  | "echo" => some fun sh c => sh.say (Tool.echoed c.arguments)
  | "printf" => some printfCommand
  | "test" => some testCommand
  | "[" => some testCommand
  | "cd" => some cdCommand
  | "chdir" => some cdCommand
  | "pwd" => some fun sh _ => sh.say (sh.directory ++ "\n")
  | "read" => some readCommand
  | "shift" => some shiftCommand
  | "set" => some setCommand
  | "getopts" => some getoptsCommand
  | "export" => some fun sh c => markCommand sh c true
  | "readonly" => some fun sh c => markCommand sh c false
  | "local" => some localCommand
  | "unset" => some unsetCommand
  | "exit" => some exitCommand
  | "return" => some returnCommand
  | "break" => some fun sh c => leaveCommand sh c .leave
  | "continue" => some fun sh c => leaveCommand sh c .again
  | "kill" => some killCommand
  | "trap" => some trapCommand
  | "wait" => some waitCommand
  | "umask" => some umaskCommand
  | "alias" => some fun sh _ => sh.fine
  | "unalias" => some fun sh _ => sh.fine
  | "hash" => some fun sh _ => sh.fine
  | "jobs" => some fun sh _ => sh.fine
  | "times" => some fun sh _ => sh.fine
  | "ulimit" => some fun sh _ => sh.fine
  | _ => none

/-- What a command does, by its name. -/
def builtin? (dialect : Dialect) (name : String) : Option (Script → Call → Script) :=
  match dialect with
  | .plain => commonBuiltin? name
  | .broad => (broadBuiltin? name).or (commonBuiltin? name)

end NetPlot.Emulation.Shell
