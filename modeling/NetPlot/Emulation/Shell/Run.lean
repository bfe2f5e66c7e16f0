/-
  Running scripts.

  1. **Engine** — an `Engine` runs the commands inside of a command, and starts programs.  `runOnce`
     is what one command does with an engine for its parts; `engine` ties the knot for commands up
     to a depth.

  2. **Commands** — the words of a simple command are expanded, its redirections are followed, its
     values are assigned, and then the function, the builtin command or the program is run that its
     first word names.  What runs apart has a state of its own, of which files and streams stay.

  3. **Scripts** — `runText` reads and runs line by line.  `startShell` runs a script from its
     arguments, and `startProgram` any program.
-/
import NetPlot.Emulation.Program
import NetPlot.Emulation.Shell.Builtin
import NetPlot.Emulation.Shell.Reader
import NetPlot.Host.Launch

namespace NetPlot.Emulation.Shell

open NetPlot.Text

/-- What commands need from outside. -/
structure Engine where
  run : Runner
  /-- Runs a program with its words; how it ended. -/
  start : Program → List String → Script → Script × Status

/-- An engine that does nothing. -/
def Engine.none : Engine := ⟨fun _ sh => sh, fun _ _ sh => (sh, .exited 126)⟩

/-! ## Texts -/

/-- Complains about a script that cannot be read; the broad form also shows the line with a strange
token. -/
def readingFault (src : Source) (f : Fault) (sh : Script) : Script :=
  let sh := { ({ sh with line := f.line }).fail f.message with status := 2 }
  if (afterMark? strangeToken.toList f.message.toList).isSome then
    let line := ((linesOf src.rest)[f.line - src.line]?).getD []
    sh.complain ("`" ++ String.ofList line ++ "'")
  else sh

/-- Runs the lines of a source for as long as there are any. -/
def runLines (run : Runner) : Nat → Source → Script → Script
  | 0, _, sh => sh
  | fuel + 1, src, sh =>
    match line? src with
    | .error f => readingFault src f sh
    | .ok (none, _) => sh
    | .ok (some c, src) =>
      let sh := if sh.has 'n' then sh else run c sh
      match sh.flow with
      | .go => runLines run fuel src sh
      | .drop => runLines run fuel src { sh with flow := .go }
      | _ => sh

/-- Runs the commands of a text. -/
def runText (run : Runner) (text : String) (sh : Script) : Script :=
  runLines run (text.length + 2) ⟨text.toList, 1, 0, sh.dialect⟩ sh

/-! ## Traps -/

/-- Runs what is to be done for a signal, and goes on with the status from before. -/
def runTrap (run : Runner) (text : String) (sh : Script) : Script :=
  let after := runText run text { sh with tested := false }
  let after := { after with tested := sh.tested }
  if after.flow = .go then { after with status := sh.status } else after

/-- Deals with a signal that came. -/
def handle (run : Runner) (sh : Script) (n : Nat) : Script :=
  if sh.flow ≠ .go then sh
  else
    match sh.traps.lookup n with
    | some "" => sh
    | some text => runTrap run text sh
    | none => if Signal.isDeadly n then { sh with flow := .killed n } else sh

/-- Deals with the signals that came. -/
def handlePending (run : Runner) (sh : Script) : Script :=
  if sh.apart || sh.pending.isEmpty || sh.flow != .go then sh
  else sh.pending.foldl (handle run) { sh with pending := [] }

/-- The end of a script or of a part of it: what is to be done then is done. -/
def finish (run : Runner) (sh : Script) : Script :=
  match sh.flow, sh.traps.lookup 0 with
  | .killed _, _ => sh
  | _, some text =>
    if text = "" then sh
    else
      let others := sh.traps.filter fun t => t.1 != 0
      let after := runText run text { sh with traps := others, flow := .go, tested := false }
      match after.flow with
      | .exit => after
      | .killed _ => after
      | _ => { after with status := sh.status, flow := .exit }
  | _, none => sh

/-! ## Redirections -/

/-- Complains about a file that cannot be opened. -/
def openFault (sh : Script) (creating : Bool) (name : String) (e : OsError) : Script :=
  let reason := match e with
    | .notFound => if creating then "Directory nonexistent" else "No such file"
    | .notDirectory => if creating then "Directory nonexistent" else "No such file"
    | e => e.reason
  let action := if creating then "create " else "open "
  match sh.dialect with
  | .plain => { sh.complain ("cannot " ++ action ++ name ++ ": " ++ reason) with status := 2 }
  | .broad =>
    let after := ({ sh with context := "" }).complain (name ++ ": " ++ e.reason)
    { after with context := sh.context, status := 1 }

/-- The number of the stream that the name of a file means. -/
def streamNamed? (name : String) : Option Nat :=
  let after (mark : String) : Option Nat :=
    (afterMark? mark.toList name.toList).bind fun r => count? (String.ofList r)
  match name with
  | "/dev/stdin" => some 0
  | "/dev/stdout" => some 1
  | "/dev/stderr" => some 2
  | _ => (after "/dev/fd/").or (after "/proc/self/fd/")

/-- Opens a file and lets a number mean it. -/
def openFile (sh : Script) (mode : Mode) (descriptor : Nat) (name : String) : Except Script Script :=
  let creating : Bool := match mode with
    | .read => false
    | .both => false
    | _ => true
  let fault (e : OsError) : Except Script Script := .error (openFault sh creating name e)
  let bindNew (sh : Script) (s : Stream) : Except Script Script :=
    let (i, sh) := sh.openStream s
    .ok (sh.bind descriptor i)
  let known := (streamNamed? name).bind fun n => sh.descriptors.lookup n
  match known with
  | some i => .ok (sh.bind descriptor i)
  | none =>
    match sh.files.locate ⟨lossyText name⟩ with
    | .error e => fault (if creating then sh.files.reasonAgainst ⟨lossyText name⟩ e else e)
    | .ok l =>
      match sh.files.find? l, mode with
      | some .void, _ => bindNew sh .void
      | some .directory, .read => bindNew sh (.directory)
      | some .directory, _ => fault .isDirectory
      | none, .read => fault .notFound
      | none, mode =>
        bindNew { sh with files := sh.files.put l (.file .empty false) } (.file l 0 (mode = .append))
      | some (.file _ _), .read => bindNew sh (.file l 0 false)
      | some (.file _ _), .both => bindNew sh (.file l 0 false)
      | some (.file _ _), .append => bindNew sh (.file l 0 true)
      | some (.file _ x), mode =>
        if mode = .write && sh.has 'C' then fault .alreadyThere
        else bindNew { sh with files := sh.files.put l (.file .empty x) } (.file l 0 false)

/-- Follows a redirection. -/
def redirect (run : Runner) (sh : Script) (r : Redirection) : Except Script Script :=
  match r with
  | .file mode descriptor target =>
    let (name, sh) := expandText run target sh
    if sh.flow ≠ .go then .error sh else openFile sh mode descriptor name
  | .duplicate descriptor target =>
    let (name, sh) := expandText run target sh
    if sh.flow ≠ .go then .error sh
    else if name = "-" then .ok (sh.unbind descriptor)
    else
      match if name.length = 1 then count? name else none with
      | none =>
        if sh.isBroad then
          match openFile sh .write 1 name with
          | .error sh => .error sh
          | .ok sh =>
            match sh.descriptors.lookup 1 with
            | some i => .ok (sh.bind 2 i)
            | none => .ok sh
        else .error (sh.fail "Syntax error: Bad fd number")
      | some n =>
        match sh.descriptors.lookup n with
        | some i => .ok (sh.bind descriptor i)
        | none => .error { sh.complain (name ++ ": Bad file descriptor") with status := 2 }
  | .here descriptor body =>
    let (s, sh) := expandText run body sh
    if sh.flow ≠ .go then .error sh
    else
      let (i, sh) := sh.openStream (.source s.toList)
      .ok (sh.bind descriptor i)

/-- Follows redirections, in order. -/
def redirectAll (run : Runner) : List Redirection → Script → Except Script Script
  | [], sh => .ok sh
  | r :: rs, sh =>
    match redirect run sh r with
    | .error sh => .error sh
    | .ok sh => redirectAll run rs sh

/-- Does something with redirections, and takes them back. -/
def redirected (run : Runner) (rs : List Redirection) (act : Script → Script) (sh : Script) : Script :=
  let back (after : Script) : Script := { after with descriptors := sh.descriptors }
  match redirectAll run rs sh with
  | .error after => back after
  | .ok opened => back (act opened)

/-! ## Programs -/

/-- The directories where programs are looked for. -/
def Script.directories (sh : Script) : List String :=
  Program.directoriesOf ((sh.value? "PATH").getD "")

/-- The directories where a script looks for programs if nothing says otherwise. -/
def usualPath : String := "/usr/local/sbin:/usr/local/bin:/usr/sbin:/usr/bin:/sbin:/bin"

/-- Is there anything at a path that could be a program? -/
def isPlace (fs : Files) (path : String) : Bool :=
  match Program.at? fs path with
  | .ok _ => true
  | .error .permissionDenied =>
    match fs.locate (Tool.pathOf path) with
    | .ok l => fs.find? l ≠ some .directory
    | .error _ => false
  | .error _ => false

/-- The path of a program. -/
def programPath? (sh : Script) (name : String) : Option String :=
  if name.toList.contains '/' then some name
  else (Program.candidates sh.directories name).find? (isPlace sh.files)

/-- Says how a program ended. -/
def conclude (x : Script × Status) : Script :=
  let (sh, status) := x
  match status with
  | .exited n => { sh with status := n }
  | .killed n =>
    let sh := if n = 2 ∨ n = 13 then sh else sh.write 2 (Signal.note n ++ "\n")
    { sh with status := 128 + n }

/-- The complaint about a program that cannot be run, in the words of the broad form. -/
def broadProgramFault (sh : Script) (name : String) (x : OsError) : String :=
  let isPath := name.toList.contains '/'
  if isPath then
    name ++ ": " ++ if sh.files.find? ((sh.files.locate (Tool.pathOf name)).toOption.getD []) = some .directory
      then OsError.isDirectory.reason else x.reason
  else if x = .notFound then name ++ ": command not found"
  else name ++ ": " ++ x.reason

/-- Runs a program, or complains about it.  A text that no program is named for is a script. -/
def startNamed (e : Engine) (words : List String) (sh : Script) : Script × Status :=
  let name := words.headD ""
  let complaint (x : OsError) : Script × Status :=
    let absent := x == .notFound || x == .notDirectory
    let plain := name ++ ": " ++ if absent then "not found" else x.reason
    let broad := if sh.context = "" then broadProgramFault sh name x else plain
    (sh.complain (sh.pick plain broad),
      .exited (if absent || x == .nameTooLong then 127 else 126))
  match programPath? sh name with
  | none =>
    let isDirectory := name ≠ "" ∧ (Program.candidates sh.directories name).any fun p =>
      sh.files.exists (Tool.pathOf p)
    complaint (if isDirectory && !sh.isBroad then .permissionDenied else .notFound)
  | some path =>
    match Program.resolve sh.files Program.longestChain path words with
    | .ok (p, words) => e.start p words sh
    | .error .notExecutable => e.start (.shell sh.dialect) ("sh" :: path :: words.drop 1) sh
    | .error x => complaint x

/-! ## Simple commands -/

/-- Has a text characters that mean something in scripts? -/
def hasMeaning (s : String) : Bool :=
  s.isEmpty || s.toList.any " \t\n'\"\\|&;()<>!\x7b\x7d*[]?^$`".toList.contains
    || ['#', '~'].contains (s.toList.headD ' ')

/-- A text in single quotes, where it needs some. -/
def quotedIfMeant (s : String) : String :=
  if hasMeaning s then
    "'" ++ "'\\''".intercalate ((pieces '\'' [] s.toList).map String.ofList) ++ "'"
  else s

/-- Traces a command that is run. -/
def trace (sh : Script) (assigned : List (String × String)) (words : List String) : Script :=
  if sh.has 'x' then
    let mark := (sh.value? "PS4").getD "+ "
    let line (row : List String) : String := mark ++ " ".intercalate row ++ "\n"
    let rows := match sh.dialect with
      | .plain => [assigned.map (fun (n, v) => n ++ "=" ++ v) ++ words]
      | .broad =>
        assigned.map (fun (n, v) => [n ++ "=" ++ if v = "" then v else quotedIfMeant v])
          ++ if words.isEmpty then [] else [words.map quotedIfMeant]
    sh.write 2 (String.join (rows.map line))
  else sh

/-- Expands the values that a command assigns, in order. -/
def assignAll (run : Runner) (exported : Bool) :
    List (String × Word) → Script → List (String × String) × Script
  | [], sh => ([], sh)
  | (name, w) :: rest, sh =>
    let (value, sh) := expandText run w sh
    if sh.flow ≠ .go then ([], sh)
    else
      let sh := sh.assign name value
      if sh.flow ≠ .go then ([], sh)
      else
        let sh := match exported, sh.binding? name with
          | true, some v => sh.setVariable name (some { v with exported := true })
          | _, _ => sh
        let (more, sh) := assignAll run exported rest sh
        ((name, value) :: more, sh)

/-- The text of a word that is plain at its front, for commands that take assignments. -/
def declares (name : String) : Bool :=
  ["export", "readonly", "local", "declare", "typeset"].contains name

/-- The words of a command.  For some commands, words that look like assignments are not split. -/
def commandWords (run : Runner) : List Word → Script → List String × Script
  | [], sh => ([], sh)
  | w :: ws, sh =>
    let (front, sh) := wordsOf run w sh
    if sh.flow ≠ .go then ([], sh)
    else
      match front with
      | [] => commandWords run ws sh
      | name :: _ =>
        let rest (x : List String × Script) (w : Word) : List String × Script :=
          if x.2.flow ≠ .go then x
          else
            match if declares name then assignment? x.2.dialect w else none with
            | some (n, v) =>
              let (s, sh) := expandText run v x.2
              (x.1 ++ [n ++ "=" ++ s], sh)
            | none =>
              let (ss, sh) := wordsOf run w x.2
              (x.1 ++ ss, sh)
        ws.foldl rest (front, sh)

/-- Calls a function. -/
def callFunction (run : Runner) (body : Command) (arguments : List String) (sh : Script) : Script :=
  let after := run body { sh with arguments, frames := [] :: sh.frames, loops := 0, letterIndex := 0 }
  let restored := (after.frames.headD []).foldl (fun s (name, v) => s.setVariable name v) after
  { restored with
    arguments := sh.arguments, frames := sh.frames, loops := sh.loops, letterIndex := sh.letterIndex,
    flow := if after.flow = .back then .go else after.flow }

/-- Runs the text of a file as a part of the script. -/
def sourceFile (e : Engine) (c : Call) (sh : Script) : Script :=
  match c.arguments.filter (· != "--") with
  | [] => sh.fine
  | name :: _ =>
    let found : Option String :=
      if name.toList.contains '/' then some name
      else (Program.candidates sh.directories name).find? fun p =>
        match sh.files.locate (Tool.pathOf p) with
        | .ok l =>
          match sh.files.find? l with
          | some (.file _ _) => true
          | _ => false
        | .error _ => false
    match found with
    | none =>
      sh.pick (sh.trouble c (name ++ ": not found")) (openFault sh false name .notFound)
    | some path =>
      match sh.files.read (Tool.pathOf path) with
      | .error .isDirectory => sh.fine
      | .error x =>
        let after := openFault sh false path x
        { after with flow := if c.special && sh.flow == .go && !sh.isBroad then .exit else sh.flow }
      | .ok content =>
        let after := runText e.run (octetsOf content)
          { sh with
            context := sh.pick (path ++ ": ") "", program := sh.pick sh.program path
            sourced := true, tested := false, status := 0 }
        { after with
          sourced := sh.sourced, context := sh.context, program := sh.program, tested := sh.tested
          flow := if after.flow = .back then .go else after.flow }

/-- What a name means, in words. -/
def meaning (sh : Script) (name : String) : Option String :=
  if keywords.contains name then some (name ++ " is a shell keyword")
  else if specialNames.contains name ∧ name ≠ "local" then some (name ++ " is a special shell builtin")
  else if (sh.functions.lookup name).isSome then some (name ++ " is a shell function")
  else if (builtin? sh.dialect name).isSome ∨ name = "command" ∨ name = "type" then
    some (name ++ " is a shell builtin")
  else
    match programPath? sh name with
    | some p => if isPlace sh.files p then some (name ++ " is " ++ p) else none
    | none => none

/-- `type` -/
def typeCommand (sh : Script) (names : List String) : Script :=
  names.foldl (fun sh name =>
    match meaning sh name with
    | some s => sh.write 1 (s ++ "\n")
    | none =>
      sh.pick { sh.write 1 (name ++ ": not found\n") with status := 127 }
        { sh.complain (name ++ ": not found") with status := 1 }) sh.fine

/-- `command -v` -/
def nameCommand (sh : Script) (names : List String) : Script :=
  match names with
  | [] => sh.fine
  | name :: _ =>
    match meaning sh name with
    | none => { sh with status := 127 }
    | some _ =>
      let isOwn := keywords.contains name || specialNames.contains name
        || (sh.functions.lookup name).isSome || (builtin? sh.dialect name).isSome || name = "command"
        || name = "type"
      sh.say ((if isOwn then name else (programPath? sh name).getD name) ++ "\n")

/-- Commands that run others. -/
def isJoint (name : String) : Bool := ["eval", ".", "exec", "command", "type"].contains name

/-- Runs the command that words name; `plain` says that functions do not count and that no command
is special. -/
def callWords (e : Engine) : Nat → Bool → List String → Script → Script
  | 0, _, _, sh => sh
  | fuel + 1, plain, words, sh =>
    match words with
    | [] => sh
    | name :: arguments =>
      let c : Call := ⟨name, arguments, specialNames.contains name && !plain && !sh.isBroad⟩
      let within (act : Script → Script) : Script :=
        let after := act { sh with context := name ++ ": " }
        { after with context := sh.context }
      let function? := if plain || c.special then none else sh.functions.lookup name
      match function? with
      | some body => callFunction e.run body arguments sh
      | none =>
        match name with
        | "eval" =>
          (if sh.isBroad then fun act => act sh else within) fun sh => runText e.run (" ".intercalate arguments) { sh with status := 0 }
        | "." => within (sourceFile e c)
        | "source" =>
          if sh.isBroad then within (sourceFile e c) else conclude (startNamed e words sh)
        | "type" => within fun sh => typeCommand sh arguments
        | "exec" =>
          match arguments.filter (· != "--") with
          | [] => sh.fine
          | words =>
            within fun sh =>
              let (sh, status) := startNamed e words sh
              match status with
              | .exited n => { sh with status := n, flow := .exit, traps := [] }
              | .killed n => { sh with flow := .killed n }
        | "command" =>
          match letters "pvV".toList arguments with
          | .error l => within fun sh => sh.trouble c ("Illegal option -" ++ String.singleton l)
          | .ok (ls, rest) =>
            if ls.contains 'v' then nameCommand sh rest
            else if ls.contains 'V' then typeCommand sh rest
            else if rest.isEmpty then sh.fine
            else callWords e fuel true rest sh
        | _ =>
          match builtin? sh.dialect name with
          | some act => within fun sh => act sh c
          | none => conclude (startNamed e words sh)

/-- Is the command special?  In the broad form, none is. -/
def isSpecialCall (sh : Script) (words : List String) : Bool :=
  match words with
  | name :: _ => specialNames.contains name && !sh.isBroad
  | [] => false

/-- Puts back what is known about some names. -/
def restoreNames (names : List String) (before after : Script) : Script :=
  names.foldl (fun sh name => sh.setVariable name (before.binding? name)) after

/-- Runs a simple command. -/
def runSimple (e : Engine) (assigns : List (String × Word)) (ws : List Word)
    (rs : List Redirection) (sh : Script) : Script :=
  let (words, sh) := commandWords e.run ws { sh with captured := none }
  if sh.flow ≠ .go then sh
  else
    let special := isSpecialCall sh words
    let permanent := words.head? = some "exec" ∧ (words.drop 1).all (· == "--")
    match redirectAll e.run rs sh with
    | .error after =>
      let after := { after with descriptors := sh.descriptors }
      if special && after.flow == .go then { after with flow := .exit } else after
    | .ok opened =>
      let lasting := words.isEmpty || special
      let (assigned, ready) := assignAll e.run (!lasting || words.length > 1 && words.head? = some "exec")
        assigns opened
      let ready := if ready.flow = .go then trace ready assigned words else ready
      let after :=
        if ready.flow ≠ .go then ready
        else if words.isEmpty then { ready with status := ready.captured.getD 0 }
        else
          let done := callWords e (words.length + 1) false words ready
          if lasting then done else restoreNames (assigns.map (·.1)) opened done
      if permanent then after else { after with descriptors := sh.descriptors }

/-! ## All commands -/

/-- The status of a command that failed ends the script where that is asked for. -/
def checkFailure (sh : Script) : Script :=
  if sh.status ≠ 0 && sh.has 'e' && !sh.tested && sh.flow == .go then { sh with flow := .exit } else sh

/-- Runs something whose failure does not end the script. -/
def testing (act : Script → Script) (sh : Script) : Script :=
  { act { sh with tested := true } with tested := sh.tested }

/-- Runs something with a state of its own. -/
def runApart (run : Runner) (act : Script → Script) (sh : Script) : Script :=
  sh.afterPart (finish run (act sh.part))

/-- Runs commands of which each reads what the one before it writes; the last status of those that
failed is known. -/
def runPipe (run : Runner) : List Command → Option String → Nat → Script → Script
  | [], _, _, sh => sh
  | c :: cs, input, failed, sh =>
    let fed (sh : Script) : Script :=
      match input with
      | none => sh
      | some s =>
        let (i, sh) := sh.openStream (.source s.toList)
        sh.bind 0 i
    if cs.isEmpty then
      let after := runApart run (fun sh => run c (fed sh)) sh
      if after.has pipeOption && after.status == 0 then { after with status := failed } else after
    else
      let (i, opened) := sh.openStream (.sink "")
      let after := runApart run (fun sh => run c ((fed sh).bind 1 i)) opened
      let output := match after.streams[i]? with
        | some (.sink t) => t
        | _ => ""
      let after := { after with streams := after.streams.setIfInBounds i .void }
      runPipe run cs (some output) (if after.status = 0 then failed else after.status) after

/-- How often a loop is run at most. -/
def longestLoop : Nat := 1000000

/-- What a loop does after its body: go on or stop, and the state. -/
def afterBody (sh : Script) : Bool × Script :=
  match sh.flow with
  | .go => (true, sh)
  | .leave n => (false, { sh with flow := if n ≤ 1 then .go else .leave (n - 1) })
  | .again n => if n ≤ 1 then (true, { sh with flow := .go })
      else (false, { sh with flow := .again (n - 1) })
  | _ => (false, sh)

/-- Runs a loop with a condition; the status is the one of the body. -/
def runCycle (run : Runner) (toHolding : Bool) (condition body : Command) :
    Nat → Nat → Script → Script
  | 0, _, sh => sh
  | fuel + 1, status, sh =>
    let tried := testing (run condition) sh
    if tried.flow ≠ .go then
      let (again, sh) := afterBody tried
      if again then runCycle run toHolding condition body fuel status sh else sh
    else if (tried.status == 0) == toHolding then { tried with status }
    else
      let (again, sh) := afterBody (run body tried)
      if again then runCycle run toHolding condition body fuel sh.status sh else sh

/-- Is an expression not zero?  One of blanks counts as one. -/
def isNonzero (run : Runner) (w : Word) (sh : Script) : Bool × Script :=
  let (s, sh) := expandText run w { sh with context := "((: " }
  let (n, sh) := if s.all isGap then (1, sh) else calculate s sh
  let sh := { sh with context := "" }
  (n ≠ 0 && sh.flow == .go, if sh.flow = .drop then { sh with flow := .go } else sh)

/-- Runs a loop with expressions. -/
def runStepped (run : Runner) (condition step : Word) (body : Command) : Nat → Script → Script
  | 0, sh => sh
  | fuel + 1, sh =>
    let (holds, sh) := isNonzero run condition sh
    if !holds || sh.flow != .go then sh
    else
      let (again, sh) := afterBody (run body sh)
      if again then runStepped run condition step body fuel (isNonzero run step sh).2 else sh

/-- Runs a loop over words. -/
def runEach (run : Runner) (name : String) (body : Command) : List String → Script → Script
  | [], sh => sh
  | s :: ss, sh =>
    let sh := sh.assign name s
    if sh.flow ≠ .go then sh
    else
      let (again, sh) := afterBody (run body sh)
      if again then runEach run name body ss sh else sh

/-- Does a text fit one of several patterns? -/
def fitsOne (run : Runner) (s : List Char) : List Word → Script → Bool × Script
  | [], sh => (false, sh)
  | w :: ws, sh =>
    let (p, sh) := expandPattern run w sh
    if sh.flow ≠ .go then (false, sh) else if fits p s then (true, sh) else fitsOne run s ws sh

/-- Runs the first arm that fits. -/
def runArms (run : Runner) (s : List Char) : List (List Word × Command) → Script → Script
  | [], sh => sh.fine
  | (ws, body) :: rest, sh =>
    let (found, sh) := fitsOne run s ws sh
    if sh.flow ≠ .go then sh
    else if found then
      match body with
      | .nothing => sh.fine
      | body => run body sh
    else runArms run s rest sh

/-- The value of a condition. -/
def conditionHolds (run : Runner) : Condition → Script → Bool × Script
  | .word w, sh =>
    let (s, sh) := expandText run w sh
    (s ≠ "", sh)
  | .unary op w, sh =>
    let (s, sh) := expandText run w sh
    (if op = "-v" then (sh.value? s).isSome else Tool.unaryHolds sh.files op s, sh)
  | .binary op a b, sh =>
    let (s, sh) := expandText run a sh
    if op = "=" ∨ op = "==" ∨ op = "!=" then
      let (p, sh) := expandPattern run b sh
      (fits p s.toList != (op == "!="), sh)
    else if op = "=~" then
      let (pattern, sh) := expandText run b sh
      match Tool.Regex.ofText true pattern with
      | .ok r => ((r.search? false s.toList).isSome, sh)
      | .error _ => (false, { sh with status := 2 })
    else
      let (t, sh) := expandText run b sh
      if op.toList.head? = some '-' ∧ op ≠ "-nt" ∧ op ≠ "-ot" ∧ op ≠ "-ef" then
        let (x, sh) := calculate s sh
        let (y, sh) := calculate t sh
        (((Tool.binaryHolds sh.files op (toString x) (toString y)).toOption.getD false), sh)
      else ((Tool.binaryHolds sh.files op s t).toOption.getD false, sh)
  | .not c, sh =>
    let (b, sh) := conditionHolds run c sh
    (!b, sh)
  | .both c d, sh =>
    let (b, sh) := conditionHolds run c sh
    if b then conditionHolds run d sh else (false, sh)
  | .either c d, sh =>
    let (b, sh) := conditionHolds run c sh
    if b then (true, sh) else conditionHolds run d sh

/-- Runs something in loops. -/
def inLoop (act : Script → Script) (sh : Script) : Script :=
  { act { sh with loops := sh.loops + 1 } with loops := sh.loops }

/-- Runs a command with an engine for its parts. -/
def runCommand (e : Engine) (c : Command) (sh : Script) : Script :=
  match c with
  | .nothing => sh
  | .simple line assigns ws rs => checkFailure (runSimple e assigns ws rs { sh with line })
  | .pipe parts => checkFailure (runPipe e.run parts none 0 sh)
  | .negate a =>
    let after := testing (e.run a) sh
    if after.flow = .go then after.answer (after.status ≠ 0) else after
  | .both a b =>
    let after := testing (e.run a) sh
    if after.flow = .go ∧ after.status = 0 then e.run b after else after
  | .either a b =>
    let after := testing (e.run a) sh
    if after.flow = .go ∧ after.status ≠ 0 then e.run b after else after
  | .chain a b =>
    let after := e.run a sh
    if after.flow = .go then e.run b after else after
  | .background a =>
    let (i, opened) := sh.openStream .void
    let after := runApart e.run (fun sh => e.run a (sh.bind 0 i)) opened
    let n := (sh.aside.map (·.1)).getD sh.number + 1
    { after with status := 0, aside := some (n, after.status) }
  | .choose condition yes no =>
    let after := testing (e.run condition) sh
    if after.flow ≠ .go then after
    else if after.status = 0 then e.run yes after
    else
      match no with
      | .nothing => after.fine
      | no => e.run no after
  | .cycle toHolding condition body =>
    inLoop (runCycle e.run toHolding condition body longestLoop 0) sh
  | .each line name ws body =>
    let (values, sh) := match ws with
      | none => (sh.arguments, { sh with line })
      | some ws => expandAll e.run ws { sh with line }
    if sh.flow ≠ .go then sh else inLoop (fun sh => runEach e.run name body values sh.fine) sh
  | .select line w arms =>
    let (s, sh) := expandText e.run w { sh with line }
    if sh.flow ≠ .go then sh else runArms e.run s.toList arms sh
  | .group line true body rs =>
    checkFailure (runApart e.run (redirected e.run rs (e.run body)) { sh with line })
  | .group line false body rs =>
    let after := redirected e.run rs (e.run body) { sh with line }
    after
  | .test line c =>
    let (b, after) := conditionHolds e.run c { sh with line }
    if after.flow = .go then checkFailure (after.answer b) else after
  | .calculate line w =>
    let (holds, after) := isNonzero e.run w { sh with line }
    if after.flow = .go then checkFailure (after.answer holds) else after
  | .stepped line first condition step body =>
    let (_, sh) := isNonzero e.run first { sh.fine with line }
    if sh.flow ≠ .go then sh
    else inLoop (runStepped e.run condition step body longestLoop) sh
  | .define name body =>
    { sh.fine with functions := (name, body) :: sh.functions.filter fun x => x.1 != name }

/-- Runs a command and deals with the signals that came. -/
def runOnce (e : Engine) (c : Command) (sh : Script) : Script :=
  if sh.flow ≠ .go then sh else handlePending e.run (runCommand e c sh)

/-! ## Starting programs -/

/-- A script at its beginning, which shares files and streams with what starts it. -/
def Script.fresh (sh : Script) (program : String) : Script :=
  { sh with
    bindings := (sh.bindings.filter fun x => x.2.exported).map fun (n, v) =>
      (n, { v with fixed := false })
    functions := [], frames := [], sourced := false, program, arguments := [], options := [], status := 0
    flow := .go, traps := sh.traps.filter fun t => t.2 = "", outerTraps := [], pending := []
    line := 0, context := "", loops := 0, tested := false, apart := false
    number := sh.number + 1, aside := none, captured := none, letterIndex := 0 }

/-- How a script ended. -/
def Script.ending (sh : Script) : Status :=
  match sh.flow with
  | .killed n => .killed n
  | _ => .exited (sh.status % 256)

/-- Reads the options in front of the arguments of a script: the letters `c` and `s`, the rest, or
a complaint. -/
def startOptions : Nat → List String → Script → Except String (Bool × Bool × List String × Script)
  | 0, rest, sh => .ok (false, false, rest, sh)
  | _, [], sh => .ok (false, false, [], sh)
  | fuel + 1, a :: rest, sh =>
    match a.toList with
    | ['-', '-'] => .ok (false, false, rest, sh)
    | ['-'] => .ok (false, false, rest, sh)
    | sign :: l :: ls =>
      if sign = '-' ∨ sign = '+' then
        let own := (l :: ls).filter fun c => c != 'c'
        let setting := String.ofList (sign :: own)
        let used := if own.contains 'o' then setting :: rest.take 1 else [setting]
        let rest := if own.contains 'o' then rest.drop 1 else rest
        let after := if own.isEmpty then .ok (none, sh) else setOptions 2 used sh
        match after with
        | .error m => .error m
        | .ok (_, sh) =>
          match startOptions fuel rest sh with
          | .error m => .error m
          | .ok (c, s, rest, sh) =>
            .ok (c || (l :: ls).contains 'c', s || own.contains 's', rest, sh)
      else .ok (false, false, a :: rest, sh)
    | _ => .ok (false, false, a :: rest, sh)

/-- The long options of the broad form that change nothing here. -/
def longOptions : List String :=
  ["--login", "--noediting", "--noprofile", "--norc", "--posix", "--restricted", "--verbose"]

/-- Runs a script by the words that it is started with. -/
def startShell (run : Runner) (dialect : Dialect) (words : List String) (sh : Script) :
    Script × Status :=
  let name := words.headD "sh"
  let base := { sh.fresh name with dialect }
  let base := { base with
    bindings := [("IFS", ⟨some " \t\n", false, false⟩), ("OPTIND", ⟨some "1", false, false⟩),
      ("PS1", ⟨some "# ", false, false⟩), ("PS2", ⟨some "> ", false, false⟩),
      ("PS4", ⟨some "+ ", false, false⟩), ("PATH", ⟨some usualPath, false, false⟩), ("PWD", ⟨some base.directory, false, false⟩)].filter
        (fun x => (base.bindings.lookup x.1).isNone) ++ base.bindings }
  let ended (sh : Script) : Script × Status := (sh, (finish run sh).ending)
  let execute (text : String) (sh : Script) : Script × Status :=
    let after := finish run (runText run text sh)
    (after, after.ending)
  let isLong (w : String) : Bool := base.isBroad && longOptions.contains w
  let complaint (sh : Script) (message : String) (status : Nat) : Script :=
    { sh.write 2 (name ++ ": " ++ message ++ "\n") with status, flow := .exit }
  match startOptions (words.length + 1) ((words.drop 1).dropWhile isLong) base with
  | .error m => ended (base.fail m)
  | .ok (true, _, [], sh) =>
    ended (sh.pick (sh.fail "-c requires an argument")
      (complaint sh "-c: option requires an argument" 2))
  | .ok (true, _, text :: rest, sh) =>
    execute text { sh with program := rest.headD name, arguments := rest.drop 1 }
  | .ok (false, false, path :: rest, sh) =>
    match sh.files.read (Tool.pathOf path) with
    | .ok content => execute (octetsOf content) { sh with program := path, arguments := rest }
    | .error .isDirectory => ended { sh with program := path }
    | .error e =>
      let after := sh.pick (openFault sh false path e) (complaint sh (path ++ ": " ++ e.reason) 127)
      ended { after with flow := .exit }
  | .ok (false, _, rest, sh) =>
    let text := sh.readable 0
    execute text { sh.advance 0 text.length with arguments := rest, options := sh.options }

/-- What is left for a shell after something that it has started. -/
def Script.resume (sh after : Script) : Script :=
  { sh with files := { after.files with home := sh.files.home }, streams := after.streams }

/-- Runs a tool. -/
def startTool (t : Tool Unit) (words : List String) (sh : Script) : Script × Status :=
  let input := sh.readable 0
  let seekable : Bool := match sh.stream? 0 with
    | some (_, .file _ _ _) => true
    | _ => false
  let directory : Bool := match sh.stream? 0 with
    | some (_, .directory) => true
    | _ => false
  let w := Tool.run t
    ⟨words.headD "", words.drop 1, input, seekable, directory, sh.environment⟩ sh.files
  let sh := { sh with files := { w.files with home := sh.files.home } }
  let sh := w.written.reverse.foldl (fun sh (n, s) => sh.write n s) sh
  (sh.advance 0 w.taken, .exited w.status)

/-! ## Programs that run others -/

/-- Assignments in front of words, and the words. -/
def splitAssigned : List String → List (String × String) × List String
  | [] => ([], [])
  | w :: ws =>
    match nameAndValue w with
    | (name, some v) =>
      let (as, ws) := splitAssigned ws
      ((name, v) :: as, ws)
    | (_, none) => ([], w :: ws)

/-- Runs a program that a runner names; the complaint has the name of the runner in front. -/
def startInner (e : Engine) (quotes : Bool) (runner : String) (missing : Nat) (words : List String)
    (sh : Script) : Script × Status :=
  let name := words.headD ""
  let complaint (x : OsError) : Script × Status :=
    (sh.write 2 (runner ++ ": " ++ (if quotes then Tool.quote name else name) ++ ": " ++ x.reason
      ++ "\n"),
      .exited (if x = .notFound then missing else missing - 1))
  let found := if name.toList.contains '/' then Program.resolve sh.files Program.longestChain name words
    else
      let directories := if (sh.value? "PATH").isSome then sh.directories
        else Program.systemDirectories
      Program.search sh.files words .notFound (Program.candidates directories name)
  match found with
  | .ok (p, words) => e.start p words sh
  | .error .notExecutable => e.start (.shell .plain) ("sh" :: name :: words.drop 1) sh
  | .error x => complaint x

/-- Complains about the arguments of a runner. -/
def misuse (runner message : String) (status : Nat) (sh : Script) : Script × Status :=
  (sh.write 2 (runner ++ ": " ++ message ++ "\nTry '" ++ runner ++ " --help' for more information.\n"),
    .exited status)

/-- Runs `env`. -/
def startEnv (e : Engine) (name : String) : Nat → List String → Script → Script × Status
  | 0, _, sh => (sh, .exited 125)
  | fuel + 1, words, sh =>
    match words with
    | "-i" :: rest => startEnv e name fuel rest { sh with bindings := [] }
    | "-" :: rest => startEnv e name fuel rest { sh with bindings := [] }
    | "-u" :: n :: rest => startEnv e name fuel rest (sh.setVariable n none)
    | "-S" :: s :: rest => startEnv e name fuel (blankWords s ++ rest) sh
    | "--" :: rest => startEnv e name fuel rest sh
    | words =>
      match (words.headD "").toList with
      | '-' :: 'S' :: cs =>
        startEnv e name fuel (blankWords (String.ofList cs) ++ words.drop 1) sh
      | '-' :: l :: _ => misuse name ("invalid option -- '" ++ String.singleton l ++ "'") 125 sh
      | _ =>
        let (assigned, rest) := splitAssigned words
        let sh := assigned.foldl (fun sh (n, v) => sh.setVariable n (some ⟨some v, true, false⟩)) sh
        if rest.isEmpty then
          (sh.write 1 (String.join (sh.environment.map fun (n, v) => n ++ "=" ++ v ++ "\n")),
            .exited 0)
        else startInner e true name 127 rest sh
where
  /-- The words between blanks. -/
  blankWords (s : String) : List String :=
    ((pieces ' ' [] s.toList).filter (· ≠ [])).map String.ofList

/-- What `xargs` is asked for. -/
structure Batch where
  size : Option Nat
  mark : Option String
  lines : Bool
  zeros : Bool
  skipsNothing : Bool
  command : List String

/-- Reads the options of `xargs`. -/
def readBatch : Nat → List String → Batch → Except Char Batch
  | 0, ws, b => .ok { b with command := ws }
  | fuel + 1, ws, b =>
    let valued (cs : List Char) (rest : List String) : String × List String :=
      if cs.isEmpty then (rest.headD "", rest.drop 1) else (String.ofList cs, rest)
    match ws with
    | [] => .ok b
    | w :: rest =>
      match w.toList with
      | ['-', '-'] => .ok { b with command := rest }
      | '-' :: 'n' :: cs =>
        let (v, rest) := valued cs rest
        readBatch fuel rest { b with size := count? v }
      | '-' :: 'L' :: cs =>
        let (v, rest) := valued cs rest
        readBatch fuel rest { b with size := count? v, lines := true }
      | '-' :: 'I' :: cs =>
        let (v, rest) := valued cs rest
        readBatch fuel rest { b with mark := some v }
      | '-' :: 'P' :: cs =>
        let (_, rest) := valued cs rest
        readBatch fuel rest b
      | ['-', '0'] => readBatch fuel rest { b with zeros := true }
      | ['-', 'r'] => readBatch fuel rest { b with skipsNothing := true }
      | ['-', 't'] => readBatch fuel rest b
      | '-' :: c :: _ => .error c
      | _ => .ok { b with command := ws }

/-- The items of a text between blanks; quotes and backslashes keep blanks. -/
def itemsOf : Nat → Option (List Char) → List Char → List String
  | 0, _, _ => []
  | _, item, [] => (item.map fun cs => String.ofList cs.reverse).toList
  | fuel + 1, item, c :: s =>
    if c = ' ' ∨ c = '\t' ∨ c = '\n' then
      (item.map fun cs => String.ofList cs.reverse).toList ++ itemsOf fuel none s
    else if c = '\'' ∨ c = '"' then
      let (inner, r) := splitRun (· ≠ c) s
      itemsOf fuel (some (inner.reverse ++ item.getD [])) (r.drop 1)
    else if c = '\\' then
      match s with
      | d :: r => itemsOf fuel (some (d :: item.getD [])) r
      | [] => itemsOf fuel item []
    else itemsOf fuel (some (c :: item.getD [])) s

/-- Rows of so many words. -/
def chunks (n : Nat) : Nat → List String → List (List String)
  | 0, _ => []
  | _, [] => []
  | fuel + 1, ws => ws.take (max n 1) :: chunks n fuel (ws.drop (max n 1))

/-- The commands that a batch means for a text. -/
def Batch.commands (b : Batch) (input : String) : List (List String) :=
  let command := if b.command.isEmpty then ["echo"] else b.command
  let items :=
    if b.zeros then ((pieces '\x00' [] input.toList).filter (· ≠ [])).map String.ofList
    else itemsOf (input.length + 1) none input.toList
  match b.mark with
  | some mark =>
    let lines := (Tool.linesOf input).map fun l => String.ofList (l.toList.dropWhile (· == ' '))
    (lines.filter (· ≠ "")).map fun l => command.map fun w =>
      match mark.toList with
      | [] => w
      | m :: ms => l.intercalate ((pieces m ms w.toList).map String.ofList)
  | none =>
    let rows := match b.size with
      | some n =>
        if b.lines then
          (chunks n input.length ((Tool.linesOf input).filter (· ≠ ""))).map fun ls =>
            ls.flatMap fun l => itemsOf (l.length + 1) none l.toList
        else chunks n items.length items
      | none => [items]
    let rows := if items.isEmpty then (if b.skipsNothing then [] else [[]]) else rows
    rows.map (command ++ ·)

/-- Runs a program with the items of the input as its last arguments. -/
def startXargs (e : Engine) (name : String) (words : List String) (sh : Script) : Script × Status :=
  match readBatch (words.length + 1) words ⟨none, none, false, false, false, []⟩ with
  | .error c => misuse name ("invalid option -- '" ++ String.singleton c ++ "'") 1 sh
  | .ok b =>
    let input := sh.readable 0
    let sh := sh.advance 0 input.length
    let (i, sh) := sh.openStream .void
    let step (acc : Script × Nat) (words : List String) : Script × Nat :=
      if acc.2 ≥ 124 then acc
      else
        let (after, status) := startInner e false name 127 words (acc.1.bind 0 i)
        let n := match status with
          | .exited 0 => acc.2
          | .exited 127 => 127
          | .exited 126 => 126
          | .exited 255 => 124
          | .exited _ => 123
          | .killed _ => 125
        (acc.1.resume after, n)
    let (after, n) := (b.commands input).foldl step (sh, 0)
    (after, .exited n)

/-- Writes where programs are. -/
def startWhich (names : List String) (sh : Script) : Script × Status :=
  let place? (name : String) : Option String :=
    (programPath? sh name).bind fun p => if (Program.at? sh.files p).isOk then some p else none
  let found := names.map place?
  (found.foldl (fun sh p => sh.write 1 ((p.map (· ++ "\n")).getD "")) sh,
    .exited (if names.isEmpty || found.any Option.isNone then 1 else 0))

/-- Is a text a number with the letter of a unit behind it or without one? -/
def isDuration (s : String) : Bool :=
  let cs := s.toList
  let body := if cs.getLast?.any "smhd".toList.contains then cs.dropLast else cs
  body.any Char.isDigit && body.all fun c => c.isDigit || c == '.'

/-- Runs a program that runs another one. -/
def startRunner (e : Engine) (kind : String) (words : List String) (sh : Script) : Script × Status :=
  let name := words.headD kind
  let rest := words.drop 1
  let needing (ws : List String) (status missing : Nat) : Script × Status :=
    if ws.isEmpty then misuse name "missing operand" status sh else startInner e true name missing ws sh
  match kind with
  | "env" => startEnv e name (rest.length + 20) rest sh
  | "xargs" => startXargs e name rest sh
  | "which" => startWhich (rest.filter fun a => a.toList.head? != some '-') sh
  | "timeout" =>
    let limit := rest.headD ""
    if !rest.isEmpty && !isDuration limit then
      misuse name ("invalid time interval " ++ Tool.quote limit) 125 sh
    else needing (rest.drop 1) 125 127
  | "nice" => needing (if rest.head? = some "-n" then rest.drop 2 else rest) 125 127
  | "setsid" => needing rest 1 127
  | _ => needing rest 125 127

/-- Runs any program. -/
def startProgram (e : Engine) (p : Program) (words : List String) (sh : Script) : Script × Status :=
  match p with
  | .tool t => startTool t words sh
  | .shell dialect =>
    let (after, status) := startShell e.run dialect words sh
    (sh.resume after, status)
  | .runner kind =>
    let (after, status) := startRunner e kind words sh
    (sh.resume after, status)
  | .text _ => (sh, .exited 126)

/-- An engine for commands and programs inside of each other up to a depth. -/
def engine : Nat → Engine
  | 0 => .none
  | depth + 1 =>
    let e := engine depth
    ⟨runOnce e, startProgram e⟩

end NetPlot.Emulation.Shell
