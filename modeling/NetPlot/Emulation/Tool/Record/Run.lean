/-
  Running programs over records.

  1. **Machine** — the values of names, the tables, the record with its fields, and what is left of
     the input.  A function has a frame of its own, in which a name has a value or means a table
     of the caller.

  2. **Actions** — `Act` may end with a `Jump`, which leaves loops, functions, the record or the
     program.  `eval` and `run` take fuel.

  3. **Records** — the rules are tried in order for every record; those for the start and the finish
     are followed before and after all records.
-/
import NetPlot.Emulation.Shell.Source
import NetPlot.Emulation.Tool.Basic
import NetPlot.Emulation.Tool.Record.Value

namespace NetPlot.Emulation.Tool.Record

open NetPlot.Text

/-! ## The machine -/

/-- What a name means in a function. -/
inductive Slot where
  | value (v : Value)
  /-- A table, and nothing as long as no value is given. -/
  | alias (table : String)

/-- What a program knows. -/
structure Machine where
  functions : List Function
  values : List (String × Value)
  tables : List (String × List (String × Value))
  frames : List (List (String × Slot))
  /-- How many functions were called. -/
  calls : Nat
  record : String
  fields : List String
  rest : List Char
  /-- Files that were not begun. -/
  inputs : List String
  /-- Was any of the files begun? -/
  begun : Bool
  /-- Files that were written. -/
  opened : List String
  /-- What is left of files that are read on the side. -/
  sources : List (String × List Char)
  /-- The rules between whose patterns the record is. -/
  between : List Nat

/-- A way out. -/
inductive Jump where
  | leave
  | resume
  | next
  | exit
  | back (v : Value)

/-- What a program does. -/
abbrev Act := ExceptT Jump (StateT Machine Tool)

/-- Complains with the own name of the tool in front, and ends it. -/
def halt {α : Type} (s : String) : Tool α := do
  write 2 (ownName (← read).name ++ ": " ++ s ++ "\n")
  stop 2

/-- A tool as an action. -/
def ofTool {α : Type} (t : Tool α) : Act α := ExceptT.lift (StateT.lift t)

/-! ## Names -/

/-- What a name means in the function that is run. -/
def slot? (name : String) : Act (Option Slot) := do
  return ((← get).frames.head?).bind (·.lookup name)

/-- The value of a name of the program. -/
def value (name : String) : Act Value := do return ((← get).values.lookup name).getD .nothing

/-- Sets the value of a name of the program. -/
def setValue (name : String) (v : Value) : Act Unit :=
  modify fun m => { m with values := (name, v) :: m.values.filter fun x => x.1 != name }

/-- The table that a name means. -/
def tableOf (name : String) : Act String := do
  match ← slot? name with
  | some (.alias t) => return t
  | _ => return name

/-- The elements of a table. -/
def elements (table : String) : Act (List (String × Value)) := do
  return ((← get).tables.lookup table).getD []

/-- Replaces the elements of a table. -/
def setElements (table : String) (es : List (String × Value)) : Act Unit :=
  modify fun m => { m with tables := (table, es) :: m.tables.filter fun t => t.1 != table }

/-! ## The record -/

/-- The record with its fields. -/
def setRecord (s : String) : Act Unit := do
  let separator := (← value "FS").toText
  let fields := splitText separator s
  modify fun m => { m with record := s, fields }
  setValue "NF" (.number fields.length)

/-- The fields, from which the record is made again. -/
def setFields (fields : List String) : Act Unit := do
  let separator := (← value "OFS").toText
  modify fun m => { m with record := separator.intercalate fields, fields }
  setValue "NF" (.number fields.length)

/-- Fields in a number. -/
def resized (n : Nat) (fields : List String) : List String :=
  fields.take n ++ List.replicate (n - fields.length) ""

/-! ## Places -/

/-- Where a value is kept. -/
inductive Place where
  | name (n : String)
  | element (table key : String)
  | field (n : Nat)

/-- The value at a place. -/
def load : Place → Act Value
  | .name n => do
    match ← slot? n with
    | some (.value v) => return v
    | some (.alias _) => return .nothing
    | none => value n
  | .element t key => do
    let es ← elements t
    match es.lookup key with
    | some v => return v
    | none =>
      setElements t (es ++ [(key, .nothing)])
      return .nothing
  | .field 0 => do return .input (← get).record
  | .field (n + 1) => do
    match (← get).fields[n]? with
    | some s => return .input s
    | none => return .nothing

/-- Puts a value at a place. -/
def store (p : Place) (v : Value) : Act Unit := do
  match p with
  | .name n =>
    match ← slot? n with
    | some _ =>
      modify fun m => { m with frames :=
        match m.frames with
        | f :: fs => ((n, .value v) :: f.filter fun x => x.1 != n) :: fs
        | [] => [] }
    | none =>
      setValue n v
      if n = "NF" then setFields (resized (whole v.toNumber).toNat (← get).fields)
  | .element t key =>
    let es ← elements t
    if es.any fun x => x.1 == key then
      setElements t (es.map fun x => if x.1 = key then (key, v) else x)
    else setElements t (es ++ [(key, v)])
  | .field 0 => setRecord v.toText
  | .field (n + 1) =>
    let fields := resized (max (n + 1) (← get).fields.length) (← get).fields
    setFields (fields.set n v.toText)

/-! ## Reading and writing -/

/-- Begins the next file of the input; false if there is none. -/
def beginNext : Nat → Act Bool
  | 0 => return false
  | fuel + 1 => do
    match (← get).inputs with
    | [] =>
      if (← get).begun then return false
      else
        let s ← ofTool takeInput
        modify fun m => { m with rest := s.toList, begun := true }
        return true
    | n :: ns =>
      modify fun m => { m with inputs := ns }
      match splitRun (· ≠ '=') n.toList with
      | (name, _ :: v) =>
        if Shell.isName (String.ofList name) then
          setValue (String.ofList name) (.input (String.ofList (unescape (v.length + 1) v).1))
          beginNext fuel
        else openFile n
      | _ => if n = "" then beginNext fuel else openFile n
where
  /-- Begins a file. -/
  openFile (n : String) : Act Bool := do
    match ← ofTool (contentOf n) with
    | .error e => ofTool (halt ("cannot open \"" ++ n ++ "\" (" ++ e.reason ++ ")"))
    | .ok s =>
      modify fun m => { m with rest := s.toList, begun := true }
      setValue "FILENAME" (.text n)
      setValue "FNR" (.number 0)
      return true

/-- Counts one up. -/
def countUp (name : String) : Act Unit := do
  setValue name (.number ((← value name).toNumber + 1))

/-- The next record of the input. -/
def readRecord : Nat → Act (Option String)
  | 0 => return none
  | fuel + 1 => do
    match firstRecord (← value "RS").toText (← get).rest with
    | some (s, r) =>
      modify fun m => { m with rest := r }
      countUp "NR"
      countUp "FNR"
      return some (String.ofList s)
    | none => if ← beginNext ((← get).inputs.length + 1) then readRecord fuel else return none

/-- The next record of a file that is read on the side. -/
def readSide (name : String) : Act (Except OsError (Option String)) := do
  let text ← match (← get).sources.lookup name with
    | some r => pure (.ok r)
    | none => do pure ((← ofTool (contentOf name)).map String.toList)
  match text with
  | .error e => return .error e
  | .ok text =>
    let (found, r) := match firstRecord (← value "RS").toText text with
      | some (s, r) => (some (String.ofList s), r)
      | none => (none, [])
    modify fun m => { m with sources := (name, r) :: m.sources.filter fun x => x.1 != name }
    return .ok found

/-- Writes a text. -/
def put (file : Option (Bool × String)) (s : String) : Act Unit := do
  match file with
  | none => ofTool (say s)
  | some (atEnd, name) =>
    match streamOf? name with
    | some n => ofTool (write n s)
    | none =>
      let opened := (← get).opened.contains name
      let old ← if opened || atEnd then ofTool (contentOf name) else pure (.ok "")
      modify fun m => { m with opened := name :: m.opened }
      let old := old.toOption.getD ""
      match ← ofTool (writeFile name (old ++ s)) with
      | .ok _ => return
      | .error e =>
        ofTool (halt ("cannot open \"" ++ name ++ "\" for output (" ++ e.reason ++ ")"))

/-! ## Functions of the language -/

/-- The part of a text from a place on, of some length. -/
def portion (s : String) (start : Rat) (length : Option Rat) : String :=
  let nearest (r : Rat) : Int := (r + mkRat 1 2).floor
  let first := nearest start
  let cs := s.toList
  let stop : Int := match length with
    | some n => min (first + nearest n) (cs.length + 1)
    | none => cs.length + 1
  let front := max first 1
  String.ofList ((cs.drop (front - 1).toNat).take (stop - front).toNat)

/-- The place of a text in another one, from one on; zero if it is not there. -/
def placeIn (s t : String) : Nat :=
  match cutAt t.toList s.toList with
  | some (front, _) => front.length + 1
  | none => 0

/-- An expression as a regular one. -/
def regexOf (v : Value) : Act Regex := do
  match Regex.ofText true v.toText with
  | .ok r => return r
  | .error _ =>
    ofTool (halt ("regular expression compile failed (missing operand)\n" ++ v.toText))

/-- What a function of the language gives for values. -/
def ownCall (name : String) (vs : List Value) : Act Value := do
  let first := vs.headD .nothing
  let text (i : Nat) : String := ((vs[i]?).getD Value.nothing).toText
  match name with
  | "length" => return .number first.toText.length
  | "substr" =>
    return .text (portion first.toText ((vs[1]?).getD Value.nothing).toNumber
      ((vs[2]?).map Value.toNumber))
  | "index" => return .number (placeIn (text 0) (text 1))
  | "sprintf" =>
    match format ((text 0).length + 1) (text 0).toList (vs.drop 1) with
    | some s => return .text (String.ofList s)
    | none =>
      ofTool (halt ("run time error: not enough arguments passed to sprintf(\"" ++ text 0 ++ "\")"))
  | "int" => return .number (whole first.toNumber)
  | "tolower" => return .text (String.ofList ((text 0).toList.map Char.toLower))
  | "toupper" => return .text (String.ofList ((text 0).toList.map Char.toUpper))
  | _ => return .number 0

/-! ## Running -/

/-- The fault of a program that takes too long. -/
def tooLong {α : Type} : Act α := ofTool (halt "program limit exceeded")

mutual

/-- The value of an expression. -/
def eval : Nat → Expression → Act Value
  | 0, _ => tooLong
  | fuel + 1, e => do
    match e with
    | .number d => return .number (numberOf d)
    | .text s => return .text s
    | .regex r => return .truth (r.search? false (← get).record.toList).isSome
    | .name n => load (.name n)
    | .element t index => load (← placeFor fuel (.element t index))
    | .field e => load (← placeFor fuel (.field e))
    | .operation o a b =>
      let x ← eval fuel a
      let y ← eval fuel b
      return o.apply x y
    | .assign o p v =>
      let p ← placeFor fuel p
      let new ← eval fuel v
      let new ← match o with
        | some o => pure (o.apply (← load p) new)
        | none => pure new
      store p new
      return new
    | .count up before p =>
      let p ← placeFor fuel p
      let old := (← load p).toNumber
      let new := rounded (if up then old + 1 else old - 1)
      store p (.number new)
      return .number (if before then new else old)
    | .negate e => return .number (0 - (← eval fuel e).toNumber)
    | .plus e => return .number (← eval fuel e).toNumber
    | .not e => return .truth !(← eval fuel e).isTrue
    | .both a b =>
      if (← eval fuel a).isTrue then return .truth (← eval fuel b).isTrue
      else return .truth false
    | .either a b =>
      if (← eval fuel a).isTrue then return .truth true
      else return .truth (← eval fuel b).isTrue
    | .choose c yes no => if (← eval fuel c).isTrue then eval fuel yes else eval fuel no
    | .fits negated a p =>
      let s := (← eval fuel a).toText
      let r ← regexFor fuel p
      return .truth ((r.search? false s.toList).isSome != negated)
    | .member index t =>
      let key ← keyOf fuel index
      return .truth ((← elements (← tableOf t)).any fun x => x.1 == key)
    | .row [e] => eval fuel e
    | .row es => return .text (← keyOf fuel es)
    | .call f as => call fuel f as
    | .next place file =>
      let found ← match file with
        | some e => readSide (← eval fuel e).toText
        | none => .ok <$> readRecord fuel
      match found with
      | .error _ => return .number (-1)
      | .ok none => return .number 0
      | .ok (some s) =>
        match place with
        | some p => store (← placeFor fuel p) (.input s)
        | none => setRecord s
        return .number 1

/-- The values of expressions. -/
def evalAll : Nat → List Expression → Act (List Value)
  | 0, _ => tooLong
  | _, [] => return []
  | fuel + 1, e :: es => do
    let v ← eval fuel e
    return v :: (← evalAll fuel es)

/-- The key of an element. -/
def keyOf : Nat → List Expression → Act String
  | 0, _ => tooLong
  | fuel + 1, es => do
    let vs ← evalAll fuel es
    return (← value "SUBSEP").toText.intercalate (vs.map Value.toText)

/-- The place that an expression means. -/
def placeFor : Nat → Expression → Act Place
  | 0, _ => tooLong
  | fuel + 1, e => do
    match e with
    | .name n => return .name n
    | .element t index => return .element (← tableOf t) (← keyOf fuel index)
    | .field e =>
      let n := whole (← eval fuel e).toNumber
      if n < 0 then
        ofTool (halt ("run time error: attempt to access field " ++ toString n))
      return .field n.toNat
    | .row [e] => placeFor fuel e
    | _ => return .name ""

/-- The regular expression that an expression means. -/
def regexFor : Nat → Expression → Act Regex
  | 0, _ => tooLong
  | fuel + 1, e => do
    match e with
    | .regex r => return r
    | e => regexOf (← eval fuel e)

/-- The value of a call. -/
def call : Nat → String → List Expression → Act Value
  | 0, _, _ => tooLong
  | fuel + 1, name, as => do
    match name, as with
    | "length", [] => return .number (← get).record.length
    | "length", [.name n] =>
      let t ← tableOf n
      match (← get).tables.lookup t with
      | some es => return .number es.length
      | none => ownCall name [← load (.name n)]
    | "split", s :: .name n :: more =>
      let s ← eval fuel s
      let parts ← match more with
        | [] => pure (splitText (← value "FS").toText s.toText)
        | .regex r :: _ =>
          let cs := s.toText.toList
          pure (if cs = [] then [] else (splitAtFits r (cs.length + 2) none [] cs).map String.ofList)
        | e :: _ => pure (splitText (← eval fuel e).toText s.toText)
      setElements (← tableOf n) (parts.zipIdx.map fun (p, i) => ((i + 1).repr, .input p))
      return .number parts.length
    | "sub", r :: new :: target => substitute fuel false r new target
    | "gsub", r :: new :: target => substitute fuel true r new target
    | "match", [s, r] =>
      let s ← eval fuel s
      let r ← regexFor fuel r
      let (start, length) : Int × Int := match r.search? false s.toText.toList with
        | some x => (x.front.length + 1, x.found.length)
        | none => (0, -1)
      setValue "RSTART" (.number start)
      setValue "RLENGTH" (.number length)
      return .number start
    | name, as =>
      match (← get).functions.find? fun f => f.name == name with
      | some f => callFunction fuel f as
      | none =>
        if ownFunctions.contains name then ownCall name (← evalAll fuel as)
        else ofTool (halt ("line 1: function " ++ name ++ " never defined"))

/-- Replaces what an expression fits in a place, and gives the number of times. -/
def substitute : Nat → Bool → Expression → Expression → List Expression → Act Value
  | 0, _, _, _, _ => tooLong
  | fuel + 1, all, r, new, target => do
    let r ← regexFor fuel r
    let new ← eval fuel new
    let p ← placeFor fuel (target.headD (.field (.number "0")))
    let s := (← load p).toText.toList
    let (t, n) := replaced r all new.toText.toList (2 * s.length + 3) none false s
    if n > 0 then store p (.text (String.ofList t))
    return .number n

/-- Calls a function of the program. -/
def callFunction : Nat → Function → List Expression → Act Value
  | 0, _, _ => tooLong
  | fuel + 1, f, as => do
    let given ← slots fuel as
    modify fun m => { m with calls := m.calls + 1 }
    let calls := (← get).calls
    let fresh := f.parameters.map fun p => Slot.alias (calls.repr ++ "." ++ p)
    let frame := f.parameters.zip (given ++ fresh.drop given.length)
    modify fun m => { m with frames := frame :: m.frames }
    let leaving : Act Unit := modify fun m => { m with frames := m.frames.drop 1 }
    try
      run fuel f.body
      leaving
      return .nothing
    catch j =>
      leaving
      match j with
      | .back v => return v
      | j => throw j

/-- What the names of parameters mean for arguments. -/
def slots : Nat → List Expression → Act (List Slot)
  | 0, _ => tooLong
  | _, [] => return []
  | fuel + 1, e :: es => do
    let s ← match e with
      | .name n => do
        match ← slot? n with
        | some s => pure s
        | none =>
          match (← get).values.lookup n with
          | some v => pure (.value v)
          | none => pure (.alias n)
      | e => .value <$> eval fuel e
    return s :: (← slots fuel es)

/-- Runs a statement. -/
def run : Nat → Statement → Act Unit
  | 0, _ => tooLong
  | fuel + 1, s => do
    match s with
    | .value e =>
      let _ ← eval fuel e
    | .print es goal =>
      let vs ← evalAll fuel es
      let separator := (← value "OFS").toText
      let line := (← get).record
      let text := if es.isEmpty then line
        else separator.intercalate (vs.map Value.toText)
      let ending := (← value "ORS").toText
      put (← goalOf fuel goal) (text ++ ending)
    | .printFormat es goal =>
      match ← evalAll fuel es with
      | [] => return
      | f :: vs =>
        let file ← goalOf fuel goal
        match format (f.toText.length + 1) f.toText.toList vs with
        | some t => put file (String.ofList t)
        | none =>
          ofTool (halt ("run time error: not enough arguments passed to printf(\"" ++ f.toText
            ++ "\")"))
    | .choose c yes no => if (← eval fuel c).isTrue then run fuel yes else run fuel no
    | .cycle c step body => cycle fuel c step body
    | .again body c =>
      if ← inLoop fuel body then
        if (← eval fuel c).isTrue then run fuel (.again body c)
    | .each n t body =>
      let keys := (← elements (← tableOf t)).map (·.1)
      each fuel n keys body
    | .block ss => runAll fuel ss
    | .next => throw .next
    | .exit e =>
      if let some e := e then ofTool (setStatus ((whole (← eval fuel e).toNumber) % 256).toNat)
      throw .exit
    | .leave => throw .leave
    | .resume => throw .resume
    | .back e =>
      match e with
      | some e => throw (.back (← eval fuel e))
      | none => throw (.back .nothing)
    | .delete t index =>
      let t ← tableOf t
      match index with
      | none => setElements t []
      | some es =>
        let key ← keyOf fuel es
        setElements t ((← elements t).filter fun x => x.1 != key)

/-- Runs statements. -/
def runAll : Nat → List Statement → Act Unit
  | 0, _ => tooLong
  | _, [] => return
  | fuel + 1, s :: ss => do
    run fuel s
    runAll fuel ss

/-- The file that a goal means. -/
def goalOf : Nat → Goal → Act (Option (Bool × String))
  | 0, _ => tooLong
  | fuel + 1, goal => do
    match goal with
    | .output => return none
    | .file atEnd e => return some (atEnd, (← eval fuel e).toText)

/-- Runs the body of a loop; false if the loop is left. -/
def inLoop : Nat → Statement → Act Bool
  | 0, _ => tooLong
  | fuel + 1, body => do
    try
      run fuel body
      return true
    catch j =>
      match j with
      | .leave => return false
      | .resume => return true
      | j => throw j

/-- Runs a loop with a condition in front. -/
def cycle : Nat → Option Expression → Statement → Statement → Act Unit
  | 0, _, _, _ => tooLong
  | fuel + 1, c, step, body => do
    let holds ← match c with
      | some e => Value.isTrue <$> eval fuel e
      | none => pure true
    if holds then
      if ← inLoop fuel body then
        run fuel step
        cycle fuel c step body

/-- Runs a loop over keys. -/
def each : Nat → String → List String → Statement → Act Unit
  | 0, _, _, _ => tooLong
  | _, _, [], _ => return
  | fuel + 1, n, key :: keys, body => do
    store (.name n) (.input key)
    if ← inLoop fuel body then each fuel n keys body

end

/-! ## Records -/

/-- How deep a program may go. -/
def depth : Nat := 1000000

/-- Is a rule followed for the record? -/
def applies (i : Nat) (p : Pattern) : Act Bool := do
  match p with
  | .start => return false
  | .finish => return false
  | .always => return true
  | .holds e => Value.isTrue <$> eval depth e
  | .between first last =>
    let inside ← if (← get).between.contains i then pure true
      else Value.isTrue <$> eval depth first
    if inside then
      let isLast := (← eval depth last).isTrue
      modify fun m => { m with between :=
        if isLast then m.between.filter (· != i) else i :: m.between }
    return inside

/-- Follows the rules for the record. -/
def followRules (rules : List Rule) : Act Unit := do
  try
    for (r, i) in rules.zipIdx do
      if ← applies i r.pattern then run depth r.body
  catch j =>
    match j with
    | .next => return
    | j => throw j

/-- Follows the rules for all records. -/
def readAll (rules : List Rule) : Nat → Act Unit
  | 0 => return
  | fuel + 1 => do
    match ← readRecord fuel with
    | none => return
    | some s =>
      setRecord s
      followRules rules
      readAll rules fuel

/-- Runs an action that may end the program; does it go on? -/
def untilExit (act : Act Unit) : Act Bool := do
  try
    act
    return true
  catch j =>
    match j with
    | .exit => return false
    | _ => return true

/-- Runs a program. -/
def follow (p : Program) : Act Unit := do
  let isStart (r : Rule) : Bool := match r.pattern with
    | .start => true
    | _ => false
  let isFinish (r : Rule) : Bool := match r.pattern with
    | .finish => true
    | _ => false
  let goesOn ← untilExit do
    for r in p.rules.filter isStart do
      run depth r.body
  if goesOn && p.rules.any fun r => !isStart r then
    let _ ← untilExit (readAll p.rules depth)
  let _ ← untilExit do
    for r in p.rules.filter isFinish do
      run depth r.body

/-- What a program knows at its beginning. -/
def Machine.initial (p : Program) (arguments : List String) (environment : List (String × String)) :
    Machine where
  functions := p.functions
  values := [("FS", .text " "), ("OFS", .text " "), ("ORS", .text "\n"), ("RS", .text "\n"),
    ("SUBSEP", .text "\x1c"), ("NR", .number 0), ("FNR", .number 0), ("NF", .number 0),
    ("RSTART", .number 0), ("RLENGTH", .number (-1)), ("ARGC", .number (arguments.length + 1))]
  tables := [("ENVIRON", environment.map fun (n, v) => (n, .input v)),
    ("ARGV", ("awk" :: arguments).zipIdx.map fun (a, i) => (i.repr, .input a))]
  frames := []
  calls := 0
  record := ""
  fields := []
  rest := []
  inputs := arguments
  begun := false
  opened := []
  sources := []
  between := []

end NetPlot.Emulation.Tool.Record

namespace NetPlot.Emulation.Tool

/-! ## The tool -/

/-- The first option in front that is not known. -/
def strangeOption? : Nat → List String → Option String
  | 0, _ => none
  | _, [] => none
  | fuel + 1, a :: rest =>
    match a.toList with
    | ['-', '-'] => none
    | '-' :: c :: cs =>
      if !"FvfW".toList.contains c then some a
      else strangeOption? fuel (if cs.isEmpty then rest.drop 1 else rest)
    | _ => none

open Text Record in
/-- `awk`: a program over records. -/
def awk : Tool Unit := do
  let arguments := (← read).arguments
  if let some a := strangeOption? arguments.length arguments then halt ("not an option: " ++ a)
  let g ← givenInFront "F:v:f:W:" [] 2
  let files := (g.options.filter fun o => o.1 == 'f').map (·.2)
  let mut text := ""
  for f in files do
    match ← contentOf f with
    | .ok s => text := text ++ s ++ "\n"
    | .error e => halt ("cannot open \"" ++ f ++ "\" (" ++ e.reason ++ ")")
  let operands := if files.isEmpty then g.operands.drop 1 else g.operands
  if files.isEmpty then
    match g.operands with
    | [] => stop 2
    | s :: _ => text := s
  match Program.ofText text with
  | .error m => halt m
  | .ok p =>
    let assigned := g.options.filterMap fun (o, v) =>
      let plain (s : String) : String := String.ofList (unescape (s.length + 1) s.toList).1
      match o, splitRun (· ≠ '=') v.toList with
      | 'F', _ => some ("FS", Value.text (plain v))
      | 'v', (name, _ :: x) => some (String.ofList name, .input (plain (String.ofList x)))
      | _, _ => none
    let m := Machine.initial p operands (← read).environment
    let m := assigned.foldl (fun m (n, v) =>
      { m with values := (n, v) :: m.values.filter fun x => x.1 != n }) m
    let _ ← StateT.run (ExceptT.run (follow p)) m

end NetPlot.Emulation.Tool
