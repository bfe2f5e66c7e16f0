/-
  The editor of streams.

  1. **Data** — a script is a row of `Instruction`s, each with a `Range` of lines that it is for.  A
     block knows how many instructions are in it, and a label stands in the row itself.

  2. **Reading** — `readScript` reads instructions, and says at which character a fault was found.

  3. **Program** — `Edit` has the line that is worked on, the lines to come, the text that is held,
     and what was written.  `edit` goes through the instructions for one line after the other; it
     is given fuel, because instructions may jump back.
-/
import NetPlot.Emulation.Tool.Regex
import NetPlot.Emulation.Tool.Tree

namespace NetPlot.Emulation.Tool.Editor

open NetPlot.Text NetPlot.Emulation.Tool

/-! ## Scripts -/

/-- An expression, or the last one that was used. -/
structure Sought where
  regex : Option Regex
  ignoreCase : Bool

/-- A line that is meant. -/
inductive Address where
  | line (n : Nat)
  | last
  | fitting (s : Sought)
  | every (first step : Nat)
  /-- So many lines after the first one of a range. -/
  | further (n : Nat)
  /-- The next line whose number can be divided. -/
  | multiple (n : Nat)

/-- The lines that an instruction is for. -/
structure Range where
  first : Option Address
  finish : Option Address
  negated : Bool

/-- A part of what is put in place of a text. -/
inductive Filling where
  | text (s : List Char)
  | group (n : Nat)
  /-- What follows is written in capitals or in small letters. -/
  | case (mark : Char)

/-- What is done for a line. -/
inductive Action where
  | block (size : Nat)
  | finish
  | label (name : String)
  | substitute (s : Sought) (fs : List Filling) (all print : Bool) (number : Nat)
      (target : Option String)
  | translate (table : List (Char × Char))
  | delete
  | deleteFirst
  | print
  | printFirst
  | next
  | appendNext
  | hold
  | holdMore
  | fetch
  | fetchMore
  | exchange
  | number
  | show
  | quit (silent : Bool) (status : Nat)
  | branch (name : String)
  | branchIf (name : String)
  | branchUnless (name : String)
  | above (text : String)
  | below (text : String)
  | change (text : String)
  | insertFile (name : String)
  | writeTo (name : String)

/-- Something that is done for some lines. -/
structure Instruction where
  range : Range
  action : Action

/-! ## Reading -/

/-- A reader of scripts; what is left is the state. -/
abbrev Reader := StateT (List Char) (Except (List Char × String))

/-- Ends reading at what is left. -/
def broken {α : Type} (m : String) : Reader α := fun s => .error (s, m)

/-- Takes one character. -/
def next? : Reader (Option Char) := fun s =>
  match s with
  | [] => .ok (none, [])
  | c :: r => .ok (some c, r)

/-- Takes a run of characters. -/
def run (inClass : Char → Bool) : Reader (List Char) := fun s => .ok (splitRun inClass s)

/-- Takes a number, if there is one. -/
def number? : Reader (Option Nat) := do
  match ← run Char.isDigit with
  | [] => return none
  | ds => return some (numeral 10 ds)

/-- A blank inside a line. -/
def isGap (c : Char) : Bool := c == ' ' || c == '\t'

/-- The text up to a mark, in which the mark itself stands after a backslash; `brackets` says that
a mark in a set is none. -/
def delimited (brackets : Bool) (mark : Char) : Nat → Bool → List Char →
    Option (List Char × List Char)
  | 0, _, _ => none
  | _, _, [] => none
  | fuel + 1, inSet, c :: s =>
    if c = '\\' ∧ !inSet then
      match s with
      | [] => none
      | d :: r =>
        (delimited brackets mark fuel inSet r).map fun (t, r) =>
          if d = mark then (d :: t, r)
          else if d = '\n' ∧ brackets then ('\n' :: t, r)
          else ('\\' :: d :: t, r)
    else if inSet then
      match c, s with
      | ']', _ => (delimited brackets mark fuel false s).map fun (t, r) => (c :: t, r)
      | '\\', 'n' :: r => (delimited brackets mark fuel true r).map fun (t, r) => ('\n' :: t, r)
      | '\\', 't' :: r => (delimited brackets mark fuel true r).map fun (t, r) => ('\t' :: t, r)
      | c, s => (delimited brackets mark fuel true s).map fun (t, r) => (c :: t, r)
    else if c = mark then some ([], s)
    else if c = '\n' ∧ brackets then none
    else if c = '[' ∧ brackets then
      match s with
      | '^' :: ']' :: r =>
        (delimited brackets mark fuel true r).map fun (t, r) => ('[' :: '^' :: ']' :: t, r)
      | ']' :: r => (delimited brackets mark fuel true r).map fun (t, r) => ('[' :: ']' :: t, r)
      | s => (delimited brackets mark fuel true s).map fun (t, r) => ('[' :: t, r)
    else (delimited brackets mark fuel false s).map fun (t, r) => (c :: t, r)

/-- The text up to a mark. -/
def upTo (brackets : Bool) (mark : Char) (message : String) : Reader (List Char) := fun s =>
  match delimited brackets mark (s.length + 1) false s with
  | some (t, r) => .ok (t, r)
  | none => .error ([], message)

/-- The expression that a text is; an empty one means the last one. -/
def soughtOf (extended : Bool) (s : List Char) (ignoreCase : Bool) : Reader Sought := do
  if s.isEmpty then return ⟨none, ignoreCase⟩
  match Regex.ofText extended (String.ofList s) with
  | .ok r => return ⟨some r, ignoreCase⟩
  | .error m => broken m

/-- An address at the front. -/
def address? (extended : Bool) : Reader (Option Address) := do
  match ← get with
  | c :: r =>
    if c.isDigit then
      let n := (← number?).getD 0
      match ← get with
      | '~' :: _ =>
        let _ ← next?
        return some (.every n ((← number?).getD 0))
      | _ => return some (.line n)
    else if c = '$' then
      let _ ← next?
      return some .last
    else if c = '/' ∨ c = '\\' then
      let mark ← if c = '/' then do
          set r
          pure '/'
        else do
          set (r.drop 1)
          pure (r.headD '/')
      let text ← upTo true mark "unterminated address regex"
      let flags ← run fun c => c == 'I' || c == 'M'
      return some (.fitting (← soughtOf extended text (flags.contains 'I')))
    else return none
  | [] => return none

/-- The second address of a range. -/
def secondAddress (extended : Bool) : Reader Address := do
  match ← get with
  | '+' :: _ =>
    let _ ← next?
    return .further ((← number?).getD 0)
  | '~' :: _ =>
    let _ ← next?
    return .multiple ((← number?).getD 0)
  | _ =>
    match ← address? extended with
    | some a => return a
    | none => broken "unexpected `,'"

/-- The parts of what is put in place of a text. -/
def fillings : Nat → List Char → List Char → List Filling
  | 0, _, _ => []
  | _, text, [] => if text.isEmpty then [] else [.text text.reverse]
  | fuel + 1, text, c :: s =>
    let flush (rest : List Filling) : List Filling :=
      if text.isEmpty then rest else .text text.reverse :: rest
    match c, s with
    | '&', s => flush (.group 0 :: fillings fuel [] s)
    | '\\', d :: r =>
      if d.isDigit then flush (.group (d.toNat - '0'.toNat) :: fillings fuel [] r)
      else if "LUluE".toList.contains d then flush (.case d :: fillings fuel [] r)
      else if d = 'n' then fillings fuel ('\n' :: text) r
      else if d = 't' then fillings fuel ('\t' :: text) r
      else fillings fuel (d :: text) r
    | c, s => fillings fuel (c :: text) s

/-- The text of an instruction that adds one, up to the end of its line. -/
def addedText : Nat → List Char → List Char × List Char
  | 0, s => ([], s)
  | _, [] => ([], [])
  | _, '\n' :: s => ([], s)
  | fuel + 1, '\\' :: c :: s =>
    let (t, r) := addedText fuel s
    (c :: t, r)
  | _, ['\\'] => ([], [])
  | fuel + 1, c :: s =>
    let (t, r) := addedText fuel s
    (c :: t, r)

/-- Reads the text of an instruction that adds one. -/
def readText : Reader String := do
  let _ ← run isGap
  match ← get with
  | [] => broken "expected \\ after `a', `c' or `i'"
  | '\\' :: r =>
    let (_, r) := splitRun isGap r
    let r := match r with
      | '\n' :: r => r
      | r => r
    let (t, r) := addedText (r.length + 1) r
    set r
    return String.ofList t ++ "\n"
  | s =>
    let (t, r) := addedText (s.length + 1) s
    set r
    return String.ofList t ++ "\n"

/-- Reads the name of a file up to the end of the line. -/
def readName : Reader String := do
  let _ ← run isGap
  let name ← run (· != '\n')
  let _ ← next?
  if name.isEmpty then broken "missing filename in r/R/w/W commands"
  return String.ofList name

/-- Reads the end of an instruction. -/
def readEnd : Reader Unit := do
  let _ ← run isGap
  match ← get with
  | [] => return
  | '\n' :: r => set r
  | ';' :: r => set r
  | '\x7d' :: _ => return
  | '#' :: _ => return
  | _ :: r =>
    set r
    broken "extra characters after command"

/-- Reads a name of a label. -/
def readLabel : Reader String := do
  let _ ← run isGap
  let name ← run fun c => c != '\n' && c != ';' && !isGap c
  readEnd
  return String.ofList name

/-- The flags of a substitution. -/
structure Flags where
  all : Bool
  print : Bool
  ignoreCase : Bool
  number : Nat
  target : Option String

/-- Reads the flags of a substitution. -/
def readFlags : Nat → Flags → Reader Flags
  | 0, f => return f
  | fuel + 1, f => do
    match ← get with
    | c :: r =>
      if c.isDigit then
        let n := (← number?).getD 0
        if n = 0 then broken "number option to `s' command may not be zero"
        readFlags fuel { f with number := n }
      else
        match c with
        | 'g' =>
          set r
          if f.all then broken "multiple `g' options to `s' command"
          readFlags fuel { f with all := true }
        | 'p' =>
          set r
          if f.print then broken "multiple `p' options to `s' command"
          readFlags fuel { f with print := true }
        | 'w' =>
          set r
          return { f with target := some (← readName) }
        | c =>
          if "iI".toList.contains c then
            set r
            readFlags fuel { f with ignoreCase := true }
          else if "mMe".toList.contains c then
            set r
            readFlags fuel f
          else if isGap c ∨ c = '\n' ∨ c = ';' ∨ c = '\x7d' ∨ c = '#' then
            readEnd
            return f
          else
            set r
            broken "unknown option to `s'"
    | [] => return f

/-- Reads what is done, after the addresses. -/
def readAction (extended : Bool) (addresses : Nat) : Reader (Option Action) := do
  let simple (a : Action) : Reader (Option Action) := do
    readEnd
    return some a
  match ← next? with
  | none => broken "missing command"
  | some c =>
    match c with
    | '\n' => broken "missing command"
    | '\x7b' => return some (.block 0)
    | '\x7d' =>
      if addresses > 0 then broken "\x7d doesn't want any addresses"
      simple .finish
    | ':' =>
      if addresses > 0 then broken ": doesn't want any addresses"
      let _ ← run isGap
      let name ← run fun c => c != '\n' && c != ';'
      if name.isEmpty then broken "\":\" lacks a label"
      let _ ← next?
      return some (.label (String.ofList name))
    | 's' =>
      match ← next? with
      | none => broken "unterminated `s' command"
      | some mark =>
        let text ← upTo true mark "unterminated `s' command"
        let target ← upTo false mark "unterminated `s' command"
        let f ← readFlags ((← get).length + 1) ⟨false, false, false, 0, none⟩
        let s ← soughtOf extended text f.ignoreCase
        return some (.substitute s (fillings (target.length + 1) [] target) f.all f.print (max 1 f.number)
          f.target)
    | 'y' =>
      match ← next? with
      | none => broken "unterminated `y' command"
      | some mark =>
        let source ← upTo false mark "unterminated `y' command"
        let target ← upTo false mark "unterminated `y' command"
        let plain (s : List Char) : List Char := unslashed (s.length + 1) s
        if (plain source).length ≠ (plain target).length then
          broken "strings for `y' command are different lengths"
        simple (.translate ((plain source).zip (plain target)))
    | 'd' => simple .delete
    | 'D' => simple .deleteFirst
    | 'p' => simple .print
    | 'P' => simple .printFirst
    | 'n' => simple .next
    | 'N' => simple .appendNext
    | 'h' => simple .hold
    | 'H' => simple .holdMore
    | 'g' => simple .fetch
    | 'G' => simple .fetchMore
    | 'x' => simple .exchange
    | '=' => simple .number
    | 'l' => simple .show
    | 'q' =>
      let _ ← run isGap
      let n ← number?
      simple (.quit false (n.getD 0))
    | 'Q' =>
      let _ ← run isGap
      let n ← number?
      simple (.quit true (n.getD 0))
    | 'b' => return some (.branch (← readLabel))
    | 't' => return some (.branchIf (← readLabel))
    | 'T' => return some (.branchUnless (← readLabel))
    | 'a' => return some (.below (← readText))
    | 'i' => return some (.above (← readText))
    | 'c' => return some (.change (← readText))
    | 'r' => return some (.insertFile (← readName))
    | 'w' => return some (.writeTo (← readName))
    | c => broken ("unknown command: `" ++ String.singleton c ++ "'")
where
  /-- A text without its backslashes. -/
  unslashed : Nat → List Char → List Char
    | 0, _ => []
    | _, [] => []
    | fuel + 1, '\\' :: 'n' :: s => '\n' :: unslashed fuel s
    | fuel + 1, '\\' :: '\\' :: s => '\\' :: unslashed fuel s
    | fuel + 1, c :: s => c :: unslashed fuel s

/-- Reads all instructions. -/
def readAll (extended : Bool) : Nat → Reader (List Instruction)
  | 0 => return []
  | fuel + 1 => do
    let _ ← run fun c => isGap c || c == '\n' || c == ';'
    match ← get with
    | [] => return []
    | '#' :: _ =>
      let _ ← run (· != '\n')
      readAll extended fuel
    | _ =>
      let first ← address? extended
      let _ ← run isGap
      let finish ← match first, ← get with
        | some _, ',' :: r => do
          set r
          let _ ← run isGap
          pure (some (← secondAddress extended))
        | _, _ => pure none
      let _ ← run isGap
      let marks ← run (· == '!')
      let _ ← run isGap
      let count := (if first.isSome then 1 else 0) + if finish.isSome then 1 else 0
      match ← readAction extended count with
      | some a => return ⟨⟨first, finish, !marks.isEmpty⟩, a⟩ :: (← readAll extended fuel)
      | none => readAll extended fuel

/-- Instructions whose blocks know their sizes. -/
def withSizes : List Instruction → Except String (List Instruction × List Nat)
  | [] => .ok ([], [])
  | x :: xs => do
    let (rest, ends) ← withSizes xs
    let ends := ends.map (· + 1)
    match x.action, ends with
    | .finish, ends => return (x :: rest, 0 :: ends)
    | .block _, [] => .error "unmatched `\x7b'"
    | .block _, n :: ends => return ({ x with action := .block n } :: rest, ends)
    | _, ends => return (x :: rest, ends)

/-- The instructions of a script, or the number of characters before a fault and what it is. -/
def readScript (extended : Bool) (s : String) : Except (Nat × String) (List Instruction) :=
  let cs := s.toList
  match readAll extended (cs.length + 2) cs with
  | .error (rest, m) => .error (cs.length - rest.length, m)
  | .ok (xs, _) =>
    match withSizes xs with
    | .error m => .error (0, m)
    | .ok (_, _ :: _) => .error (cs.length, "unexpected `\x7d'")
    | .ok (xs, []) => .ok xs

/-! ## Editing -/

/-- A line and whether it has an end. -/
structure Line where
  text : List Char
  ended : Bool

/-- The state of the editor. -/
structure Edit where
  line : Line
  number : Nat
  rest : List Line
  held : List Char
  /-- What is written after the line. -/
  later : List String
  /-- For each instruction, the line at which its range ends: none while it is not begun. -/
  begun : List (Nat × Option Nat)
  output : List String
  /-- Does the output lack the end of its last line? -/
  unended : Bool
  substituted : Bool
  lastRegex : Option Regex
  written : List (String × String)
  files : Files
  status : Nat
  ended : Bool

namespace Edit

/-- Writes a text. -/
def say (e : Edit) (s : String) (ended : Bool) : Edit :=
  let front := if e.unended then "\n" else ""
  { e with output := (front ++ s ++ if ended then "\n" else "") :: e.output, unended := !ended }

/-- Writes the line. -/
def print (e : Edit) : Edit := e.say (String.ofList e.line.text) e.line.ended

/-- Writes what is kept for after the line. -/
def flush (e : Edit) : Edit :=
  let e := if e.later.isEmpty then e
    else e.later.reverse.foldl
      (fun e s => { e with output := ((if e.unended then "\n" else "") ++ s) :: e.output,
                           unended := false }) e
  { e with later := [] }

/-- Is there an expression that fits the line? -/
def sought? (e : Edit) (s : Sought) : Option Regex := s.regex.or e.lastRegex

/-- Does an address mean the line? -/
def isAt (e : Edit) : Address → Bool
  | .line n => e.number == n
  | .last => e.rest.isEmpty
  | .fitting s =>
    match e.sought? s with
    | some r => (r.search? s.ignoreCase e.line.text).isSome
    | none => false
  | .every first step =>
    if step = 0 then e.number == first else first ≤ e.number && (e.number - first) % step == 0
  | .further _ => false
  | .multiple n => n == 0 || e.number % n == 0

/-- Remembers the expression of an address. -/
def remember (e : Edit) : Option Address → Edit
  | some (.fitting ⟨some r, _⟩) => { e with lastRegex := some r }
  | _ => e

/-- Is an instruction with a number for the line? -/
def selects (e : Edit) (i : Nat) (r : Range) : Bool × Edit :=
  match r.first, r.finish with
  | none, _ => (!r.negated, e)
  | some a, none => ((e.isAt a) != r.negated, e.remember (some a))
  | some a, some b =>
    let set (v : Option (Option Nat)) : Edit :=
      let others := e.begun.filter fun x => x.1 != i
      { e with begun := match v with
        | some v => (i, v) :: others
        | none => others }
    match e.begun.lookup i with
    | some (some n) =>
      if e.number < n then (!r.negated, e)
      else (((e.number == n) : Bool) != r.negated, set none)
    | some none => (!r.negated, if e.isAt b then set none else e.remember (some b))
    | none =>
      let zero : Bool := match a, b with
        | .line 0, .fitting _ => true
        | _, _ => false
      if zero && e.number == 1 then
        (!r.negated, if e.isAt b then e else set (some none))
      else if e.isAt a then
        (!r.negated, match b with
          | .line n => if n ≤ e.number then e else set (some (some n))
          | .further n => if n = 0 then e else set (some (some (e.number + n)))
          | .multiple n =>
            if n = 0 ∨ e.number % n = 0 then e else set (some (some ((e.number / n + 1) * n)))
          | .last => if e.rest.isEmpty then e else set (some none)
          | b => ({ set (some none) with lastRegex := e.lastRegex }).remember (some b))
      else (r.negated, e)

end Edit

/-- The text that is put in place of a fit. -/
def fillingText (x : Fit) (fs : List Filling) : List Char :=
  let (cs, _, _) := fs.foldl
    (fun ((acc, mode, once) : List Char × Char × Char) f =>
      let add (s : List Char) : List Char × Char × Char :=
        let s := if mode = 'U' then s.map Char.toUpper
          else if mode = 'L' then s.map Char.toLower
          else s
        match s with
        | c :: r =>
          let c := if once = 'u' then c.toUpper else if once = 'l' then c.toLower else c
          (acc ++ c :: r, mode, 'E')
        | [] => (acc, mode, once)
      match f with
      | .text s => add s
      | .group 0 => add x.found
      | .group n => add ((x.groups.lookup n).getD [])
      | .case m => if m = 'u' ∨ m = 'l' then (acc, mode, m) else (acc, m, once))
    (([], 'E', 'E') : List Char × Char × Char)
  cs

/-- A text with fits of an expression replaced: from the one with a number on, or only that one.
Right behind another fit (`behind`), an empty one does not count. -/
def substituted (r : Regex) (ignoreCase : Bool) (fs : List Filling) (all : Bool) (nth : Nat) :
    Nat → Nat → Bool → Option Char → List Char → Option (List Char)
  | 0, _, _, _, _ => none
  | fuel + 1, count, behind, before, s =>
    match searchFrom r ignoreCase before [] s with
    | none => none
    | some x =>
      if behind && x.front.isEmpty && x.found.isEmpty then
        match s with
        | [] => none
        | c :: s =>
          (substituted r ignoreCase fs all nth fuel count false (some c) s).map (c :: ·)
      else
        let chosen := count = nth ∨ (all ∧ nth ≤ count)
        let here := x.front ++ if chosen then fillingText x fs else x.found
        if chosen ∧ !all then some (here ++ x.back)
        else
          let before := (x.found.getLast?).or ((x.front.getLast?).or before)
          let (skipped, before, back) := match x.found, x.back with
            | [], c :: back => ([c], some c, back)
            | _, back => ([], before, back)
          let behind := !x.found.isEmpty
          if x.found.isEmpty ∧ x.back.isEmpty then if chosen then some here else none
          else
            match substituted r ignoreCase fs all nth fuel (count + 1) behind before back with
            | some t => some (here ++ skipped ++ t)
            | none => if chosen then some (here ++ skipped ++ back) else none

/-- A line in letters that can be seen. -/
def shown (s : List Char) : String :=
  let letters (c : Char) : String :=
    match c with
    | '\\' => "\\\\"
    | '\x07' => "\\a"
    | '\x08' => "\\b"
    | '\x0c' => "\\f"
    | '\n' => "\\n"
    | '\r' => "\\r"
    | '\t' => "\\t"
    | '\x0b' => "\\v"
    | c =>
      if ' ' ≤ c ∧ c ≤ '~' then String.singleton c
      else
        let ds := Nat.toDigits 8 c.toNat
        "\\" ++ String.ofList (List.replicate (3 - ds.length) '0' ++ ds)
  let (text, _) := s.foldl
    (fun ((t, n) : String × Nat) c =>
      let o := letters c
      if n + o.length > 69 then (t ++ "\\\n" ++ o, o.length) else (t ++ o, n + o.length))
    ("", 0)
  text ++ "$"

/-- What comes after an instruction. -/
inductive Step where
  | goOn
  | skip (n : Nat)
  | jump (name : String)
  /-- The end of the line; it is written if that is wanted. -/
  | done (print : Bool)
  /-- The instructions once more, with the same line. -/
  | again

/-- Takes the next line. -/
def Edit.advance (e : Edit) : Option Edit :=
  match e.rest with
  | [] => none
  | l :: r => some { e with line := l, rest := r, number := e.number + 1 }

/-- Does what an instruction says; `quiet` says that lines are not written by themselves. -/
def Action.apply (quiet : Bool) (inRange : Bool) (a : Action) (e : Edit) : Edit × Step :=
  let first (s : List Char) : List Char := s.takeWhile (· != '\n')
  let setText (s : List Char) : Edit := { e with line := { e.line with text := s } }
  match a with
  | .block _ => (e, .goOn)
  | .finish => (e, .goOn)
  | .label _ => (e, .goOn)
  | .substitute s fs all shows nth target =>
    match e.sought? s with
    | none => (e, .goOn)
    | some r =>
      let e := { e with lastRegex := some r }
      match substituted r s.ignoreCase fs all nth (2 * e.line.text.length + 4) 1 false none e.line.text with
      | none => (e, .goOn)
      | some t =>
        let e := { e with line := { e.line with text := t }, substituted := true }
        let e := if shows then e.print else e
        let e := match target with
          | none => e
          | some n => { e with written := (n, String.ofList t ++ "\n") :: e.written }
        (e, .goOn)
  | .translate table =>
    (setText (e.line.text.map fun c => (table.lookup c).getD c), .goOn)
  | .delete => (e, .done false)
  | .deleteFirst =>
    if e.line.text.contains '\n' then
      (setText (e.line.text.drop ((first e.line.text).length + 1)), .again)
    else (e, .done false)
  | .print => (e.print, .goOn)
  | .printFirst => (e.say (String.ofList (first e.line.text)) true, .goOn)
  | .next =>
    match e.rest with
    | [] => ({ e with ended := true }, .done true)
    | _ =>
      let e := (if quiet then e else e.print).flush
      ((e.advance).getD e, .goOn)
  | .appendNext =>
    let old := e.line.text
    match e.flush.advance with
    | none => ({ e with ended := true }, .done true)
    | some e => ({ e with line := { e.line with text := old ++ '\n' :: e.line.text } }, .goOn)
  | .hold => ({ e with held := e.line.text }, .goOn)
  | .holdMore => ({ e with held := e.held ++ '\n' :: e.line.text }, .goOn)
  | .fetch => (setText e.held, .goOn)
  | .fetchMore => (setText (e.line.text ++ '\n' :: e.held), .goOn)
  | .exchange => ({ setText e.held with held := e.line.text }, .goOn)
  | .number => (e.say e.number.repr true, .goOn)
  | .show => (e.say (shown e.line.text) true, .goOn)
  | .quit silent status => ({ e with ended := true, status }, .done !silent)
  | .branch n => (e, .jump n)
  | .branchIf n => if e.substituted then ({ e with substituted := false }, .jump n) else (e, .goOn)
  | .branchUnless n =>
    if e.substituted then ({ e with substituted := false }, .goOn) else (e, .jump n)
  | .above t => ({ e with output := ((if e.unended then "\n" else "") ++ t) :: e.output,
                          unended := false }, .goOn)
  | .below t => ({ e with later := t :: e.later }, .goOn)
  | .change t =>
    if inRange then (e, .done false)
    else ({ e with output := ((if e.unended then "\n" else "") ++ t) :: e.output,
                   unended := false }, .done false)
  | .insertFile n =>
    match e.files.read (pathOf n) with
    | .ok b => ({ e with later := octetsOf b :: e.later }, .goOn)
    | .error _ => (e, .goOn)
  | .writeTo n => ({ e with written := (n, String.ofList e.line.text ++ "\n") :: e.written }, .goOn)

/-- Goes through the instructions for the line, and then on to the next lines. -/
def edit (quiet : Bool) (script : Array Instruction) : Nat → Nat → Edit → Edit
  | 0, _, e => e
  | fuel + 1, i, e =>
    let finish (print : Bool) (e : Edit) : Edit :=
      let e := (if print && !quiet then e.print else e).flush
      if e.ended then e
      else
        match e.advance with
        | none => e
        | some e => edit quiet script fuel 0 { e with substituted := false }
    match script[i]? with
    | none => finish true e
    | some x =>
      let (chosen, e) := e.selects i x.range
      if !chosen then
        match x.action with
        | .block n => edit quiet script fuel (i + n + 1) e
        | _ => edit quiet script fuel (i + 1) e
      else
        let begun := x.range.finish.isSome && (e.begun.lookup i).isSome && !e.rest.isEmpty
        let (e, step) := x.action.apply quiet begun e
        match step with
        | .goOn => edit quiet script fuel (i + 1) e
        | .skip n => edit quiet script fuel (i + n + 1) e
        | .jump name =>
          let target := if name = "" then script.size
            else (script.findIdx? fun y => match y.action with
              | .label n => n == name
              | _ => false).getD script.size
          edit quiet script fuel target e
        | .done print => finish print e
        | .again => edit quiet script fuel 0 e.flush

/-- The lines of a text. -/
def rowsOf (s : String) : List Line :=
  (fullLines s).map fun l =>
    let cs := l.toList
    if cs.getLast? = some '\n' then ⟨cs.dropLast, true⟩ else ⟨cs, false⟩

/-- Edits some lines. -/
def editLines (quiet : Bool) (script : List Instruction) (fs : Files) (ls : List Line) : Edit :=
  let e : Edit := ⟨⟨[], true⟩, 0, ls, [], [], [], [], false, false, none, [], fs, 0, false⟩
  match e.advance with
  | none => e
  | some e => edit quiet script.toArray (100000 + 1000 * (ls.length * (script.length + 1))) 0 e

/-- The text that was written. -/
def Edit.text (e : Edit) : String := String.join e.output.reverse

/-- The names of labels that are jumped to and are not there. -/
def missingLabel? (script : List Instruction) : Option String :=
  let labels := script.filterMap fun x => match x.action with
    | .label n => some n
    | _ => none
  let used := script.filterMap fun x => match x.action with
    | .branch n => some n
    | .branchIf n => some n
    | .branchUnless n => some n
    | _ => none
  used.find? fun n => n != "" && !labels.contains n

/-- The files that are written to. -/
def targets (script : List Instruction) : List String :=
  (script.filterMap fun x => match x.action with
    | .writeTo n => some n
    | .substitute _ _ _ _ _ n => n
    | _ => none).eraseDups

end NetPlot.Emulation.Tool.Editor

namespace NetPlot.Emulation.Tool

open NetPlot.Text NetPlot.Emulation.Tool.Editor

/-- `sed`: edits streams. -/
def sed : Tool Unit := do
  let arguments := (← read).arguments
  let known := knownOptions "e:f:nErsuziI:l:"
    [("expression", 'e'), ("file", 'f'), ("quiet", 'n'), ("silent", 'n'), ("regexp-extended", 'E'),
     ("separate", 's'), ("in-place", 'i'), ("null-data", 'z')]
  let isInPlace (s : String) : Bool := beginsWith "-i" s || beginsWith "--in-place" s
  let suffix := (arguments.find? isInPlace).map fun s =>
    match afterMark? "--in-place=".toList s.toList, afterMark? ['-', 'i'] s.toList with
    | some r, _ => String.ofList r
    | none, some r => String.ofList r
    | none, none => ""
  let arguments := arguments.map fun s => if isInPlace s then "-i" else s
  let g ← readOptions known 1 false (arguments.length + 1) arguments
  let scripts ← (g.options.filter fun o => o.1 == 'e' || o.1 == 'f').mapM fun (c, v) => do
    if c == 'e' then return v
    match ← contentOf v with
    | .ok s => return s
    | .error e => refuse ("couldn't open file " ++ v ++ ": " ++ e.reason) 1
  let (scripts, names) ← match scripts, g.operands with
    | [], [] =>
      write 2 "Usage: sed [OPTION]... \x7bscript-only-if-no-other-script\x7d [input-file]...\n"
      stop 1
    | [], s :: ns => pure ([s], ns)
    | ss, ns => pure (ss, ns)
  match readScript (g.has 'E' || g.has 'r') ("\n".intercalate scripts) with
  | .error (n, m) => refuse ("-e expression #1, char " ++ n.repr ++ ": " ++ m) 1
  | .ok script =>
    match missingLabel? script with
    | some l => refuse ("can't find label for jump to `" ++ l ++ "'") 1
    | none => pure ()
    for t in targets script do
      match ← writeFile t "" with
      | .ok () => pure ()
      | .error e => refuse ("couldn't open file " ++ t ++ ": " ++ e.reason) 4
    let quiet := g.has 'n' || (afterMark? ['#', 'n', '\n'] (scripts.headD "").toList).isSome
    let names := if names.isEmpty then ["-"] else names
    let mut texts : List (String × String) := []
    for n in names do
      match ← contentOf n with
      | .ok s => texts := texts ++ [(n, s)]
      | .error .isDirectory =>
        warn ("couldn't edit " ++ n ++ ": not a regular file")
        setStatus 4
      | .error e =>
        warn ("can't read " ++ n ++ ": " ++ e.reason)
        setStatus 2
    let finish (e : Edit) : Tool Unit := do
      for t in targets script do
        let new := String.join ((e.written.filter fun x => x.1 == t).reverse.map (·.2))
        let old := match (← get).files.read (pathOf t) with
          | .ok b => octetsOf b
          | .error _ => ""
        let _ ← writeFile t (old ++ new)
      if e.status ≠ 0 then setStatus e.status
    if g.has 'i' then
      for (n, s) in texts do
        let e := editLines quiet script (← get).files (rowsOf s)
        match suffix with
        | some "" => pure ()
        | some x => let _ ← writeFile (n ++ x) s
        | none => pure ()
        let _ ← writeFile n e.text
        finish e
    else if g.has 's' then
      for (_, s) in texts do
        let e := editLines quiet script (← get).files (rowsOf s)
        say e.text
        finish e
    else
      let all := texts.map (·.2)
      let ended := all.map fun s => if s.isEmpty ∨ s.toList.getLast? = some '\n' then s else s ++ "\n"
      let joined := String.join (ended.dropLast ++ [all.getLastD ""])
      let e := editLines quiet script (← get).files (rowsOf joined)
      say e.text
      finish e

end NetPlot.Emulation.Tool
