/-
  Reading programs over records.

  1. **Cursor** — what is left of a program, and the number of its line.  `mark?` is the longest
     operator at the front, so that `+=` is never read as `+`.

  2. **Expressions** — operators stand in levels from the loosest to the tightest (`level`); two
     operands without an operator are joined.  In a list that is written, `>` names a file.

  3. **Statements and rules** — they end with a semicolon, a line end or a closing brace.

  Every reader takes fuel; a program is read with more of it than it has characters.
-/
import NetPlot.Emulation.Tool.Format
import NetPlot.Emulation.Tool.Record.Syntax

namespace NetPlot.Emulation.Tool.Record

open NetPlot.Text

/-! ## The cursor -/

/-- What is left of a program. -/
structure Cursor where
  rest : List Char
  line : Nat

/-- A reader of programs; a fault is a complaint. -/
abbrev Reading := StateT Cursor (Except String)

/-- Ends reading. -/
def flaw {α : Type} (message : String) : Reading α := fun c =>
  .error ("line " ++ c.line.repr ++ ": " ++ message)

/-- Leaves out a number of characters. -/
def drop (n : Nat) : Reading Unit :=
  modify fun c => ⟨c.rest.drop n, c.line + (c.rest.take n).count '\n'⟩

/-- A text after blanks, comments and line ends that a backslash takes away. -/
def afterBlanks : Nat → List Char → List Char
  | 0, s => s
  | fuel + 1, s =>
    match s with
    | ' ' :: r => afterBlanks fuel r
    | '\t' :: r => afterBlanks fuel r
    | '\r' :: r => afterBlanks fuel r
    | '\\' :: '\n' :: r => afterBlanks fuel r
    | '#' :: r => afterBlanks fuel (r.dropWhile (· ≠ '\n'))
    | s => s

/-- The text after blanks. -/
def ahead : Reading (List Char) := do
  let s := (← get).rest
  let r := afterBlanks (s.length + 1) s
  drop (s.length - r.length)
  return r

/-- Leaves out blanks and line ends. -/
def skipLines : Reading Unit := do
  for _ in List.range ((← get).rest.length + 1) do
    match ← ahead with
    | '\n' :: _ => drop 1
    | _ => break

/-- Leaves out blanks, line ends and semicolons. -/
def skipEnds : Reading Unit := do
  for _ in List.range ((← get).rest.length + 1) do
    match ← ahead with
    | '\n' :: _ => drop 1
    | ';' :: _ => drop 1
    | _ => break

/-- The operators, the longest first. -/
def marks : List String :=
  ["^=", "+=", "-=", "*=", "/=", "%=", "++", "--", "&&", "||", "==", "!=", "<=", ">=",
   "!~", ">>", "^", "+", "-", "*", "/", "%", "<", ">", "=", "!", "~", "?", ":", ",", ";", "(", ")",
   "[", "]", "\x7b", "\x7d", "|", "$"]

/-- The operator at the front. -/
def mark? : Reading (Option String) := do
  let s ← ahead
  return marks.find? fun m => (afterMark? m.toList s).isSome

/-- Takes an operator off the front if it is there. -/
def accept (m : String) : Reading Bool := do
  if (← mark?) = some m then
    drop m.length
    return true
  else return false

/-- A character that may begin a name. -/
def isNameStart (c : Char) : Bool := c.isAlpha || c == '_'

/-- The name or keyword at the front. -/
def nameAhead : Reading String := do
  match ← ahead with
  | c :: s => return if isNameStart c then
      String.ofList (c :: s.takeWhile fun c => c.isAlphanum || c == '_') else ""
  | [] => return ""

/-- Takes a keyword off the front if it is there. -/
def acceptWord (word : String) : Reading Bool := do
  if (← nameAhead) = word then
    drop word.length
    return true
  else return false

/-- Complains about what is at the front. -/
def unexpected {α : Type} : Reading α := do
  let name ← nameAhead
  let m ← mark?
  match ← ahead with
  | [] => flaw "syntax error at or near end of line"
  | '\n' :: _ => flaw "syntax error at or near end of line"
  | c :: _ =>
    let shown := if name ≠ "" then name else m.getD (String.singleton c)
    flaw ("syntax error at or near " ++ shown)

/-- Takes an operator that has to be there. -/
def expect (m : String) : Reading Unit := do
  if !(← accept m) then unexpected

/-! ## Words -/

/-- The keywords. -/
def keywords : List String :=
  ["BEGIN", "END", "function", "func", "if", "else", "while", "for", "do", "break", "continue",
   "next", "exit", "return", "delete", "in", "getline", "print", "printf"]

/-- The functions of the language. -/
def ownFunctions : List String :=
  ["length", "substr", "index", "split", "sub", "gsub", "match", "sprintf", "int",
   "tolower", "toupper", "system", "close", "fflush"]

/-- A text in quotes, up to the closing one, with its escapes replaced. -/
def quotedText : Nat → List Char → Option (List Char × List Char)
  | 0, _ => none
  | _, [] => none
  | _, '\n' :: _ => none
  | _, '"' :: r => some ([], r)
  | fuel + 1, '\\' :: c :: r =>
    if c = '"' then (quotedText fuel r).map fun (t, r) => (c :: t, r)
    else if c = '\n' then quotedText fuel r
    else
      match escape? (c :: r) with
      | some (d, r) => (quotedText fuel r).map fun (t, r) => (d :: t, r)
      | none => (quotedText fuel r).map fun (t, r) => ('\\' :: c :: t, r)
  | fuel + 1, c :: r => (quotedText fuel r).map fun (t, r) => (c :: t, r)

/-- A regular expression up to its closing slash. -/
def slashedText : Bool → List Char → Option (List Char × List Char)
  | _, [] => none
  | _, '\n' :: _ => none
  | inSet, '\\' :: '/' :: r => (slashedText inSet r).map fun (t, r) => ('/' :: t, r)
  | inSet, '\\' :: '"' :: r => (slashedText inSet r).map fun (t, r) => ('"' :: t, r)
  | inSet, '\\' :: c :: r => (slashedText inSet r).map fun (t, r) => ('\\' :: c :: t, r)
  | true, ']' :: r => (slashedText false r).map fun (t, r) => (']' :: t, r)
  | false, '[' :: '^' :: ']' :: r =>
    (slashedText true r).map fun (t, r) => ('[' :: '^' :: ']' :: t, r)
  | false, '[' :: ']' :: r => (slashedText true r).map fun (t, r) => ('[' :: ']' :: t, r)
  | false, '[' :: r => (slashedText true r).map fun (t, r) => ('[' :: t, r)
  | false, '/' :: r => some ([], r)
  | inSet, c :: r => (slashedText inSet r).map fun (t, r) => (c :: t, r)

/-- The digits, the point and the exponent of a number at the front of a text. -/
def numberSpan (s : List Char) : List Char :=
  let (front, r) := splitRun Char.isDigit s
  let (point, r) := match r with
    | '.' :: r => (['.'], r)
    | r => ([], r)
  let (back, r) := if point = [] then ([], r) else splitRun Char.isDigit r
  let power := match r with
    | e :: r =>
      if e = 'e' ∨ e = 'E' then
        let (sign, r) := match r with
          | '-' :: r => (['-'], r)
          | '+' :: r => (['+'], r)
          | r => ([], r)
        let ds := r.takeWhile Char.isDigit
        if ds = [] then [] else e :: sign ++ ds
      else []
    | [] => []
  if front = [] ∧ back = [] then [] else front ++ point ++ back ++ power

/-- Can a value be given to the expression? -/
def isPlace : Expression → Bool
  | .name _ => true
  | .element _ _ => true
  | .field _ => true
  | _ => false

/-- What an assignment does besides storing, by its mark. -/
def assigning? (mark : String) : Option (Option Operator) :=
  match mark with
  | "=" => some none
  | "+=" => some (some .add)
  | "-=" => some (some .subtract)
  | "*=" => some (some .multiply)
  | "/=" => some (some .divide)
  | "%=" => some (some .remainder)
  | "^=" => some (some .power)
  | _ => none

/-- A comparison by its mark. -/
def comparing? (written : Bool) (mark : String) : Option Operator :=
  match mark with
  | "<" => some .less
  | "<=" => some .lessOrEqual
  | "==" => some .equal
  | "!=" => some .unequal
  | ">" => if written then none else some .greater
  | ">=" => some .greaterOrEqual
  | _ => none

/-- Does an operand begin here that is joined to the one before it? -/
def beginsOperand : Reading Bool := do
  match ← ahead with
  | c :: r =>
    let name ← nameAhead
    return c == '$' || c == '"' || c == '(' || c.isDigit || (c == '.' && r.head?.any Char.isDigit)
      || (name != "" && (name == "getline" || !keywords.contains name))
  | [] => return false

/-! ## Expressions -/

mutual

/-- An expression; `written` says that `>` ends it. -/
def expression : Nat → Bool → Reading Expression
  | 0, _ => flaw "too deep"
  | fuel + 1, written => do
    let a ← level fuel written 0
    if isPlace a then
      match (← mark?).bind assigning? with
      | some o =>
        drop ((← mark?).getD "").length
        skipLines
        return .assign o a (← expression fuel written)
      | none => chosen fuel written a
    else chosen fuel written a

/-- A choice after its condition, or the condition alone. -/
def chosen : Nat → Bool → Expression → Reading Expression
  | 0, _, _ => flaw "too deep"
  | fuel + 1, written, a => do
    if ← accept "?" then
      skipLines
      let yes ← expression fuel written
      skipLines
      expect ":"
      skipLines
      return .choose a yes (← expression fuel written)
    else return a

/-- Operands joined by the operators of a level. -/
def level : Nat → Bool → Nat → Reading Expression
  | 0, _, _ => flaw "too deep"
  | fuel + 1, written, k => do
    if k ≥ 8 then unary fuel written
    else levelAfter fuel written k (← level fuel written (k + 1))

/-- What follows the first operand of a level. -/
def levelAfter : Nat → Bool → Nat → Expression → Reading Expression
  | 0, _, _, _ => flaw "too deep"
  | fuel + 1, written, k, a => do
    let m := (← mark?).getD ""
    match k with
    | 0 =>
      if m = "||" then
        drop 2
        skipLines
        levelAfter fuel written k (.either a (← level fuel written 1))
      else return a
    | 1 =>
      if m = "&&" then
        drop 2
        skipLines
        levelAfter fuel written k (.both a (← level fuel written 2))
      else return a
    | 2 =>
      if ← acceptWord "in" then
        let table ← nameAhead
        drop table.length
        let index := match a with
          | .row es => es
          | a => [a]
        levelAfter fuel written k (.member index table)
      else return a
    | 3 =>
      if m = "~" ∨ m = "!~" then
        drop m.length
        levelAfter fuel written k (.fits (m = "!~") a (← level fuel written 4))
      else return a
    | 4 =>
      match comparing? written m with
      | some o =>
        drop m.length
        return .operation o a (← level fuel written 5)
      | none => return a
    | 5 =>
      if (← beginsOperand) then
        levelAfter fuel written k (.operation .join a (← level fuel written 6))
      else return a
    | 6 =>
      if m = "+" ∨ m = "-" then
        drop 1
        let o := if m = "+" then Operator.add else .subtract
        levelAfter fuel written k (.operation o a (← level fuel written 7))
      else return a
    | _ =>
      if m = "*" ∨ m = "/" ∨ m = "%" then
        drop 1
        let o := if m = "*" then Operator.multiply else if m = "/" then .divide else .remainder
        levelAfter fuel written k (.operation o a (← level fuel written 8))
      else return a

/-- An operand with signs in front. -/
def unary : Nat → Bool → Reading Expression
  | 0, _ => flaw "too deep"
  | fuel + 1, written => do
    match ← mark? with
    | some "!" =>
      drop 1
      return .not (← unary fuel written)
    | some "-" =>
      drop 1
      return .negate (← unary fuel written)
    | some "+" =>
      drop 1
      return .plus (← unary fuel written)
    | _ =>
      let a ← counted fuel
      if ← accept "^" then
        return .operation .power a (← unary fuel written)
      else return a

/-- An operand that may be counted up or down. -/
def counted : Nat → Reading Expression
  | 0 => flaw "too deep"
  | fuel + 1 => do
    match ← mark? with
    | some "++" =>
      drop 2
      return .count true true (← operand fuel)
    | some "--" =>
      drop 2
      return .count false true (← operand fuel)
    | _ =>
      let a ← operand fuel
      if isPlace a then
        if ← accept "++" then return .count true false a
        else if ← accept "--" then return .count false false a
        else return a
      else return a

/-- An operand. -/
def operand : Nat → Reading Expression
  | 0 => flaw "too deep"
  | fuel + 1 => do
    let s ← ahead
    match s with
    | '$' :: _ =>
      drop 1
      match ← mark? with
      | some "++" =>
        drop 2
        return .field (.count true true (← operand fuel))
      | some "--" =>
        drop 2
        return .field (.count false true (← operand fuel))
      | some "-" =>
        drop 1
        return .field (.negate (← operand fuel))
      | _ => return .field (← operand fuel)
    | '"' :: r =>
      match quotedText (r.length + 1) r with
      | some (t, r') =>
        drop (s.length - r'.length)
        return .text (String.ofList t)
      | none => flaw ("runaway string constant " ++ String.ofList (s.takeWhile (· ≠ '\n')) ++ " ...")
    | '/' :: r =>
      match slashedText false r with
      | some (t, r') =>
        drop (s.length - r'.length)
        match Regex.ofText true (String.ofList t) with
        | .ok x => return .regex x
        | .error _ =>
          flaw ("regular expression compile failed (missing operand)\n" ++ String.ofList t)
      | none =>
        flaw ("runaway regular expression " ++ String.ofList (s.takeWhile (· ≠ '\n')) ++ " ...")
    | '(' :: _ =>
      drop 1
      let es ← list fuel ")"
      match es with
      | [e] =>
        -- A bracket is no place, and is not joined to an operator outside of it.
        return if isPlace e then .row [e] else e
      | [] => unexpected
      | es => return .row es
    | _ =>
      let digits := numberSpan s
      if digits ≠ [] then
        drop digits.length
        return .number (String.ofList digits)
      else
        let name ← nameAhead
        if name = "" then unexpected
        else if name = "getline" then
          drop name.length
          let place ← if ← beginsPlace then some <$> operand fuel else pure none
          if ← accept "<" then return .next place (some (← counted fuel))
          else return .next place none
        else if keywords.contains name then unexpected
        else
          drop name.length
          let r := (← get).rest
          if ownFunctions.contains name then
            if ← accept "(" then return .call name (← list fuel ")")
            else if name = "length" then return .call name []
            else unexpected
          else
            match r with
            | '(' :: _ =>
              drop 1
              return .call name (← list fuel ")")
            | _ =>
              if ← accept "[" then return .element name (← list fuel "]")
              else return .name name

/-- Does a place begin here? -/
def beginsPlace : Reading Bool := do
  match ← ahead with
  | '$' :: _ => return true
  | _ =>
    let name ← nameAhead
    return name != "" && !keywords.contains name && !ownFunctions.contains name

/-- Expressions with commas between them, up to a closing mark. -/
def list : Nat → String → Reading (List Expression)
  | 0, _ => flaw "too deep"
  | fuel + 1, closing => do
    skipLines
    if ← accept closing then return []
    else
      let e ← expression fuel false
      skipLines
      if ← accept "," then return e :: (← list fuel closing)
      else
        expect closing
        return [e]

end

/-! ## Statements -/

/-- Is the statement over? -/
def atEnd : Reading Bool := do
  match ← ahead with
  | [] => return true
  | c :: _ => return c == '\n' || c == ';' || c == '\x7d'

/-- Takes the end of a statement. -/
def finishStatement : Reading Unit := do
  if !(← atEnd) then unexpected
  match ← ahead with
  | '\x7d' :: _ => return
  | _ => skipEnds

/-- Written expressions up to the end of the statement or to the name of a file. -/
def written : Nat → Nat → Reading (List Expression)
  | 0, _ => flaw "too deep"
  | fuel + 1, depth => do
    let e ← expression depth true
    if ← accept "," then
      skipLines
      return e :: (← written fuel depth)
    else return [e]

/-- What is written, and where. -/
def writing (fuel : Nat) : Reading (List Expression × Goal) := do
  let m ← mark?
  let es ← if (← atEnd) || m == some ">" || m == some ">>" then pure [] else written fuel fuel
  let es := match es with
    | [.row es] => es
    | es => es
  if ← accept ">>" then return (es, .file true (← expression fuel true))
  else if ← accept ">" then return (es, .file false (← expression fuel true))
  else return (es, .output)

/-- The condition of a statement, in its brackets. -/
def condition (fuel : Nat) : Reading Expression := do
  expect "("
  let e ← expression fuel false
  skipLines
  expect ")"
  skipLines
  return e

/-- A value where the statement does not end. -/
def someValue? (fuel : Nat) : Reading (Option Expression) := do
  if ← atEnd then return none else return some (← expression fuel false)

/-- The name of a table in a loop over its elements: `(name in table)`. -/
def elementLoop? : Reading (Option (String × String)) := do
  let before ← get
  let found ← do
    if !(← accept "(") then pure none
    else
      let name ← nameAhead
      drop name.length
      if name = "" || !(← acceptWord "in") then pure none
      else
        let table ← nameAhead
        drop table.length
        if table = "" || !(← accept ")") then pure none else pure (some (name, table))
  if found.isNone then set before
  return found

mutual

/-- A statement with its end. -/
def statement : Nat → Reading Statement
  | 0 => flaw "too deep"
  | fuel + 1 => do
    skipLines
    if ← accept "\x7b" then
      let ss ← statements fuel
      return .block ss
    if ← accept ";" then return .nothing
    match ← nameAhead with
    | "if" =>
      drop 2
      let c ← condition fuel
      let yes ← statement fuel
      let before ← get
      skipEnds
      if ← acceptWord "else" then return .choose c yes (← statement fuel)
      else
        set before
        return .choose c yes .nothing
    | "while" =>
      drop 5
      let c ← condition fuel
      return .cycle (some c) .nothing (← statement fuel)
    | "do" =>
      drop 2
      let body ← statement fuel
      skipEnds
      if !(← acceptWord "while") then unexpected
      let c ← condition fuel
      return .again body c
    | "for" =>
      drop 3
      match ← elementLoop? with
      | some (name, table) =>
        skipLines
        return .each name table (← statement fuel)
      | none =>
        expect "("
        let first ← part fuel
        expect ";"
        skipLines
        let c ← someValue? fuel
        expect ";"
        skipLines
        let step ← if (← mark?) = some ")" then pure .nothing else part fuel
        expect ")"
        skipLines
        let body ← statement fuel
        return .block [first, .cycle c step body]
    | _ =>
      let s ← part fuel
      finishStatement
      return s

/-- A statement without parts, and without its end. -/
def part : Nat → Reading Statement
  | 0 => flaw "too deep"
  | fuel + 1 => do
    match ← nameAhead with
    | "print" =>
      drop 5
      let (es, goal) ← writing fuel
      return .print es goal
    | "printf" =>
      drop 6
      let (es, goal) ← writing fuel
      return .printFormat es goal
    | "next" =>
      drop 4
      return .next
    | "break" =>
      drop 5
      return .leave
    | "continue" =>
      drop 8
      return .resume
    | "exit" =>
      drop 4
      return .exit (← someValue? fuel)
    | "return" =>
      drop 6
      return .back (← someValue? fuel)
    | "delete" =>
      drop 6
      let table ← nameAhead
      drop table.length
      if ← accept "[" then return .delete table (some (← list fuel "]"))
      else return .delete table none
    | _ => if ← atEnd then return .nothing else return .value (← expression fuel false)

/-- Statements up to a closing brace. -/
def statements : Nat → Reading (List Statement)
  | 0 => flaw "too deep"
  | fuel + 1 => do
    skipEnds
    if ← accept "\x7d" then return []
    else if (← ahead) = [] then
      modify fun c => { c with line := c.line + 1 }
      flaw "missing \x7d near end of file"
    else
      let s ← statement fuel
      return s :: (← statements fuel)

end

/-! ## Programs -/

/-- The names of parameters, up to the closing bracket. -/
def parameters : Nat → Reading (List String)
  | 0 => flaw "too deep"
  | fuel + 1 => do
    skipLines
    if ← accept ")" then return []
    else
      let name ← nameAhead
      if name = "" then unexpected
      drop name.length
      skipLines
      let _ ← accept ","
      return name :: (← parameters fuel)

/-- The body of a rule; without one, the record is written. -/
def body (fuel : Nat) : Reading Statement := do
  if ← accept "\x7b" then return .block (← statements fuel)
  else return .print [] .output

/-- The rules and functions of a program. -/
def items : Nat → Nat → Reading Program
  | 0, _ => flaw "too deep"
  | fuel + 1, depth => do
    skipEnds
    if (← ahead) = [] then return ⟨[], []⟩
    let name ← nameAhead
    if name = "function" ∨ name = "func" then
      drop name.length
      let own ← nameAhead
      drop own.length
      expect "("
      let ps ← parameters depth
      skipLines
      expect "\x7b"
      let ss ← statements depth
      let p ← items fuel depth
      return { p with functions := ⟨own, ps, .block ss⟩ :: p.functions }
    else
      let pattern ←
        if name = "BEGIN" then do
          drop 5
          skipLines
          if (← mark?) ≠ some "\x7b" then unexpected
          pure Pattern.start
        else if name = "END" then do
          drop 3
          skipLines
          if (← mark?) ≠ some "\x7b" then unexpected
          pure .finish
        else if (← mark?) = some "\x7b" then pure .always
        else do
          let first ← expression depth false
          if ← accept "," then
            skipLines
            pure (.between first (← expression depth false))
          else pure (.holds first)
      let b ← body depth
      let p ← items fuel depth
      return { p with rules := ⟨pattern, b⟩ :: p.rules }

/-- The program that a text is. -/
def Program.ofText (s : String) : Except String Program := do
  let cs := s.toList
  let (p, _) ← items (cs.length + 2) (24 * (cs.length + 4)) ⟨cs, 1⟩
  return p

end NetPlot.Emulation.Tool.Record
