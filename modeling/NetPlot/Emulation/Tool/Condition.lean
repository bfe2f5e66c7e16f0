/-
  Conditions on texts, numbers and files, as `test` reads them.

  A condition is a row of words.  `conditionOf` reads it by the grammar of `!`, `-a`, `-o` and round
  brackets, after the special rules for three and four words.
-/
import NetPlot.Emulation.Octets
import NetPlot.Host.Files
import NetPlot.Text.Numeral

namespace NetPlot.Emulation.Tool

open NetPlot.Text

/-- What a word of a condition is. -/
inductive Clause where
  | nothing
  | operand
  | unary
  | binary
  | or
  | and
  | not
  | opening
  | closing
  deriving DecidableEq, Repr

/-- Operators on one word. -/
def unaryNames : List String :=
  ["-r", "-w", "-x", "-e", "-f", "-d", "-c", "-b", "-p", "-u", "-g", "-k", "-s", "-t", "-z", "-n",
   "-h", "-O", "-G", "-L", "-S"]

/-- Operators on two words. -/
def binaryNames : List String :=
  ["=", "!=", "<", ">", "-eq", "-ne", "-ge", "-gt", "-le", "-lt", "-nt", "-ot", "-ef"]

/-- What a word is by itself. -/
def clauseNamed (s : String) : Clause :=
  if unaryNames.contains s then .unary
  else if binaryNames.contains s then .binary
  else
    match s with
    | "-o" => .or
    | "-a" => .and
    | "!" => .not
    | "(" => .opening
    | ")" => .closing
    | _ => .operand

/-- What the first word is. -/
def clauseAt : List String → Clause
  | [] => .nothing
  | s :: r =>
    match clauseNamed s with
    | .unary =>
      match r with
      | [] => .operand
      | [_] => .unary
      | t :: _ => if clauseNamed t = .binary then .operand else .unary
    | .opening => if r.isEmpty then .operand else .opening
    | c => c

/-- What is at a path. -/
def placeAt (fs : Files) (name : String) : Option Entry :=
  match fs.locate ⟨lossyText name⟩ with
  | .ok l => fs.find? l
  | .error _ => none

/-- Names of streams, which are pipes. -/
def streamNames : List String := ["/dev/stdin", "/dev/stderr"]

/-- The value of an operator on one word. -/
def unaryHolds (fs : Files) (op s : String) : Bool :=
  match op with
  | "-z" => s.isEmpty
  | "-n" => !s.isEmpty
  | _ =>
    match placeAt fs s with
    | none => streamNames.contains s && ["-e", "-p", "-r", "-w"].contains op
    | some .directory => ["-r", "-w", "-x", "-e", "-d", "-s", "-O", "-G"].contains op
    | some (.file content executable) =>
      (["-r", "-w", "-e", "-f", "-O", "-G"].contains op) || (op == "-x" && executable)
        || (op == "-s" && content.size != 0)
    | some .void => ["-r", "-w", "-e", "-c", "-O", "-G"].contains op

/-- The number that a word is, with blanks around it. -/
def conditionNumber (s : String) : Except String Int :=
  let blank (c : Char) := c == ' ' || ('\t' ≤ c && c ≤ '\r')
  let (negative, r) := match s.toList.dropWhile blank with
    | '-' :: r => (true, r)
    | '+' :: r => (false, r)
    | r => (false, r)
  let (ds, r) := splitRun Char.isDigit r
  if ds = [] ∨ !r.all blank then .error ("Illegal number: " ++ s)
  else .ok (if negative then -(numeral 10 ds : Int) else numeral 10 ds)

/-- The value of an operator on two words. -/
def binaryHolds (fs : Files) (op a b : String) : Except String Bool :=
  let compared (f : Int → Int → Bool) : Except String Bool := do
    return f (← conditionNumber a) (← conditionNumber b)
  match op with
  | "=" => .ok (a == b)
  | "!=" => .ok (a != b)
  | "<" => .ok (a < b)
  | ">" => .ok (b < a)
  | "-eq" => compared (· == ·)
  | "-ne" => compared (· != ·)
  | "-ge" => compared (fun x y => y ≤ x)
  | "-gt" => compared (fun x y => y < x)
  | "-le" => compared (fun x y => x ≤ y)
  | "-lt" => compared (fun x y => x < y)
  | "-nt" => .ok ((placeAt fs a).isSome && (placeAt fs b).isNone)
  | "-ot" => .ok ((placeAt fs b).isSome && (placeAt fs a).isNone)
  | _ => .ok (match fs.locate ⟨lossyText a⟩, fs.locate ⟨lossyText b⟩ with
      | .ok k, .ok l => k == l && (fs.find? k).isSome
      | _, _ => false)

/-- A complaint about a word. -/
def about (word message : String) : String :=
  if word.isEmpty then message else word ++ ": " ++ message

mutual

/-- Conditions joined by `-o`, from the first word on, of which it is known what it is.  The words
left begin with the last one that was used. -/
def orCondition (fs : Files) : Nat → Clause → List String → Except String (Bool × List String)
  | 0, _, _ => .error "too deep"
  | fuel + 1, c, ws => do
    let (a, r) ← andCondition fs fuel c ws
    if clauseAt (r.drop 1) = .or then
      let r := r.drop 2
      let (b, r) ← orCondition fs fuel (clauseAt r) r
      return (a || b, r)
    else return (a, r)

/-- Conditions joined by `-a`. -/
def andCondition (fs : Files) : Nat → Clause → List String → Except String (Bool × List String)
  | 0, _, _ => .error "too deep"
  | fuel + 1, c, ws => do
    let (a, r) ← notCondition fs fuel c ws
    if clauseAt (r.drop 1) = .and then
      let r := r.drop 2
      let (b, r) ← andCondition fs fuel (clauseAt r) r
      return (a && b, r)
    else return (a, r)

/-- A condition with `!` in front or without. -/
def notCondition (fs : Files) : Nat → Clause → List String → Except String (Bool × List String)
  | 0, _, _ => .error "too deep"
  | fuel + 1, c, ws => do
    if c = .not then
      let r := ws.drop 1
      let (a, r) ← notCondition fs fuel (clauseAt r) (if r.isEmpty then ws else r)
      return (!a, r)
    else simpleCondition fs fuel c ws

/-- A condition without joints. -/
def simpleCondition (fs : Files) : Nat → Clause → List String → Except String (Bool × List String)
  | 0, _, _ => .error "too deep"
  | fuel + 1, c, ws => do
    match c, ws with
    | .nothing, ws => return (false, ws)
    | _, [] => return (false, [])
    | .opening, _ :: r =>
      if clauseAt r = .closing then return (false, r)
      let (a, r) ← orCondition fs fuel (clauseAt r) r
      if clauseAt (r.drop 1) = .closing then return (a, r.drop 1)
      else .error "closing paren expected"
    | .unary, op :: r =>
      match r with
      | [] => .error (about op "argument expected")
      | s :: _ => return (unaryHolds fs op s, r)
    | _, a :: r =>
      if clauseAt r = .binary then
        match r with
        | op :: b :: r => return (← binaryHolds fs op a b, b :: r)
        | r => .error (about (r.headD "") "argument expected")
      else return (!a.isEmpty, a :: r)

end

/-- The value of a condition. -/
def conditionOf (fs : Files) (ws : List String) : Except String Bool :=
  let fuel := 4 * ws.length + 8
  let plain (ws : List String) (c : Clause) : Except String Bool := do
    let (a, r) ← orCondition fs fuel c ws
    match r with
    | w :: _ :: _ => .error (about w "unexpected operator")
    | _ => return a
  let bracketed (ws : List String) : Except String Bool :=
    if ws.head? = some "(" ∧ ws.getLast? = some ")" then
      let ws := (ws.drop 1).dropLast
      plain ws (clauseAt ws)
    else if ws.head? = some "!" then plain ws .not
    else plain ws (clauseAt ws)
  match ws with
  | [] => .ok false
  | [_, op, _] => if clauseNamed op = .binary then plain ws .operand else bracketed ws
  | [_, _, _, _] => bracketed ws
  | ws => plain ws (clauseAt ws)

end NetPlot.Emulation.Tool
