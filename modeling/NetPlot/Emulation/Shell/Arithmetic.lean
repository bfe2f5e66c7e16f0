/-
  Expressions of whole numbers with 64 bits.

  1. **Data** — an `Expression` is built from numbers and names by the operators of C.  Those that
     step a name, and powers, are only in the broad form.

  2. **Program** — `Expression.ofText` reads an expression.  `evaluate` gives its value and the
     names that got values on the way; of `&&`, `||` and `?:` only what is needed is evaluated.
-/
import NetPlot.Emulation.Shell.Source
import NetPlot.Text.Numeral

namespace NetPlot.Emulation.Shell

open NetPlot.Text

/-- An operator on two numbers. -/
inductive Operator where
  | or
  | xor
  | and
  | equal
  | unequal
  | less
  | lessEqual
  | greater
  | greaterEqual
  | shiftLeft
  | shiftRight
  | add
  | subtract
  | multiply
  | divide
  | remainder
  | power
  deriving DecidableEq, Repr

/-- An operator on one number. -/
inductive Sign where
  | plus
  | minus
  | not
  | complement
  deriving DecidableEq, Repr

/-- An expression. -/
inductive Expression where
  | number (n : Int)
  | name (s : String)
  | sign (op : Sign) (a : Expression)
  | join (op : Operator) (a b : Expression)
  | either (a b : Expression)
  | both (a b : Expression)
  | choose (a b c : Expression)
  | assign (s : String) (op : Option Operator) (a : Expression)
  /-- A name that is counted up or down; the value is the one before or after that. -/
  | count (up before : Bool) (s : String)
  deriving Repr

/-! ## Numbers -/

/-- A number cut to 64 bits. -/
def wrap (n : Int) : Int := Int.bmod n 0x10000000000000000

/-- A number moved to the nearest one with 64 bits. -/
def clamp (n : Int) : Int := max (-0x8000000000000000) (min n 0x7fffffffffffffff)

/-- The number at the front of a text, in base 16 after `0x`, in base 8 after `0`. -/
def frontNumber (s : List Char) : Nat × List Char :=
  match s with
  | '0' :: 'x' :: c :: r =>
    if isDigitIn 16 c then
      let (ds, r) := splitRun (isDigitIn 16) (c :: r)
      (numeral 16 ds, r)
    else (0, 'x' :: c :: r)
  | '0' :: r =>
    let (ds, r) := splitRun (isDigitIn 8) r
    (numeral 8 ds, r)
  | s =>
    let (ds, r) := splitRun Char.isDigit s
    (numeral 10 ds, r)

/-- The number that a text is, with blanks around it. -/
def numberOf? (s : String) : Option Int :=
  let blank (c : Char) := inSpace c
  let s := s.toList.dropWhile blank
  let (negative, s) := match s with
    | '-' :: r => (true, r)
    | '+' :: r => (false, r)
    | s => (false, s)
  if (s.head?.map Char.isDigit).getD false then
    let (n, r) := frontNumber s
    if r.all blank then some (clamp (if negative then -(n : Int) else n)) else none
  else none
where
  /-- White space of any kind. -/
  inSpace (c : Char) : Bool := c == ' ' || ('\t' ≤ c && c ≤ '\r')

/-! ## Reading -/

/-- Operators from the loosest to the tightest. -/
def levels : List (List (String × Operator)) :=
  [[("|", .or)], [("^", .xor)], [("&", .and)], [("==", .equal), ("!=", .unequal)],
   [("<=", .lessEqual), (">=", .greaterEqual), ("<", .less), (">", .greater)],
   [("<<", .shiftLeft), (">>", .shiftRight)], [("+", .add), ("-", .subtract)],
   [("*", .multiply), ("/", .divide), ("%", .remainder)], [("**", .power)]]

/-- Operators that also assign. -/
def assigners : List (String × Option Operator) :=
  [("=", none), ("*=", some .multiply), ("/=", some .divide), ("%=", some .remainder),
   ("+=", some .add), ("-=", some .subtract), ("<<=", some .shiftLeft), (">>=", some .shiftRight),
   ("&=", some .and), ("^=", some .xor), ("|=", some .or)]

/-- All marks, longer ones before their beginnings. -/
def marks : List String :=
  ["<<=", ">>=", "<<", ">>", "<=", ">=", "==", "!=", "&&", "||", "*=", "/=", "%=", "+=", "-=",
   "&=", "^=", "|=", "<", ">", "=", "!", "&", "|", "*", "/", "%", "+", "-", "^", "~", "?", ":",
   "(", ")"]

/-- The marks of the broad form alone. -/
def broadMarks : List String := ["++", "--", "**"]

/-- A part of the text of an expression. -/
inductive Lexeme where
  | number (n : Int)
  | name (s : String)
  | mark (s : String)
  /-- A character that begins nothing. -/
  | stray
  deriving DecidableEq, Repr

/-- The parts of a text. -/
def lexemes (dialect : Dialect) : Nat → List Char → List Lexeme
  | 0, _ => []
  | _, [] => []
  | fuel + 1, c :: s =>
    let known := if dialect = .broad then broadMarks ++ marks else marks
    if c = ' ' ∨ c = '\t' ∨ c = '\n' then lexemes dialect fuel s
    else if c.isDigit then
      let (n, r) := frontNumber (c :: s)
      .number (clamp n) :: lexemes dialect fuel r
    else if isNameStart c then
      let (cs, r) := splitRun isNameChar (c :: s)
      .name (String.ofList cs) :: lexemes dialect fuel r
    else
      match known.find? fun m => (afterMark? m.toList (c :: s)).isSome with
      | some m => .mark m :: lexemes dialect fuel ((c :: s).drop m.length)
      | none => [.stray]

mutual

/-- An expression, and the parts after it. -/
def assignment : Nat → List Lexeme → Except String (Expression × List Lexeme)
  | 0, _ => .error "too deep"
  | fuel + 1, ts =>
    match ts with
    | .name s :: .mark m :: r =>
      match assigners.lookup m with
      | some op => do
        let (a, r) ← assignment fuel r
        return (.assign s op a, r)
      | none => condition fuel ts
    | ts => condition fuel ts

/-- A choice between two expressions, or one. -/
def condition : Nat → List Lexeme → Except String (Expression × List Lexeme)
  | 0, _ => .error "too deep"
  | fuel + 1, ts => do
    let (a, r) ← disjunction fuel ts
    match r with
    | .mark "?" :: r =>
      let (b, r) ← assignment fuel r
      match r with
      | .mark ":" :: r =>
        let (c, r) ← condition fuel r
        return (.choose a b c, r)
      | _ => .error "expecting ':'"
    | r => return (a, r)

/-- Expressions joined by `||`. -/
def disjunction : Nat → List Lexeme → Except String (Expression × List Lexeme)
  | 0, _ => .error "too deep"
  | fuel + 1, ts => do
    let (a, r) ← conjunction fuel ts
    match r with
    | .mark "||" :: r =>
      let (b, r) ← disjunction fuel r
      return (.either a b, r)
    | r => return (a, r)

/-- Expressions joined by `&&`. -/
def conjunction : Nat → List Lexeme → Except String (Expression × List Lexeme)
  | 0, _ => .error "too deep"
  | fuel + 1, ts => do
    let (a, r) ← joins fuel levels ts
    match r with
    | .mark "&&" :: r =>
      let (b, r) ← conjunction fuel r
      return (.both a b, r)
    | r => return (a, r)

/-- Expressions joined by the operators of some levels. -/
def joins : Nat → List (List (String × Operator)) → List Lexeme →
    Except String (Expression × List Lexeme)
  | 0, _, _ => .error "too deep"
  | fuel + 1, [], ts => primary fuel ts
  | fuel + 1, level :: tighter, ts => do
    let (a, r) ← joins fuel tighter ts
    joinsAfter fuel level tighter a r

/-- What follows the first of several expressions of one level. -/
def joinsAfter : Nat → List (String × Operator) → List (List (String × Operator)) → Expression →
    List Lexeme → Except String (Expression × List Lexeme)
  | 0, _, _, _, _ => .error "too deep"
  | fuel + 1, level, tighter, a, ts =>
    match ts with
    | .mark m :: r =>
      match level.lookup m with
      | some op => do
        let (b, r) ← joins fuel tighter r
        joinsAfter fuel level tighter (.join op a b) r
      | none => return (a, ts)
    | ts => return (a, ts)

/-- A number, a name, a bracket, or one of them with a sign. -/
def primary : Nat → List Lexeme → Except String (Expression × List Lexeme)
  | 0, _ => .error "too deep"
  | fuel + 1, ts =>
    match ts with
    | .number n :: r => return (.number n, r)
    | .name s :: .mark "++" :: r => return (.count true false s, r)
    | .name s :: .mark "--" :: r => return (.count false false s, r)
    | .mark "++" :: .name s :: r => return (.count true true s, r)
    | .mark "--" :: .name s :: r => return (.count false true s, r)
    | .name s :: r => return (.name s, r)
    | .mark "(" :: r => do
      let (a, r) ← assignment fuel r
      match r with
      | .mark ")" :: r => return (a, r)
      | _ => .error "expecting ')'"
    | .mark "+" :: r => do
      let (a, r) ← primary fuel r
      return (.sign .plus a, r)
    | .mark "-" :: r => do
      let (a, r) ← primary fuel r
      return (.sign .minus a, r)
    | .mark "!" :: r => do
      let (a, r) ← primary fuel r
      return (.sign .not a, r)
    | .mark "~" :: r => do
      let (a, r) ← primary fuel r
      return (.sign .complement a, r)
    | _ => .error "expecting primary"

end

/-- The expression that a text is. -/
def Expression.ofText (dialect : Dialect) (s : String) : Except String Expression := do
  let ts := lexemes dialect (s.length + 1) s.toList
  let (a, r) ← assignment (16 * (ts.length + 2)) ts
  if r.isEmpty then return a else .error "expecting EOF"

/-! ## Values -/

/-- Why an expression has no value. -/
inductive ExpressionFault where
  /-- A fault of the expression itself. -/
  | expression (message : String)
  /-- A name stands for something else than a number. -/
  | value (text : String)
  deriving DecidableEq, Repr

/-- One for what holds. -/
def truth (b : Bool) : Int := if b then 1 else 0

/-- The value of an operator. -/
def Operator.apply (op : Operator) (a b : Int) : Except ExpressionFault Int :=
  let bits (f : BitVec 64 → BitVec 64 → BitVec 64) : Int :=
    (f (BitVec.ofInt 64 a) (BitVec.ofInt 64 b)).toInt
  match op with
  | or => .ok (bits (· ||| ·))
  | xor => .ok (bits (· ^^^ ·))
  | and => .ok (bits (· &&& ·))
  | equal => .ok (truth (a == b))
  | unequal => .ok (truth (a != b))
  | less => .ok (truth (a < b))
  | lessEqual => .ok (truth (a ≤ b))
  | greater => .ok (truth (b < a))
  | greaterEqual => .ok (truth (b ≤ a))
  | shiftLeft => .ok (wrap (a * Int.pow 2 (b % 64).toNat))
  | shiftRight => .ok (Int.fdiv a (Int.pow 2 (b % 64).toNat))
  | add => .ok (wrap (a + b))
  | subtract => .ok (wrap (a - b))
  | multiply => .ok (wrap (a * b))
  | divide => if b = 0 then .error (.expression "division by zero") else .ok (wrap (a.tdiv b))
  | remainder => if b = 0 then .error (.expression "division by zero") else .ok (a.tmod b)
  | power =>
    if b < 0 then .error (.expression "exponent less than 0") else .ok (wrap (Int.pow a b.toNat))

/-- The value of a sign. -/
def Sign.apply : Sign → Int → Int
  | plus, a => a
  | minus, a => wrap (-a)
  | not, a => truth (a == 0)
  | complement, a => -a - 1

/-- The values of names: those that were assigned on the way, and those from before. -/
structure Bindings where
  before : String → Option String
  assigned : List (String × Int)

/-- The number that a name stands for; nothing stands for zero. -/
def Bindings.number (b : Bindings) (name : String) : Except ExpressionFault Int :=
  match b.assigned.lookup name with
  | some n => .ok n
  | none =>
    match b.before name with
    | none => .ok 0
    | some "" => .ok 0
    | some s =>
      match numberOf? s with
      | some n => .ok n
      | none => .error (.value s)

/-- The value of an expression, and the names with their new values. -/
def Expression.evaluate (e : Expression) (b : Bindings) : Except ExpressionFault (Int × Bindings) :=
  match e with
  | number n => .ok (n, b)
  | name s => (b.number s).map (·, b)
  | sign op a => do
    let (x, b) ← a.evaluate b
    return (op.apply x, b)
  | join op a c => do
    let (x, b) ← a.evaluate b
    let (y, b) ← c.evaluate b
    return (← op.apply x y, b)
  | either a c => do
    let (x, b) ← a.evaluate b
    if x ≠ 0 then return (1, b)
    let (y, b) ← c.evaluate b
    return (truth (y != 0), b)
  | both a c => do
    let (x, b) ← a.evaluate b
    if x = 0 then return (0, b)
    let (y, b) ← c.evaluate b
    return (truth (y != 0), b)
  | choose a c d => do
    let (x, b) ← a.evaluate b
    if x ≠ 0 then c.evaluate b else d.evaluate b
  | assign s none a => do
    let (x, b) ← a.evaluate b
    return (x, { b with assigned := (s, x) :: b.assigned })
  | count up before s => do
    let x ← b.number s
    let y := wrap (if up then x + 1 else x - 1)
    return (if before then y else x, { b with assigned := (s, y) :: b.assigned })
  | assign s (some op) a => do
    let (y, b) ← a.evaluate b
    let x ← op.apply (← b.number s) y
    return (x, { b with assigned := (s, x) :: b.assigned })

end NetPlot.Emulation.Shell
