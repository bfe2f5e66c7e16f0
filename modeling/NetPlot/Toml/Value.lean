/-
  TOML values and their text.

  1. **Data** — strings, 64-bit integers, floating numbers, booleans, moments in time, arrays and
     tables.

  2. **Text** — `Value.display` writes a value on its own: arrays `[1, 2]`, tables
     `\x7b a = 1 \x7d`, floating numbers by the fewest digits that read back and without an
     exponent, and strings in the plainest quotes that hold them (`Quotes.choose`).
-/
import NetPlot.Decimal.Shortest
import NetPlot.Text.Cut
import NetPlot.Text.Numeral

namespace NetPlot.Toml

open NetPlot.Text NetPlot.Decimal

/-! ## Data -/

/-- A floating number. -/
inductive Floating where
  | finite (negative : Bool) (x : Scaled)
  | infinite (negative : Bool)
  | nan
  deriving DecidableEq, Repr

/-- A day of the calendar. -/
structure Date where
  year : Nat
  month : Nat
  day : Nat
  deriving DecidableEq, Repr

/-- A time of day, to the nanosecond. -/
structure Time where
  hour : Nat
  minute : Nat
  second : Nat
  nanosecond : Nat
  deriving DecidableEq, Repr

/-- How far local time is from universal time. -/
inductive Offset where
  | universal
  | minutes (n : Int)
  deriving DecidableEq, Repr

/-- A date, a time, or both; with both there may be an offset. -/
structure Moment where
  date : Option Date
  time : Option Time
  offset : Option Offset
  deriving DecidableEq, Repr

/-- A value. -/
inductive Value where
  | string (s : String)
  | integer (i : Int)
  | floating (x : Floating)
  | boolean (b : Bool)
  | moment (m : Moment)
  | array (items : List Value)
  | table (entries : List (String × Value))
  /-- A number too large for any of them; no finished value has one. -/
  | excess

/-! ## Numbers and moments -/

/-- A minus sign for negative numbers. -/
def sign (negative : Bool) : String := if negative then "-" else ""

/-- The text of a floating number. -/
def Floating.display : Floating → String
  | finite negative x => sign negative ++ positional (shortest x)
  | infinite negative => sign negative ++ "inf"
  | nan => "nan"

/-- A number with zeros in front up to a width. -/
def padded (width n : Nat) : List Char :=
  List.replicate (width - (Nat.toDigits 10 n).length) '0' ++ Nat.toDigits 10 n

/-- Year, month and day. -/
def Date.display (d : Date) : List Char :=
  padded 4 d.year ++ '-' :: padded 2 d.month ++ '-' :: padded 2 d.day

/-- Hours, minutes, seconds, and what is left of the fraction without zeros at its end. -/
def Time.display (t : Time) : List Char :=
  let fraction :=
    if t.nanosecond = 0 then []
    else '.' :: ((padded 9 t.nanosecond).reverse.dropWhile (· == '0')).reverse
  padded 2 t.hour ++ ':' :: padded 2 t.minute ++ ':' :: padded 2 t.second ++ fraction

/-- The difference to universal time. -/
def Offset.display : Offset → List Char
  | universal => ['Z']
  | minutes n =>
    (if n < 0 then '-' else '+') :: padded 2 (n.natAbs / 60) ++ ':' :: padded 2 (n.natAbs % 60)

/-- The parts of a moment, a `T` between date and time. -/
def Moment.display (m : Moment) : String :=
  let date := (m.date.map Date.display).getD []
  let time := (m.time.map Time.display).getD []
  let offset := (m.offset.map Offset.display).getD []
  String.ofList (date ++ (if m.date.isSome && m.time.isSome then ['T'] else []) ++ time ++ offset)

/-! ## Strings -/

/-- The ways to quote a string. -/
inductive Quotes where
  | basic
  | literal
  | multiBasic
  | multiLiteral
  deriving DecidableEq, Repr

/-- A character that can only be written by number or letter. -/
def needsEscape (c : Char) : Bool :=
  (c.toNat < 0x20 && c != '\t' && c != '\n') || c.toNat == 0x7F

/-- Do `n` of the character follow each other somewhere in `s`? -/
def hasRun (c : Char) (n : Nat) (s : List Char) : Bool := (cutAt (List.replicate n c) s).isSome

/-- The plainest quotes: on one line and without escapes if possible, then over several lines,
then with escapes. -/
def Quotes.choose (s : List Char) : Quotes :=
  let escapes := s.any needsEscape
  let backslash := s.contains '\\'
  let newline := s.contains '\n'
  if !escapes && !backslash && !newline && !s.contains '"' then .basic
  else if !escapes && !newline && !s.contains '\'' then .literal
  else if !escapes && !backslash && !hasRun '"' 3 s then .multiBasic
  else if !escapes && !hasRun '\'' 3 s then .multiLiteral
  else if newline then .multiBasic
  else .basic

/-- The escape of a character. -/
def escape (c : Char) : List Char :=
  match c with
  | '\x08' => ['\\', 'b']
  | '\t' => ['\\', 't']
  | '\n' => ['\\', 'n']
  | '\x0c' => ['\\', 'f']
  | '\r' => ['\\', 'r']
  | '"' => ['\\', '"']
  | '\\' => ['\\', '\\']
  | c =>
    if c.toNat < 0x20 ∨ c.toNat = 0x7F then
      '\\' :: 'u' :: (hexPadded 4 c.toNat).map Char.toUpper
    else [c]

/-- The content of a basic string over several lines: line feeds stand as they are, and so do up
to two quotes in a row. -/
def escapeLines (quotes : Nat) : List Char → List Char
  | [] => []
  | '"' :: s => if quotes < 2 then '"' :: escapeLines (quotes + 1) s else '\\' :: '"' :: escapeLines 0 s
  | '\n' :: s => '\n' :: escapeLines 0 s
  | c :: s => escape c ++ escapeLines 0 s

/-- A string in the plainest quotes. -/
def displayString (s : String) : String :=
  let cs := s.toList
  let start := if cs.contains '\n' then ['\n'] else []
  String.ofList <|
    match Quotes.choose cs with
    | .basic => '"' :: cs.flatMap escape ++ ['"']
    | .literal => '\'' :: cs ++ ['\'']
    | .multiBasic => "\"\"\"".toList ++ start ++ escapeLines 0 cs ++ "\"\"\"".toList
    | .multiLiteral => "'''".toList ++ start ++ cs ++ "'''".toList

/-- A character that a key may hold without quotes. -/
def isBareKeyChar (c : Char) : Bool := c.isAlphanum || c == '_' || c == '-'

/-- A key, in quotes on one line where it needs them. -/
def displayKey (k : String) : String :=
  let cs := k.toList
  if cs ≠ [] ∧ cs.all isBareKeyChar then k
  else
    String.ofList <|
      match Quotes.choose cs with
      | .literal => '\'' :: cs ++ ['\'']
      | _ => '"' :: cs.flatMap escape ++ ['"']

/-! ## Values -/

/-- Is the value a table? -/
def Value.isTable : Value → Bool
  | table _ => true
  | _ => false

/-- The group in which a value stands in the text of a table: arrays with tables come after all
that has none, and tables last. -/
def Value.group : Value → Nat
  | table _ => 2
  | array items => if items.any Value.isTable then 1 else 0
  | _ => 0

/-- The members of the first three groups, group by group. -/
def byGroup (xs : List (Nat × String)) : List String :=
  [0, 1, 2].flatMap fun g => (xs.filter (·.1 == g)).map (·.2)

mutual

/-- The text of a value. -/
def Value.display : Value → String
  | .string s => displayString s
  | .integer i => i.repr
  | .floating x => x.display
  | .boolean b => if b then "true" else "false"
  | .moment m => m.display
  | .array items => "[" ++ ", ".intercalate (displayItems items) ++ "]"
  | .table [] => "\x7b\x7d"
  | .table (e :: es) => "\x7b " ++ ", ".intercalate (byGroup (displayEntries (e :: es))) ++ " \x7d"
  | .excess => ""

/-- The texts of the items of an array. -/
def displayItems : List Value → List String
  | [] => []
  | v :: vs => v.display :: displayItems vs

/-- The texts of the entries of a table, with their groups. -/
def displayEntries : List (String × Value) → List (Nat × String)
  | [] => []
  | (k, v) :: es => (v.group, displayKey k ++ " = " ++ v.display) :: displayEntries es

end

end NetPlot.Toml
