/-
  JSON values and their indented text.

  A container is written over several lines, two spaces deeper than what it stands in; an empty
  one is written `\x7b\x7d` or `[]`.  Strings escape quotes, backslashes and control characters
  and nothing else.
-/
import NetPlot.Text.Numeral

namespace NetPlot

open NetPlot.Text

/-- A JSON value; the fields of an object keep their order. -/
inductive Json where
  | null
  | bool (b : Bool)
  | number (n : Nat)
  | string (s : String)
  | array (items : List Json)
  | object (fields : List (String × Json))

namespace Json

/-- How a character is written inside a string. -/
def escape (c : Char) : List Char :=
  match c with
  | '"' => ['\\', '"']
  | '\\' => ['\\', '\\']
  | '\n' => ['\\', 'n']
  | '\r' => ['\\', 'r']
  | '\t' => ['\\', 't']
  | '\x08' => ['\\', 'b']
  | '\x0c' => ['\\', 'f']
  | c => if c.toNat < 0x20 then '\\' :: 'u' :: hexPadded 4 c.toNat else [c]

/-- A string in double quotes. -/
def quote (s : String) : String := String.ofList ('"' :: s.toList.flatMap escape ++ ['"'])

/-- A new line at a level. -/
def newline (level : Nat) : String := String.ofList ('\n' :: List.replicate (2 * level) ' ')

mutual

/-- The text of a value at a level. -/
def pretty (level : Nat) : Json → String
  | null => "null"
  | bool b => if b then "true" else "false"
  | number n => n.repr
  | string s => quote s
  | array [] => "[]"
  | array (x :: xs) => "[" ++ prettyItems level (x :: xs) ++ newline level ++ "]"
  | object [] => "\x7b\x7d"
  | object (f :: fs) => "\x7b" ++ prettyFields level (f :: fs) ++ newline level ++ "\x7d"

/-- The items of an array, each on lines of its own. -/
def prettyItems (level : Nat) : List Json → String
  | [] => ""
  | [x] => newline (level + 1) ++ pretty (level + 1) x
  | x :: xs => newline (level + 1) ++ pretty (level + 1) x ++ "," ++ prettyItems level xs

/-- The fields of an object, each on lines of its own. -/
def prettyFields (level : Nat) : List (String × Json) → String
  | [] => ""
  | [(k, x)] => newline (level + 1) ++ quote k ++ ": " ++ pretty (level + 1) x
  | (k, x) :: fs =>
    newline (level + 1) ++ quote k ++ ": " ++ pretty (level + 1) x ++ "," ++ prettyFields level fs

end

end Json

end NetPlot
