/-
  A language for records of fields: what its programs consist of.

  1. **Expressions** — numbers, texts, regular expressions, names, elements of tables, fields, and
     what is made of them by operators, assignments and calls.

  2. **Statements** — what is done with values: writing, choices, loops, and the ways out of them.

  3. **Rules** — a rule has a pattern, which says for which records it is followed, and a body.

  All texts in programs are octets.
-/
import NetPlot.Emulation.Tool.Regex

namespace NetPlot.Emulation.Tool.Record

/-- An operator between two values. -/
inductive Operator where
  | add
  | subtract
  | multiply
  | divide
  | remainder
  | power
  | join
  | less
  | lessOrEqual
  | equal
  | unequal
  | greater
  | greaterOrEqual
  deriving DecidableEq, Repr

/-- An expression. -/
inductive Expression where
  | number (digits : String)
  | text (s : String)
  /-- A regular expression, which is matched with the record where a value is asked for. -/
  | regex (r : Regex)
  | name (n : String)
  | element (table : String) (index : List Expression)
  | field (e : Expression)
  | operation (o : Operator) (a b : Expression)
  /-- A new value for a place, from its old one if there is an operator. -/
  | assign (o : Option Operator) (place value : Expression)
  /-- A place that is counted up or down; the value is the one before or after that. -/
  | count (up before : Bool) (place : Expression)
  | negate (e : Expression)
  | plus (e : Expression)
  | not (e : Expression)
  | both (a b : Expression)
  | either (a b : Expression)
  | choose (condition yes no : Expression)
  | fits (negated : Bool) (a pattern : Expression)
  | member (index : List Expression) (table : String)
  /-- Several values in brackets. -/
  | row (es : List Expression)
  | call (function : String) (arguments : List Expression)
  /-- The next record of the input or of a file, for a place or as the record. -/
  | next (place file : Option Expression)
  deriving Repr

/-- Where a text is written. -/
inductive Goal where
  | output
  | file (atEnd : Bool) (name : Expression)
  deriving Repr

/-- A statement. -/
inductive Statement where
  | value (e : Expression)
  | print (es : List Expression) (goal : Goal)
  | printFormat (es : List Expression) (goal : Goal)
  | choose (condition : Expression) (yes no : Statement)
  /-- A loop with a condition in front; the step follows each run of the body. -/
  | cycle (condition : Option Expression) (step body : Statement)
  /-- A loop with its condition behind. -/
  | again (body : Statement) (condition : Expression)
  | each (name table : String) (body : Statement)
  | block (ss : List Statement)
  | next
  | exit (e : Option Expression)
  | leave
  | resume
  | back (e : Option Expression)
  | delete (table : String) (index : Option (List Expression))
  deriving Repr

/-- A statement that does nothing. -/
def Statement.nothing : Statement := .block []

/-- For which records a rule is followed. -/
inductive Pattern where
  | start
  | finish
  | always
  | holds (e : Expression)
  | between (first last : Expression)
  deriving Repr

/-- A rule. -/
structure Rule where
  pattern : Pattern
  body : Statement
  deriving Repr

/-- A function. -/
structure Function where
  name : String
  parameters : List String
  body : Statement
  deriving Repr

/-- A program. -/
structure Program where
  rules : List Rule
  functions : List Function
  deriving Repr

end NetPlot.Emulation.Tool.Record
