/-
  A command language: what scripts consist of.

  1. **Words** — a word is a row of pieces: text, the value of a name, the output of commands, or
     the value of an expression.  Quotes keep a piece from being split and from being a pattern.

  2. **Commands** — a row of words with assignments and redirections, or other commands joined by
     pipes, `&&`, `||` and `;`, chosen, repeated, put in brackets, or given a name.  Where a
     command may be complained about, it has the number of its line.

  All texts in scripts are octets.
-/
namespace NetPlot.Emulation.Shell

/-- The forms of the command language: the broad one has more commands, and other complaints. -/
inductive Dialect where
  | plain
  | broad
  deriving DecidableEq, Repr

/-- Which places a replacement is made at. -/
inductive Spots where
  | first
  | all
  | front
  | back
  deriving DecidableEq, Repr

/-- What is done with the value of a name. -/
inductive Use where
  | plain
  | length
  /-- Another text in place of a missing value; with a colon also of an empty one. -/
  | otherwise (colon : Bool)
  /-- The same, and the name gets the text. -/
  | assign (colon : Bool)
  /-- The end of the script where the value is missing. -/
  | demand (colon : Bool)
  /-- Another text in place of a value that is there. -/
  | instead (colon : Bool)
  /-- The value without what a pattern fits at its front or its back. -/
  | strip (front longest : Bool)
  /-- The value from a place on, for some length. -/
  | portion
  /-- The value with other texts in place of what a pattern fits. -/
  | replace (spots : Spots)
  /-- The value in large or small letters, or its first letter. -/
  | letters (large all : Bool)
  /-- Something that means nothing. -/
  | senseless
  deriving DecidableEq, Repr

/-- How a file is opened. -/
inductive Mode where
  | read
  | write
  /-- Writing also where nothing may be overwritten. -/
  | force
  | append
  | both
  deriving DecidableEq, Repr

mutual

/-- A piece of a word. -/
inductive Piece where
  | text (quoted : Bool) (s : String)
  | value (quoted : Bool) (name : String) (use : Use) (word : List Piece)
  | output (quoted : Bool) (body : Command)
  | number (quoted : Bool) (expression : List Piece)

/-- Where a stream of a command goes to or comes from. -/
inductive Redirection where
  | file (mode : Mode) (stream : Nat) (target : List Piece)
  | duplicate (stream : Nat) (target : List Piece)
  | here (stream : Nat) (body : List Piece)

/-- A condition in double brackets. -/
inductive Condition where
  | word (w : List Piece)
  | unary (op : String) (w : List Piece)
  | binary (op : String) (a b : List Piece)
  | not (c : Condition)
  | both (a b : Condition)
  | either (a b : Condition)

/-- A command. -/
inductive Command where
  | nothing
  | simple (line : Nat) (assignments : List (String × List Piece)) (words : List (List Piece))
      (redirections : List Redirection)
  | pipe (parts : List Command)
  | negate (a : Command)
  | both (a b : Command)
  | either (a b : Command)
  | chain (a b : Command)
  | background (a : Command)
  | choose (condition yes no : Command)
  /-- A loop for as long as its condition holds, or until it does. -/
  | cycle (toHolding : Bool) (condition body : Command)
  | each (line : Nat) (name : String) (words : Option (List (List Piece))) (body : Command)
  | select (line : Nat) (word : List Piece) (arms : List (List (List Piece) × Command))
  | group (line : Nat) (apart : Bool) (body : Command) (redirections : List Redirection)
  | define (name : String) (body : Command)
  | test (line : Nat) (condition : Condition)
  /-- A loop with expressions: a first one, a condition, and a step after each run of the body. -/
  | stepped (line : Nat) (first condition step : List Piece) (body : Command)
  /-- An expression, which succeeds if it is not zero. -/
  | calculate (line : Nat) (expression : List Piece)

end

/-- A row of pieces that expands to words. -/
abbrev Word := List Piece

end NetPlot.Emulation.Shell
