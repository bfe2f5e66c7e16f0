/-
  The text of a script while it is read.

  1. **Data** — a `Source` is what is left of the text and the number of its line.  The lines of
     texts that stand below a command (`here` documents) are cut out of it as soon as their
     marks are read; they count once the line of the command ends.

  2. **Program** — `Reader` is a reader of scripts, which may end with a `Fault`.  The readers here
     deal with single characters, blanks and keywords.
-/
import NetPlot.Emulation.Shell.Syntax
import NetPlot.Text.Cut

namespace NetPlot.Emulation.Shell

open NetPlot.Text

/-- What is left of a script. -/
structure Source where
  rest : List Char
  line : Nat
  /-- Lines that were cut out below the line. -/
  hidden : Nat
  dialect : Dialect
  deriving Repr

/-- Why a script cannot be read, and at which line. -/
structure Fault where
  line : Nat
  message : String
  deriving DecidableEq, Repr

/-- A reader of scripts. -/
abbrev Reader := StateT Source (Except Fault)

/-- Ends reading. -/
def refuse {α : Type} (message : String) : Reader α :=
  fun src => .error ⟨src.line,
    match src.dialect with
    | .plain => "Syntax error: " ++ message
    | .broad => "syntax error: " ++ message⟩

/-- How the broad form begins to complain about the end of a text. -/
def unmatched : String := "unexpected EOF while looking for matching `"

/-- Ends reading where a mark is missing. -/
def refuseWithout {α : Type} (mark message : String) : Reader α :=
  fun src =>
    match src.dialect with
    | .plain => refuse message src
    | .broad => .error ⟨src.line, unmatched ++ mark ++ "'"⟩

/-- Is the script in the broad form? -/
def isBroad : Reader Bool := do
  return (← get).dialect == .broad

/-- What is left after the first character. -/
def Source.tail (src : Source) : Source :=
  match src.rest with
  | [] => src
  | '\n' :: r => { src with rest := r, line := src.line + 1 + src.hidden, hidden := 0 }
  | _ :: r => { src with rest := r }

/-- What is left after a line end that a backslash takes away. -/
def Source.joined (src : Source) : Source :=
  match src.rest with
  | '\\' :: '\n' :: _ => src.tail.tail
  | _ => src

/-- The text that is left, without a joined line end at its front. -/
def ahead : Reader (List Char) := fun src =>
  let src := src.joined.joined.joined
  .ok (src.rest, src)

/-- The next character, if there is one. -/
def peek : Reader (Option Char) := do return (← ahead).head?

/-- Leaves out a number of characters. -/
def skip : Nat → Reader Unit
  | 0 => pure ()
  | n + 1 => do
    let _ ← ahead
    modify Source.tail
    skip n

/-- Takes a mark off the front if it is there. -/
def accept (mark : String) : Reader Bool := do
  if (afterMark? mark.toList (← ahead)).isSome then
    skip mark.length
    return true
  else return false

/-- Takes a run of characters off the front. -/
def run (inClass : Char → Bool) : Reader String := do
  let cs := (← ahead).takeWhile inClass
  skip cs.length
  return String.ofList cs

/-! ## Characters -/

/-- A blank inside a line. -/
def isGap (c : Char) : Bool := c == ' ' || c == '\t'

/-- A character that ends a word. -/
def isBreak (c : Char) : Bool := isGap c || "\n;&|<>()".toList.contains c

/-- A character that may begin a name. -/
def isNameStart (c : Char) : Bool := c.isAlpha || c == '_'

/-- A character of a name. -/
def isNameChar (c : Char) : Bool := c.isAlphanum || c == '_'

/-- A name that stands for a value of the script itself. -/
def isSpecial (c : Char) : Bool := "@*#?-$!".toList.contains c || c.isDigit

/-- Can the text be a name? -/
def isName (s : String) : Bool :=
  match s.toList with
  | [] => false
  | c :: cs => isNameStart c && cs.all isNameChar

/-! ## Blanks and keywords -/

/-- Leaves out blanks, and a comment after them. -/
def skipGaps : Reader Unit := do
  for _ in List.range (← get).rest.length do
    match ← peek with
    | some c => if isGap c then skip 1 else break
    | none => break
  if (← peek) = some '#' then
    let _ ← run (· ≠ '\n')

/-- Leaves out blanks, comments and line ends. -/
def skipLines : Reader Unit := do
  for _ in List.range ((← get).rest.length + 1) do
    skipGaps
    if (← peek) = some '\n' then skip 1 else break

/-- The words that are no commands. -/
def keywords : List String :=
  ["!", "case", "do", "done", "elif", "else", "esac", "fi", "for", "if", "in", "then", "until",
   "while", "\x7b", "\x7d"]

/-- The words that are no commands in the broad form alone. -/
def broadKeywords : List String := ["[[", "function"]

/-- The keyword at the front. -/
def keyword? : Reader (Option String) := do
  let s ← ahead
  let word := String.ofList (s.takeWhile fun c => !isBreak c)
  let isKeyword := keywords.contains word || ((← isBroad) && broadKeywords.contains word)
  return if isKeyword then some word else none

/-- Takes a keyword off the front if it is there. -/
def acceptWord (word : String) : Reader Bool := do
  if (← keyword?) = some word then
    skip word.length
    return true
  else return false

/-- Takes a text off the front if it is there as a word. -/
def acceptText (word : String) : Reader Bool := do
  let s ← ahead
  if String.ofList (s.takeWhile fun c => !isBreak c) = word then
    skip word.length
    return true
  else return false

/-! ## Faults -/

/-- The operators that are no redirections. -/
def operators : List String := ["&&", "||", ";;", "&", "|", ";", "(", ")"]

/-- What is at the front, in the words of a complaint of the plain form. -/
def token : Reader String := do
  skipGaps
  let s ← ahead
  match s with
  | [] => return "end of file"
  | '\n' :: _ => return "newline"
  | c :: _ =>
    match operators.find? fun o => (afterMark? o.toList s).isSome with
    | some o => return "\"" ++ o ++ "\""
    | none =>
      if c = '<' ∨ c = '>' then return "redirection"
      else
        match ← keyword? with
        | some w => return "\"" ++ w ++ "\""
        | none => return "word"

/-- Leaves out an operator or a line end at the front. -/
def skipToken : Reader Unit := do
  let s ← ahead
  match operators.find? fun o => (afterMark? o.toList s).isSome with
  | some o => skip o.length
  | none => if s.head? = some '\n' then skip 1

/-- How the broad form complains about what is at the front. -/
def strangeToken : String := "syntax error near unexpected token `"

/-- Complains about what is at the front, in the words of the broad form. -/
def strange {α : Type} : Reader α := do
  skipGaps
  let s ← ahead
  let line := (← get).line
  let about (t : String) : Reader α := fun _ => .error ⟨line, strangeToken ++ t ++ "'"⟩
  match s with
  | [] => refuse "unexpected end of file"
  | '\n' :: _ => about "newline"
  | _ =>
    match (operators ++ [">>", "<<", "<", ">"]).find? fun o => (afterMark? o.toList s).isSome with
    | some o => about o
    | none => about (String.ofList (s.takeWhile fun c => !isBreak c))

/-- Complains about what is at the front. -/
def unexpected {α : Type} (expected : Option String) : Reader α := do
  if ← isBroad then strange
  let t ← token
  if t = "newline" then skip 1
  refuse (t ++ " unexpected"
    ++ match expected with
      | some e => " (expecting " ++ e ++ ")"
      | none => "")

end NetPlot.Emulation.Shell
