/-
  Regular expressions of tools, in their basic and their extended form.

  1. **Data** — a `Regex` is built from characters, sets and places by sequence, choice and
     repetition.  A `Group` is remembered by its number.

  2. **Reading** — `Regex.ofText?` reads either form.  In the basic one the marks for groups,
     choices and counts stand after a backslash.

  3. **Matching** — `ends` are all ways to fit the front of a text; `search?` finds the first
     place with a fit, and there the longest one.
-/
import NetPlot.Emulation.Shell.Pattern
import NetPlot.Text.Cut
import NetPlot.Text.Numeral

namespace NetPlot.Emulation.Tool

open NetPlot.Text NetPlot.Emulation.Shell

/-- A place in a text that an expression may ask for. -/
inductive Edge where
  | start
  | finish
  | wordStart
  | wordEnd
  | word
  | inside
  deriving DecidableEq, Repr

/-- A regular expression. -/
inductive Regex where
  | empty
  | char (c : Char)
  | any
  | set (negated : Bool) (members : List Member)
  | edge (e : Edge)
  | sequence (a b : Regex)
  | choice (a b : Regex)
  | repeated (least : Nat) (most : Option Nat) (a : Regex)
  | group (number : Nat) (a : Regex)
  | again (number : Nat)
  deriving Repr

/-! ## Reading -/

/-- The members of a set, after its opening bracket and a negation. -/
def setMembers? : Nat → Bool → List Char → Option (List Member × List Char)
  | 0, _, _ => none
  | _, _, [] => none
  | fuel + 1, start, c :: s =>
    if c = ']' ∧ !start then some ([], s)
    else
      match c, s with
      | '[', ':' :: r =>
        match cutAt [':', ']'] r with
        | some (name, r) =>
          (setMembers? fuel false r).map fun (ms, r) => (.named (String.ofList name) :: ms, r)
        | none => none
      | c, '-' :: d :: r =>
        if d = ']' then
          (setMembers? fuel false s).map fun (ms, r) => (.range c c :: ms, r)
        else (setMembers? fuel false r).map fun (ms, r) => (.range c d :: ms, r)
      | c, s => (setMembers? fuel false s).map fun (ms, r) => (.range c c :: ms, r)

/-- A set after its opening bracket. -/
def readSet? (s : List Char) : Option (Regex × List Char) :=
  match s with
  | '^' :: r => (setMembers? (r.length + 1) true r).map fun (ms, r) => (.set true ms, r)
  | s => (setMembers? (s.length + 1) true s).map fun (ms, r) => (.set false ms, r)

/-- The characters of words. -/
def wordMembers : List Member := [.named "alnum", .range '_' '_']

/-- What a letter after a backslash means in both forms. -/
def escapedRegex? : Char → Option Regex
  | 'n' => some (.char '\n')
  | 't' => some (.char '\t')
  | 'r' => some (.char '\r')
  | 'f' => some (.char '\x0c')
  | 'v' => some (.char '\x0b')
  | 'a' => some (.char '\x07')
  | 'w' => some (.set false wordMembers)
  | 'W' => some (.set true wordMembers)
  | 's' => some (.set false [.named "space"])
  | 'S' => some (.set true [.named "space"])
  | 'b' => some (.edge .word)
  | 'B' => some (.edge .inside)
  | '<' => some (.edge .wordStart)
  | '>' => some (.edge .wordEnd)
  | '`' => some (.edge .start)
  | '\'' => some (.edge .finish)
  | c => if '1' ≤ c ∧ c ≤ '9' then some (.again (c.toNat - '0'.toNat)) else none

/-- A mark of the grammar, in either form. -/
inductive Sign where
  | opening
  | closing
  | bar
  | star
  | plus
  | question
  | count
  deriving DecidableEq, Repr

/-- The mark at the front of a text. -/
def sign? (extended : Bool) (s : List Char) : Option (Sign × List Char) :=
  let named (c : Char) : Option Sign :=
    match c with
    | '(' => some .opening
    | ')' => some .closing
    | '|' => some .bar
    | '+' => some .plus
    | '?' => some .question
    | '\x7b' => some .count
    | _ => none
  match s with
  | '*' :: r => some (.star, r)
  | '\\' :: c :: r => if extended then none else (named c).map (·, r)
  | c :: r => if extended then (named c).map (·, r) else none
  | [] => none

/-- A count after its opening brace. -/
def readCount? (extended : Bool) (s : List Char) : Option ((Nat × Option Nat) × List Char) := do
  let (low, r) := splitRun Char.isDigit s
  let least := numeral 10 low
  let (most, r) ← match r with
    | ',' :: r =>
      let (high, r) := splitRun Char.isDigit r
      some (if high = [] then none else some (numeral 10 high), r)
    | r => if low = [] then none else some (some least, r)
  let r ← afterMark? (if extended then ['\x7d'] else ['\\', '\x7d']) r
  return ((least, most), r)

/-- Puts two expressions after each other. -/
def Regex.append : Regex → Regex → Regex
  | .empty, b => b
  | a, .empty => a
  | a, b => .sequence a b

/-- The repetitions behind an expression. -/
def repetitions (extended : Bool) : Nat → Regex → List Char → Except String (Regex × List Char)
  | 0, a, s => .ok (a, s)
  | fuel + 1, a, s =>
    match sign? extended s with
    | some (.star, r) => repetitions extended fuel (.repeated 0 none a) r
    | some (.plus, r) => repetitions extended fuel (.repeated 1 none a) r
    | some (.question, r) => repetitions extended fuel (.repeated 0 (some 1) a) r
    | some (.count, r) =>
      match readCount? extended r with
      | some ((least, most), r) => repetitions extended fuel (.repeated least most a) r
      | none => if extended then .ok (a, s) else .error "Invalid preceding regular expression"
    | _ => .ok (a, s)

/-- Does a dollar sign before this text mean the end? -/
def endsBranch (extended : Bool) (s : List Char) : Bool :=
  extended || s.isEmpty || match sign? extended s with
    | some (.closing, _) => true
    | some (.bar, _) => true
    | _ => false

mutual

/-- Choices up to a closing mark or the end: the expression, what follows, and the number of groups
so far. -/
def readChoices (extended : Bool) : Nat → Bool → List Char → Nat →
    Except String (Regex × List Char × Nat)
  | 0, _, _, _ => .error "too deep"
  | fuel + 1, inside, s, n => do
    let (a, r, n) ← readBranch extended fuel inside true s n
    match sign? extended r with
    | some (.bar, r) =>
      let (b, r, n) ← readChoices extended fuel inside r n
      return (.choice a b, r, n)
    | _ => return (a, r, n)

/-- A sequence; `front` says that nothing of it was read yet. -/
def readBranch (extended : Bool) : Nat → Bool → Bool → List Char → Nat →
    Except String (Regex × List Char × Nat)
  | 0, _, _, _, _ => .error "too deep"
  | fuel + 1, inside, front, s, n => do
    let continued (a : Regex) (r : List Char) (n : Nat) (front : Bool) :
        Except String (Regex × List Char × Nat) := do
      let (a, r) ← if front then pure (a, r) else repetitions extended (r.length + 1) a r
      let (b, r, n) ← readBranch extended fuel inside front r n
      return (a.append b, r, n)
    match sign? extended s with
    | some (.closing, _) =>
      if inside then return (.empty, s, n) else .error "Unmatched ) or \\)"
    | some (.bar, _) => return (.empty, s, n)
    | some (.opening, r) =>
      let number := n + 1
      let (a, r, n) ← readChoices extended fuel true r number
      match sign? extended r with
      | some (.closing, r) => continued (.group number a) r n false
      | _ => .error "Unmatched ( or \\("
    | some (.star, r) =>
      if extended && !front then continued .empty r n false
      else continued (.char '*') r n false
    | some (.plus, r) => continued (.char '+') r n false
    | some (.question, r) => continued (.char '?') r n false
    | some (.count, r) =>
      if extended then continued (.char '\x7b') r n false
      else .error "Invalid preceding regular expression"
    | none =>
      match s with
      | [] => return (.empty, [], n)
      | '^' :: r =>
        if front || extended then continued (.edge .start) r n true
        else continued (.char '^') r n false
      | '$' :: r =>
        if endsBranch extended r then continued (.edge .finish) r n extended
        else continued (.char '$') r n false
      | '.' :: r => continued .any r n false
      | '[' :: r =>
        match readSet? r with
        | some (a, r) => continued a r n false
        | none => .error "Unmatched [, [^, [:, [., or [="
      | '\\' :: c :: r =>
        match escapedRegex? c with
        | some (.again k) =>
          if n < k then .error "Invalid back reference" else continued (.again k) r n false
        | some a => continued a r n false
        | none => continued (.char c) r n false
      | ['\\'] => .error "Trailing backslash"
      | c :: r => continued (.char c) r n false

end

/-- The expression that a text is. -/
def Regex.ofText (extended : Bool) (s : String) : Except String Regex := do
  let cs := s.toList
  let (a, _, _) ← readChoices extended (4 * cs.length + 8) false cs 0
  return a

/-! ## Matching -/

/-- How far a match has come. -/
structure Reach where
  before : Option Char
  rest : List Char
  /-- The texts of groups, the last found first. -/
  groups : List (Nat × List Char)
  deriving DecidableEq, Repr

/-- A character without its case. -/
def foldCase (ignoreCase : Bool) (c : Char) : Char := if ignoreCase then c.toLower else c

/-- Is a character part of a word? -/
def inWord (c : Option Char) : Bool := c.any fun c => c.isAlphanum || c == '_'

/-- Is the place one that is asked for? -/
def Edge.holds (p : Reach) : Edge → Bool
  | start => p.before.isNone
  | finish => p.rest.isEmpty
  | wordStart => !inWord p.before && inWord p.rest.head?
  | wordEnd => inWord p.before && !inWord p.rest.head?
  | word => inWord p.before != inWord p.rest.head?
  | inside => inWord p.before == inWord p.rest.head?

/-- Takes one character if it is in a class. -/
def Reach.take (p : Reach) (inClass : Char → Bool) : List Reach :=
  match p.rest with
  | c :: r => if inClass c then [{ p with before := some c, rest := r }] else []
  | [] => []

/-- Takes a text. -/
def Reach.takeText (ignoreCase : Bool) (p : Reach) : List Char → List Reach
  | [] => [p]
  | c :: cs =>
    match p.take fun d => foldCase ignoreCase d == foldCase ignoreCase c with
    | [p] => p.takeText ignoreCase cs
    | _ => []

/-- Each element once. -/
def once (ps : List Reach) : List Reach :=
  (ps.foldl (fun seen p => if seen.contains p then seen else p :: seen) []).reverse

/-- Repeats a step, as often as possible first. -/
def iterate (step : Reach → List Reach) : Nat → Nat → Option Nat → Reach → List Reach
  | 0, _, _, p => [p]
  | fuel + 1, least, most, p =>
    let more :=
      if most = some 0 then []
      else
        ((step p).filter fun q => least ≠ 0 || q.rest.length < p.rest.length).flatMap
          (iterate step fuel (least - 1) (most.map (· - 1)))
    once (if least = 0 then more ++ [p] else more)

/-- All ways to fit the front of a text, preferred ones first. -/
def Regex.ends (ignoreCase : Bool) : Regex → Reach → List Reach
  | empty, p => [p]
  | char c, p => p.takeText ignoreCase [c]
  | any, p => p.take fun _ => true
  | set negated members, p =>
    let has (c : Char) := members.any fun m => m.has c
    p.take fun c =>
      (has c || (ignoreCase && (has c.toLower || has c.toUpper))) != negated
  | edge e, p => if e.holds p then [p] else []
  | sequence a b, p => once ((a.ends ignoreCase p).flatMap (b.ends ignoreCase))
  | choice a b, p => once (a.ends ignoreCase p ++ b.ends ignoreCase p)
  | repeated least most a, p =>
    iterate (a.ends ignoreCase) (p.rest.length + least + 1) least most p
  | group n a, p =>
    (a.ends ignoreCase p).map fun q =>
      let text := p.rest.take (p.rest.length - q.rest.length)
      { q with groups := (n, text) :: q.groups.filter fun g => g.1 ≠ n }
  | again n, p =>
    match p.groups.lookup n with
    | some text => p.takeText ignoreCase text
    | none => []

/-- A fit in a text: what is before it, the text that it fits, what is after it, and the groups. -/
structure Fit where
  front : List Char
  found : List Char
  back : List Char
  groups : List (Nat × List Char)

/-- The longest of several fits, of equal ones the first. -/
def longest : List Reach → Option Reach
  | [] => none
  | p :: ps =>
    match longest ps with
    | none => some p
    | some q => some (if q.rest.length < p.rest.length then q else p)

/-- The first fit in a text after some other character; `front` is what was passed, the last
first. -/
def searchFrom (r : Regex) (ignoreCase : Bool) (before : Option Char) (front : List Char)
    (s : List Char) : Option Fit :=
  match longest (r.ends ignoreCase ⟨before, s, []⟩) with
  | some q => some ⟨front.reverse, s.take (s.length - q.rest.length), q.rest, q.groups⟩
  | none =>
    match s with
    | [] => none
    | c :: s => searchFrom r ignoreCase (some c) (c :: front) s
termination_by s.length

/-- The first fit in a text. -/
def Regex.search? (r : Regex) (ignoreCase : Bool) (s : List Char) : Option Fit :=
  searchFrom r ignoreCase none [] s

end NetPlot.Emulation.Tool
