/-
  Tools that reckon: `expr` with expressions of words, and `seq` with rows of numbers.
-/
import NetPlot.Emulation.Tool.Format
import NetPlot.Emulation.Tool.Regex
import NetPlot.Emulation.Tool.Tree

namespace NetPlot.Emulation.Tool

open NetPlot.Text

/-! ## Expressions -/

/-- Is a value nothing or zero? -/
def isNull (s : String) : Bool :=
  let cs := s.toList
  let cs := if cs.head? = some '-' then cs.drop 1 else cs
  s.isEmpty || (!cs.isEmpty && cs.all (· == '0'))

/-- The whole number that a word is. -/
def integer? (s : String) : Option Int :=
  match s.toList with
  | '-' :: r => (digits? (String.ofList r)).map fun n => -(n : Int)
  | _ => (digits? s).map fun n => (n : Int)

/-- The operators between values, from the loosest to the tightest. -/
def reckoningLevels : List (List String) :=
  [["|"], ["&"], ["=", "==", "!=", "<", "<=", ">", ">="], ["+", "-"], ["*", "/", "%"], [":"]]

/-- The part of a text that an expression fits at its front: the text of its first group, or its
length. -/
def fitted (pattern s : String) : Except String String := do
  let r ← Regex.ofText false pattern
  let grouped := (afterMark? ['\\', '('] pattern.toList).isSome
    || (cutAt ['\\', '('] pattern.toList).isSome
  match longest (r.ends false ⟨none, s.toList, []⟩) with
  | none => return if grouped then "" else "0"
  | some q =>
    if grouped then return String.ofList ((q.groups.lookup 1).getD [])
    else return (s.length - q.rest.length).repr

/-- The value of an operator. -/
def reckon (op a b : String) : Except String String :=
  let truth (b : Bool) : Except String String := .ok (if b then "1" else "0")
  let compared (f : Ordering → Bool) : Except String String :=
    match integer? a, integer? b with
    | some x, some y => truth (f (compare x y))
    | _, _ => truth (f (compare a b))
  let counted (f : Int → Int → Except String Int) : Except String String :=
    match integer? a, integer? b with
    | some x, some y => (f x y).map toString
    | _, _ => .error "non-integer argument"
  match op with
  | "|" => .ok (if !isNull a then a else if isNull b then "0" else b)
  | "&" => .ok (if isNull a || isNull b then "0" else a)
  | "=" => compared (· == .eq)
  | "==" => compared (· == .eq)
  | "!=" => compared (· != .eq)
  | "<" => compared (· == .lt)
  | "<=" => compared (· != .gt)
  | ">" => compared (· == .gt)
  | ">=" => compared (· != .lt)
  | "+" => counted fun x y => .ok (x + y)
  | "-" => counted fun x y => .ok (x - y)
  | "*" => counted fun x y => .ok (x * y)
  | "/" => counted fun x y => if y = 0 then .error "division by zero" else .ok (x.tdiv y)
  | "%" => counted fun x y => if y = 0 then .error "division by zero" else .ok (x.tmod y)
  | _ => fitted b a

mutual

/-- The value of words joined by the operators of some levels, with the words after it; `last` is
the word before them. -/
def reckonLevel : Nat → List (List String) → String → List String →
    Except String (String × String × List String)
  | 0, _, _, _ => .error "too deep"
  | fuel + 1, [], last, ws => reckonWord fuel last ws
  | fuel + 1, level :: tighter, last, ws => do
    let (a, last, r) ← reckonLevel fuel tighter last ws
    reckonAfter fuel level tighter a last r

/-- The value of what follows a first value of a level. -/
def reckonAfter : Nat → List String → List (List String) → String → String → List String →
    Except String (String × String × List String)
  | 0, _, _, _, _, _ => .error "too deep"
  | fuel + 1, level, tighter, a, last, ws =>
    match ws with
    | op :: r =>
      if level.contains op then do
        let (b, last, r) ← reckonLevel fuel tighter op r
        reckonAfter fuel level tighter (← reckon op a b) last r
      else .ok (a, last, ws)
    | [] => .ok (a, last, [])

/-- The value of a word, a bracket or a function. -/
def reckonWord : Nat → String → List String → Except String (String × String × List String)
  | 0, _, _ => .error "too deep"
  | fuel + 1, last, ws =>
    match ws with
    | [] => .error ("syntax error: missing argument after " ++ quote last)
    | "(" :: r => do
      let (a, last, r) ← reckonLevel fuel reckoningLevels "(" r
      match r with
      | ")" :: r => return (a, ")", r)
      | [] => .error ("syntax error: expecting ')' after " ++ quote last)
      | x :: _ => .error ("syntax error: expecting ')' instead of " ++ quote x)
    | ")" :: _ => .error "syntax error: unexpected ')'"
    | ["+"] => .ok ("+", "+", [])
    | "+" :: w :: r => .ok (w, w, r)
    | "length" :: w :: r => do
      let (a, last, r) ← reckonWord fuel "length" (w :: r)
      return (a.length.repr, last, r)
    | "match" :: w :: r => do
      let (a, last, r) ← reckonWord fuel "match" (w :: r)
      let (b, last, r) ← reckonWord fuel last r
      return (← fitted b a, last, r)
    | "index" :: w :: r => do
      let (a, last, r) ← reckonWord fuel "index" (w :: r)
      let (b, last, r) ← reckonWord fuel last r
      let n := (a.toList.findIdx? fun c => b.toList.contains c).map (· + 1)
      return ((n.getD 0).repr, last, r)
    | "substr" :: w :: r => do
      let (a, last, r) ← reckonWord fuel "substr" (w :: r)
      let (b, last, r) ← reckonWord fuel last r
      let (c, last, r) ← reckonWord fuel last r
      let s := match integer? b, integer? c with
        | some n, some k =>
          if n ≤ 0 ∨ k ≤ 0 then [] else (a.toList.drop (n.toNat - 1)).take k.toNat
        | _, _ => []
      return (String.ofList s, last, r)
    | w :: r => .ok (w, w, r)

end

/-- `expr`: the value of an expression. -/
def expr : Tool Unit := do
  let ws := (← read).arguments
  let ws := if ws.head? = some "--" then ws.drop 1 else ws
  if ws.isEmpty then lacking 2
  match reckonLevel (16 * ws.length + 16) reckoningLevels "" ws with
  | .error m => refuse m 2
  | .ok (a, _, []) =>
    say (a ++ "\n")
    setStatus (if isNull a then 1 else 0)
  | .ok (_, _, x :: _) => refuse ("syntax error: unexpected argument " ++ quote x) 2

/-! ## Rows of numbers -/

/-- A decimal number: its digits without the point, and how many of them stand after it. -/
structure Places where
  value : Int
  places : Nat

/-- The decimal number that a word is. -/
def places? (s : String) : Option Places :=
  let (negative, r) := match s.toList with
    | '-' :: r => (true, r)
    | '+' :: r => (false, r)
    | r => (false, r)
  let (front, r) := splitRun Char.isDigit r
  let (back, r) := match r with
    | '.' :: r => splitRun Char.isDigit r
    | r => ([], r)
  if r.isEmpty && !(front.isEmpty && back.isEmpty) then
    let n : Int := numeral 10 (front ++ back)
    some ⟨if negative then -n else n, back.length⟩
  else none

/-- The number with so many places. -/
def Places.scaled (x : Places) (places : Nat) : Int := x.value * Nat.pow 10 (places - x.places)

/-- `seq`: numbers with equal steps between them. -/
def seq : Tool Unit := do
  let arguments := (← read).arguments
  let isNumber (s : String) := (places? s).isSome
  let flags := arguments.takeWhile fun s => beginsWith "-" s && !isNumber s
  let valued := flags.getLast?.any fun f => ["-s", "-f", "--separator"].contains f
  let n := flags.length + if valued then 1 else 0
  let front := arguments.take n
  let g ← readOptions (knownOptions "f:s:w"
    [("format", 'f'), ("separator", 's'), ("equal-width", 'w')]) 1 true (front.length + 1) front
  let operands := g.operands ++ arguments.drop n
  let number (s : String) : Tool Places := do
    match places? s with
    | some x => return x
    | none => misuse ("invalid floating point argument: " ++ quote s) 1
  let (from?, step?, upTo) ← match operands with
    | [] => lacking 1
    | [c] => pure (none, none, c)
    | [a, c] => pure (some a, none, c)
    | [a, b, c] => pure (some a, some b, c)
    | _ :: _ :: _ :: x :: _ => extra x 1
  let first ← number (from?.getD "1")
  let step ← number (step?.getD "1")
  let last ← number upTo
  if step.value = 0 then misuse ("invalid Zero increment value: " ++ quote (operands.getD 1 "")) 1
  let shown := max first.places step.places
  let places := max shown last.places
  let (a, b, c) := (first.scaled places, step.scaled places, last.scaled places)
  let count : Nat := if (0 < b ∧ c < a) ∨ (b < 0 ∧ a < c) then 0 else (Int.tdiv (c - a) b).toNat + 1
  let text (n : Int) : String :=
    let n := n / (Nat.pow 10 (places - shown) : Nat)
    let body := String.ofList (Fraction.pointed shown n.natAbs false)
    if n < 0 then "-" ++ body else body
  let values := (List.range (min count 100000)).map fun (i : Nat) => text (a + b * i)
  let width := (values.map String.length).foldl max 0
  let values := if g.has 'w' then values.map fun s =>
      if beginsWith "-" s then
        "-" ++ String.ofList (List.replicate (width - s.length) '0' ++ s.toList.drop 1)
      else String.ofList (List.replicate (width - s.length) '0') ++ s
    else match g.value? 'f' with
      | some f => values.map fun v => String.ofList (fill 2 f.toList [v]).text
      | none => values
  if !values.isEmpty then say (((g.value? 's').getD "\n").intercalate values ++ "\n")

end NetPlot.Emulation.Tool
