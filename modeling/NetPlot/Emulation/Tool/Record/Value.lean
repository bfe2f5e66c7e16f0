/-
  Values of programs over records.

  1. **Data** — a `Value` is a number, a text, a part of the input, or nothing.  A part of the input
     counts as a number where it looks like one, and nothing counts as zero and as an empty text.

  2. **Numbers** — they are fractions that are rounded to 53 bits after each step (`rounded`).
     `numberOf` reads the number at the front of a text.

  3. **Texts** — `Record.format` fills a format with values; `splitText` cuts a text into fields, and
     `replaced` puts other texts in place of what an expression fits.
-/
import NetPlot.Emulation.Tool.Record.Reader

namespace NetPlot.Emulation.Tool.Record

open NetPlot.Text NetPlot.Decimal

/-- A value. -/
inductive Value where
  | number (r : Rat)
  | text (s : String)
  | input (s : String)
  | nothing

/-! ## Numbers -/

/-- The fraction that a rounded number is. -/
def fraction (negative : Bool) (x : Scaled) : Rat :=
  let n : Int := x.m * twoPow x.q
  mkRat (if negative then -n else n) (twoPow (-x.q))

/-- A fraction rounded to 53 bits. -/
def rounded (r : Rat) : Rat :=
  match ofQuotient r.num.natAbs r.den with
  | some x => fraction (r.num < 0) x
  | none => r

/-- A fraction without what stands after its point. -/
def whole (r : Rat) : Int := r.num.tdiv r.den

/-- The number at the front of a text, and what follows it. -/
def readNumber (s : List Char) : Rat × List Char :=
  let isBlank (c : Char) := c == ' ' || ('\t' ≤ c && c ≤ '\r')
  let (sign, body) := match s.dropWhile isBlank with
    | '-' :: r => ('-', r)
    | '+' :: r => ('+', r)
    | r => ('+', r)
  let span := numberSpan body
  if span = [] then (0, s)
  else
    let x := (fractionOf (String.ofList (span.map Char.toLower))).1
    (fraction (sign = '-') x.size, (body.drop span.length).dropWhile isBlank)

/-- The number at the front of a text. -/
def numberOf (s : String) : Rat := (readNumber s.toList).1

/-- Does a text look like a number? -/
def isNumeric (s : String) : Bool :=
  let (_, r) := readNumber s.toList
  r.isEmpty && s.toList.any Char.isDigit

/-- A number as a directive writes it. -/
def renderNumber (d : Directive) (r : Rat) : List Char :=
  let x := (ofQuotient r.num.natAbs r.den).getD ⟨0, leastExponent⟩
  (Fraction.mk (r.num < 0) x).render d

/-- The text of a number. -/
def numberText (r : Rat) : String :=
  if r.den = 1 then toString r.num else String.ofList (renderNumber ⟨[], 0, some 6, 'g'⟩ r)

namespace Value

/-- The number that a value counts as. -/
def toNumber : Value → Rat
  | number r => r
  | text s => numberOf s
  | input s => numberOf s
  | nothing => 0

/-- The text that a value counts as. -/
def toText : Value → String
  | number r => numberText r
  | text s => s
  | input s => s
  | nothing => ""

/-- Does the value count as a number in comparisons? -/
def countsAsNumber : Value → Bool
  | number _ => true
  | text _ => false
  | input s => isNumeric s
  | nothing => true

/-- Is the value neither zero nor empty? -/
def isTrue : Value → Bool
  | number r => r.num != 0
  | text s => s != ""
  | input s => if isNumeric s then (numberOf s).num != 0 else s != ""
  | nothing => false

/-- One for what holds, and zero. -/
def truth (b : Bool) : Value := .number (if b then 1 else 0)

/-- How two values are ordered. -/
def compareTo (a b : Value) : Ordering :=
  if a.countsAsNumber && b.countsAsNumber then
    let d := a.toNumber - b.toNumber
    compare d.num 0
  else compare a.toText b.toText

end Value

/-- A number to a whole power. -/
def power (r : Rat) (n : Int) : Rat :=
  let p := mkRat (Int.pow r.num n.natAbs) (Nat.pow r.den n.natAbs)
  if n < 0 then (if p.num = 0 then 0 else p.inv) else p

/-- The value of an operator; dividing by zero has no number. -/
def Operator.apply (o : Operator) (a b : Value) : Value :=
  let reckoned (f : Rat → Rat → Rat) : Value := .number (rounded (f a.toNumber b.toNumber))
  let compared (f : Ordering → Bool) : Value := Value.truth (f (a.compareTo b))
  let y := b.toNumber
  match o with
  | add => reckoned (· + ·)
  | subtract => reckoned (· - ·)
  | multiply => reckoned (· * ·)
  | divide =>
    if y.num = 0 then
      .text (if a.toNumber.num = 0 then "-nan" else if a.toNumber.num < 0 then "-inf" else "inf")
    else reckoned (· / ·)
  | remainder =>
    if y.num = 0 then .text "-nan" else reckoned fun x y => x - y * (whole (x / y) : Int)
  | power => reckoned fun x y => Record.power x (whole y)
  | join => .text (a.toText ++ b.toText)
  | less => compared (· == .lt)
  | lessOrEqual => compared (· != .gt)
  | equal => compared (· == .eq)
  | unequal => compared (· != .eq)
  | greater => compared (· == .gt)
  | greaterOrEqual => compared (· != .lt)

/-! ## Texts -/

/-- The text of a directive for a value. -/
def directiveText (d : Directive) (v : Value) : Option (List Char) :=
  match d.letter with
  | 's' => some (d.word v.toText.toList)
  | 'c' =>
    let c := match v with
      | .number r => [Char.ofNat ((whole r).toNat % 256)]
      | v => [v.toText.toList.headD '\x00']
    some (d.pad false [] c)
  | c =>
    if "diouxX".toList.contains c then some (d.whole (whole v.toNumber))
    else if "eEfFgG".toList.contains c then some (renderNumber d v.toNumber)
    else none

/-- Fills a format with values.  Without a value for a directive there is no text. -/
def format : Nat → List Char → List Value → Option (List Char)
  | 0, s, _ => some s
  | _, [], _ => some []
  | fuel + 1, '%' :: '%' :: s, vs => (format fuel s vs).map ('%' :: ·)
  | fuel + 1, '%' :: s, vs =>
    let texts := vs.map Value.toText
    let (d, r, rest) := readDirective s texts
    match vs.drop (texts.length - rest.length) with
    | [] => none
    | v :: vs =>
      match directiveText d v with
      | some t => (format fuel r vs).map (t ++ ·)
      | none => (format fuel s (v :: vs)).map ('%' :: ·)
  | fuel + 1, c :: s, vs => (format fuel s vs).map (c :: ·)

/-- A text cut at what an expression fits. -/
def splitAtFits (r : Regex) : Nat → Option Char → List Char → List Char → List (List Char)
  | 0, _, front, s => [front.reverse ++ s]
  | fuel + 1, before, front, s =>
    match searchFrom r false before [] s with
    | none => [front.reverse ++ s]
    | some x =>
      match x.found, x.back with
      | [], [] => [front.reverse ++ s]
      | [], c :: r' => splitAtFits r fuel (some c) (c :: (x.front.reverse ++ front)) r'
      | found, back => (front.reverse ++ x.front) :: splitAtFits r fuel found.getLast? [] back

/-- The fields of a text, by what separates them. -/
def splitText (separator s : String) : List String :=
  let cs := s.toList
  let isBlank (c : Char) := c == ' ' || c == '\t' || c == '\n'
  if s = "" then []
  else
    match separator.toList with
    | [] => cs.map String.singleton
    | [' '] => ((pieces ' ' [] (cs.map fun c => if isBlank c then ' ' else c)).filter (· ≠ [])).map
        String.ofList
    | [c] => (pieces c [] cs).map String.ofList
    | _ =>
      match Regex.ofText true separator with
      | .ok r => (splitAtFits r (cs.length + 2) none [] cs).map String.ofList
      | .error _ => [s]

/-- What takes the place of a text that was found: `&` stands for it. -/
def replacement (found : List Char) : List Char → List Char
  | [] => []
  | '\\' :: '&' :: s => '&' :: replacement found s
  | '\\' :: '\\' :: s => '\\' :: replacement found s
  | '&' :: s => found ++ replacement found s
  | c :: s => c :: replacement found s

/-- A text with others in place of what an expression fits, and how often that was; `adjacent` says
that the place before the text was taken. -/
def replaced (r : Regex) (all : Bool) (new : List Char) :
    Nat → Option Char → Bool → List Char → List Char × Nat
  | 0, _, _, s => (s, 0)
  | fuel + 1, before, adjacent, s =>
    match searchFrom r false before [] s with
    | none => (s, 0)
    | some x =>
      match x.found, x.back with
      | [], back =>
        let taken := adjacent && x.front.isEmpty
        let put := if taken then [] else x.front ++ replacement [] new
        let n := if taken then 0 else 1
        match back with
        | [] => if taken then (s, 0) else (put, n)
        | c :: r' =>
          if !all && !taken then (put ++ back, n)
          else
            let (t, m) := replaced r all new fuel (some c) false r'
            (put ++ c :: t, n + m)
      | found, back =>
        let put := x.front ++ replacement found new
        if all then
          let (t, m) := replaced r all new fuel found.getLast? true back
          (put ++ t, 1 + m)
        else (put ++ back, 1)

/-- The first record of a text, and the text after it; a mark of no characters means empty lines. -/
def firstRecord (mark : String) (s : List Char) : Option (List Char × List Char) :=
  match mark.toList with
  | [c] =>
    if s = [] then none
    else
      let (front, r) := splitRun (· ≠ c) s
      some (front, r.drop 1)
  | [] =>
    let s := s.dropWhile (· == '\n')
    if s = [] then none
    else
      match cutAt ['\n', '\n'] s with
      | some (front, r) => some (front, r.dropWhile (· == '\n'))
      | none => some ((s.reverse.dropWhile (· == '\n')).reverse, [])
  | _ =>
    if s = [] then none
    else
      match (Regex.ofText true mark).toOption.bind fun r => r.search? false s with
      | some x => some (x.front, x.back)
      | none => some (s, [])

example : replaced (.char 'a') true ['<', '&', '>'] 9 none false "banana".toList
    = ("b<a>n<a>n<a>".toList, 3) := by decide +kernel

end NetPlot.Emulation.Tool.Record
