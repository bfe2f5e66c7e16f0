/-
  Sorting lines.

  1. **Data** — a `Key` is a part of each line and says how two of them are compared.

  2. **Program** — `compareLines` goes through the keys; where all of them are equal, the whole
     lines decide.  Lines that compare equal stay in the order in which they were.
-/
import NetPlot.Emulation.Tool.Basic

namespace NetPlot.Emulation.Tool

open NetPlot.Text

/-- The start or the end of a part of a line. -/
structure Mark where
  field : Nat
  char : Nat

/-- A part of a line, and the letters that say how it is compared. -/
structure Key where
  start : Mark
  finish : Option Mark
  letters : List Char

namespace Key

/-- Is something asked of the key? -/
def has (k : Key) (c : Char) : Bool := k.letters.contains c

end Key

/-- A blank inside a line. -/
def isLineBlank (c : Char) : Bool := c == ' ' || c == '\t'

/-- What is left of a line after so many fields; with `closing`, without the separator behind the
last of them. -/
def afterFields (separator : Option Char) (closing : Bool) : Nat → List Char → List Char
  | 0, s => s
  | n + 1, s =>
    match separator with
    | none =>
      afterFields separator closing n ((s.dropWhile isLineBlank).dropWhile fun c => !isLineBlank c)
    | some t =>
      let r := s.dropWhile (· != t)
      afterFields separator closing n (if closing && n = 0 then r else r.drop 1)

/-- The part of a line that a key means. -/
def Key.part (k : Key) (separator : Option Char) (s : List Char) : List Char :=
  let front := afterFields separator false (k.start.field - 1) s
  let front := if k.has 'b' then front.dropWhile isLineBlank else front
  let front := front.drop (k.start.char - 1)
  match k.finish with
  | none => front
  | some e =>
    let back :=
      if e.char = 0 then afterFields separator true e.field s
      else
        let r := afterFields separator false (e.field - 1) s
        (if k.has 'b' then r.dropWhile isLineBlank else r).drop e.char
    front.take (front.length - back.length)

/-- A number at the front of a text: its sign, its digits before the point, and those after it. -/
def frontDecimal (s : List Char) : Bool × List Char × List Char :=
  let s := s.dropWhile isLineBlank
  let (negative, s) := match s with
    | '-' :: r => (true, r)
    | r => (false, r)
  let (front, r) := splitRun Char.isDigit s
  let back := match r with
    | '.' :: r => r.takeWhile Char.isDigit
    | _ => []
  (negative, front, back)

/-- Two texts by the numbers at their fronts. -/
def compareNumbers (a b : List Char) : Ordering :=
  let (p, f, u) := frontDecimal a
  let (q, g, v) := frontDecimal b
  let width := max u.length v.length
  let value (negative : Bool) (front back : List Char) : Int :=
    let n : Int := numeral 10 (front ++ back ++ List.replicate (width - back.length) '0')
    if negative then -n else n
  compare (value p f u) (value q g v)

/-- Two rows of characters by their numbers. -/
def compareChars : List Char → List Char → Ordering
  | [], [] => .eq
  | [], _ :: _ => .lt
  | _ :: _, [] => .gt
  | c :: s, d :: t => if c = d then compareChars s t else compare c.toNat d.toNat

/-- Two parts as a key compares them. -/
def Key.compareParts (k : Key) (a b : List Char) : Ordering :=
  let order :=
    if k.has 'n' || k.has 'g' || k.has 'h' then compareNumbers a b
    else
      let seen (s : List Char) : List Char :=
        let s := if k.has 'd' then s.filter fun c => c.isAlphanum || isLineBlank c else s
        let s := if k.has 'i' then s.filter fun c => ' ' ≤ c && c ≤ '~' else s
        if k.has 'f' then s.map Char.toUpper else s
      compareChars (seen a) (seen b)
  if k.has 'r' then order.swap else order

/-- Two lines by keys. -/
def compareByKeys (separator : Option Char) (keys : List Key) (a b : String) : Ordering :=
  keys.foldl
    (fun o k => o.then (k.compareParts (k.part separator a.toList) (k.part separator b.toList)))
    .eq

/-- The number at the front of a text. -/
def frontNumber? (s : List Char) : Option (Nat × List Char) :=
  match splitRun Char.isDigit s with
  | ([], _) => none
  | (ds, r) => some (numeral 10 ds, r)

/-- A place in a line, with the letters behind it. -/
def mark? (s : List Char) : Option (Mark × List Char × List Char) := do
  let (field, r) ← frontNumber? s
  let (char, r) ← match r with
    | '.' :: r => (frontNumber? r).map fun (n, r) => (some n, r)
    | r => some (none, r)
  let (letters, r) := splitRun Char.isAlpha r
  return (⟨field, char.getD 0⟩, letters, r)

/-- The key that a text says. -/
def key? (s : String) : Option Key := do
  let (start, letters, r) ← mark? s.toList
  match r with
  | [] => return ⟨{ start with char := max 1 start.char }, none, letters⟩
  | ',' :: r =>
    let (finish, more, r) ← mark? r
    if r.isEmpty then
      return ⟨{ start with char := max 1 start.char }, some finish, letters ++ more⟩
    else none
  | _ => none

/-- Lines of which no neighbours compare equal. -/
def distinct (order : String → String → Ordering) : List String → List String
  | [] => []
  | l :: ls =>
    match distinct order ls with
    | [] => [l]
    | m :: ms => if order l m = .eq then l :: ms else l :: m :: ms

/-- The first line that is out of order, with its number. -/
def disorder? (order : String → String → Ordering) (strict : Bool) :
    Nat → List String → Option (Nat × String)
  | n, a :: b :: r =>
    let o := order a b
    if o = .gt ∨ (strict ∧ o = .eq) then some (n + 1, b) else disorder? order strict (n + 1) (b :: r)
  | _, _ => none

/-- `sort`: lines in order. -/
def sort : Tool Unit := do
  let g ← given "bcCdfgGhik:mMno:rRst:T:uVzS:"
    [("reverse", 'r'), ("numeric-sort", 'n'), ("unique", 'u'), ("key", 'k'),
     ("field-separator", 't'), ("ignore-case", 'f'), ("ignore-leading-blanks", 'b'),
     ("stable", 's'), ("output", 'o'), ("check", 'c'), ("merge", 'm'), ("dictionary-order", 'd')] 2
  let separator ← match g.value? 't' with
    | none => pure none
    | some s =>
      match s.toList with
      | [c] => pure (some c)
      | ['\\', '0'] => pure (some '\x00')
      | [] => refuse "empty tab" 2
      | _ => refuse ("multi-character tab " ++ quote s) 2
  let general := ['b', 'd', 'f', 'g', 'h', 'i', 'n', 'r'].filter g.has
  let keys ← (g.options.filter fun o => o.1 == 'k').mapM fun (_, v) => do
    match key? v with
    | some k =>
      if k.start.field = 0 ∨ (k.finish.map (·.field)) = some 0 then
        refuse ("field number is zero: invalid field specification " ++ quote v) 2
      else pure (if k.letters.isEmpty then { k with letters := general } else k)
    | none => refuse ("invalid number at field start: invalid count at start of " ++ quote v) 2
  let whole : Key := ⟨⟨1, 1⟩, none, general⟩
  let byKeys := compareByKeys separator (if keys.isEmpty then [whole] else keys)
  let plain (a b : String) : Ordering :=
    let o := compareChars a.toList b.toList
    if g.has 'r' then o.swap else o
  let order (a b : String) : Ordering :=
    if g.has 's' || g.has 'u' then byKeys a b else (byKeys a b).then (plain a b)
  let names := if g.operands.isEmpty then ["-"] else g.operands
  let mut lines : List String := []
  for n in names do
    match ← contentOf n with
    | .ok s => lines := lines ++ linesOf s
    | .error .isDirectory => refuse ("read failed: " ++ n ++ ": " ++ OsError.isDirectory.reason) 2
    | .error e => refuse ("cannot read: " ++ n ++ ": " ++ e.reason) 2
  if g.has 'c' || g.has 'C' then
    match disorder? order (g.has 'u') 1 lines with
    | none => return
    | some (n, l) =>
      if !g.has 'C' then
        warn (names.headD "-" ++ ":" ++ n.repr ++ ": disorder: " ++ l)
      stop 1
  let sorted := lines.mergeSort fun a b => order a b != .gt
  let sorted := if g.has 'u' then distinct order sorted else sorted
  let text := String.join (sorted.map (· ++ "\n"))
  match g.value? 'o' with
  | none => say text
  | some o =>
    match ← writeFile o text with
    | .ok () => pure ()
    | .error e => refuse ("open failed: " ++ o ++ ": " ++ e.reason) 2

end NetPlot.Emulation.Tool
