/-
  Texts with escapes and directives.

  1. **Escapes** — `unescape` replaces what follows backslashes: letters for control characters,
     octal digits for octets.

  2. **Directives** — `fill` fills a format with arguments, again and again until there are none
     left.  A `Directive` has flags, a width, a precision and a letter.

  3. **Faults** — an argument that is no number counts as far as it is one, and is complained
     about; a directive that means nothing ends the text.
-/
import NetPlot.Decimal.Binary
import NetPlot.Text.Cut
import NetPlot.Text.Numeral

namespace NetPlot.Emulation.Tool

open NetPlot.Text NetPlot.Decimal

/-! ## Escapes -/

/-- The character of a letter after a backslash. -/
def escapeLetter? : Char → Option Char
  | 'a' => some '\x07'
  | 'b' => some '\x08'
  | 'e' => some '\x1b'
  | 'f' => some '\x0c'
  | 'n' => some '\n'
  | 'r' => some '\r'
  | 't' => some '\t'
  | 'v' => some '\x0b'
  | '\\' => some '\\'
  | _ => none

/-- The character after a backslash, and the text that follows it. -/
def escape? (s : List Char) : Option (Char × List Char) :=
  match s with
  | [] => none
  | c :: r =>
    match escapeLetter? c with
    | some d => some (d, r)
    | none =>
      match (s.take 3).takeWhile (isDigitIn 8) with
      | [] => none
      | ds => some (Char.ofNat (numeral 8 ds % 256), s.drop ds.length)

/-- A text with its escapes replaced, and whether an escape ended it. -/
def unescape : Nat → List Char → List Char × Bool
  | 0, s => (s, false)
  | _, [] => ([], false)
  | fuel + 1, '\\' :: s =>
    match s with
    | 'c' :: _ => ([], true)
    | s =>
      let s := match s with
        | '0' :: d :: r => if isDigitIn 8 d then d :: r else s
        | s => s
      match escape? s with
      | some (c, r) =>
        let (t, ended) := unescape fuel r
        (c :: t, ended)
      | none =>
        let (t, ended) := unescape fuel s
        ('\\' :: t, ended)
  | fuel + 1, c :: s =>
    let (t, ended) := unescape fuel s
    (c :: t, ended)

/-- What is written for words: with blanks between them and a line end, unless the first one is
`-n`. -/
def echoed (arguments : List String) : String :=
  let (words, ending) := match arguments with
    | "-n" :: r => (r, [])
    | r => (r, ['\n'])
  let s := (" ".intercalate words).toList
  let (t, ended) := unescape (s.length + 1) s
  String.ofList (if ended then t else t ++ ending)

/-- What is written for words after flags: `-n` leaves out the line end, and `-e` replaces escapes. -/
def echoedWithFlags (arguments : List String) : String :=
  let isFlag (s : String) : Bool :=
    match s.toList with
    | '-' :: c :: cs => (c :: cs).all "neE".toList.contains
    | _ => false
  let flags := arguments.takeWhile isFlag
  let s := (" ".intercalate (arguments.drop flags.length)).toList
  let letters := (String.join flags).toList
  let escapes := (letters.reverse.find? fun c => c == 'e' || c == 'E') == some 'e'
  let (t, ended) := if escapes then unescape (s.length + 1) s else (s, false)
  String.ofList t ++ if letters.contains 'n' || ended then "" else "\n"

/-! ## Numbers -/

/-- The bits of a number. -/
def wordSize : Int := 0x10000000000000000

/-- A number at the front of an argument, and what is wrong with it. -/
structure Count where
  value : Int
  fault : Option String

/-- The number at the front of digits, with its base in front of it. -/
def basedNumber (s : List Char) : Nat × List Char × Bool :=
  match s with
  | '0' :: x :: c :: r =>
    if (x = 'x' ∨ x = 'X') ∧ isDigitIn 16 c then
      let (ds, r) := splitRun (isDigitIn 16) (c :: r)
      (numeral 16 ds, r, true)
    else
      let (ds, r) := splitRun (isDigitIn 8) s
      (numeral 8 ds, r, true)
  | '0' :: _ =>
    let (ds, r) := splitRun (isDigitIn 8) s
    (numeral 8 ds, r, true)
  | s =>
    let (ds, r) := splitRun Char.isDigit s
    (numeral 10 ds, r, !ds.isEmpty)

/-- The whole number that an argument is; a quote in front means the number of a character. -/
def countOf (signed : Bool) (s : String) : Count :=
  match s.toList with
  | [] => ⟨0, none⟩
  | q :: r =>
    if q = '"' ∨ q = '\'' then ⟨(r.head?.map fun c => (c.toNat : Int)).getD 0, none⟩
    else
      let s := (q :: r).dropWhile fun c => c == ' ' || ('\t' ≤ c && c ≤ '\r')
      let (negative, s) := match s with
        | '-' :: s => (true, s)
        | '+' :: s => (false, s)
        | s => (false, s)
      let (n, rest, found) := basedNumber s
      let value : Int := if negative then -(n : Int) else n
      let (low, high) : Int × Int :=
        if signed then (-0x8000000000000000, 0x7fffffffffffffff) else (1 - wordSize, wordSize - 1)
      if !found then ⟨0, some "expected numeric value"⟩
      else if !rest.isEmpty then ⟨max low (min high value), some "not completely converted"⟩
      else if value < low ∨ high < value then
        ⟨if signed then max low (min high value) else high, some "Numerical result out of range"⟩
      else ⟨value, none⟩

/-! ## Directives -/

/-- What is to be written. -/
structure Directive where
  flags : List Char
  width : Nat
  precision : Option Nat
  letter : Char

namespace Directive

/-- Is a flag set? -/
def has (d : Directive) (c : Char) : Bool := d.flags.contains c

/-- A text in the width, with something in front that zeros come after. -/
def pad (d : Directive) (zeros : Bool) (front body : List Char) : List Char :=
  let n := d.width - (front.length + body.length)
  if d.has '-' then front ++ body ++ List.replicate n ' '
  else if zeros && d.has '0' then front ++ List.replicate n '0' ++ body
  else List.replicate n ' ' ++ front ++ body

/-- What stands in front of a number. -/
def signOf (d : Directive) (negative : Bool) : List Char :=
  if negative then ['-'] else if d.has '+' then ['+'] else if d.has ' ' then [' '] else []

/-- The digits of a whole number, at least as many as the precision says. -/
def digitsOf (d : Directive) (base n : Nat) : List Char :=
  let ds := if n = 0 ∧ d.precision = some 0 then [] else Nat.toDigits base n
  List.replicate (d.precision.getD 1 - ds.length) '0' ++ ds

/-- A whole number. -/
def whole (d : Directive) (n : Int) : List Char :=
  let zeros := d.precision.isNone
  let bits := (n % wordSize).toNat
  match d.letter with
  | 'u' => d.pad zeros [] (d.digitsOf 10 bits)
  | 'o' =>
    let ds := d.digitsOf 8 bits
    d.pad zeros [] (if d.has '#' && ds.head? ≠ some '0' then '0' :: ds else ds)
  | 'x' => d.pad zeros (if d.has '#' && bits ≠ 0 then ['0', 'x'] else []) (d.digitsOf 16 bits)
  | 'X' =>
    d.pad zeros (if d.has '#' && bits ≠ 0 then ['0', 'X'] else [])
      ((d.digitsOf 16 bits).map Char.toUpper)
  | _ => d.pad zeros (d.signOf (n < 0)) (d.digitsOf 10 n.natAbs)

/-- A text. -/
def word (d : Directive) (s : List Char) : List Char :=
  d.pad false [] (match d.precision with
    | some n => s.take n
    | none => s)

end Directive

/-! ## Numbers with fractions -/

/-- A number with a fraction, rounded to 53 bits. -/
structure Fraction where
  negative : Bool
  size : Scaled

/-- The number that an argument is, and what is wrong with it. -/
def fractionOf (s : String) : Fraction × Option String :=
  if s.isEmpty then (⟨false, ⟨0, leastExponent⟩⟩, none)
  else
    let s := s.toList.dropWhile (· == ' ')
    let (negative, s) := match s with
      | '-' :: s => (true, s)
      | '+' :: s => (false, s)
      | s => (false, s)
    let (front, r) := splitRun Char.isDigit s
    let (back, r) := match r with
      | '.' :: r => splitRun Char.isDigit r
      | r => ([], r)
    let (power, r) : Int × List Char := match r with
      | 'e' :: '-' :: c :: t =>
        if c.isDigit then
          let (ds, t) := splitRun Char.isDigit (c :: t)
          (-(numeral 10 ds : Int), t)
        else (0, r)
      | 'e' :: c :: t =>
        if c.isDigit then
          let (ds, t) := splitRun Char.isDigit (c :: t)
          ((numeral 10 ds : Int), t)
        else (0, r)
      | r => (0, r)
    let size := (ofDecimal (numeral 10 (front ++ back)) (power - back.length)).getD
      ⟨0, leastExponent⟩
    let fault :=
      if front.isEmpty ∧ back.isEmpty then some "expected numeric value"
      else if r.isEmpty then none
      else some "not completely converted"
    (⟨negative, size⟩, fault)

namespace Fraction

/-- The number times a power of ten, rounded to a whole one. -/
def scaled (x : Fraction) (e : Int) : Nat :=
  roundQuotient (x.size.m * twoPow x.size.q * tenPow e) (twoPow (-x.size.q) * tenPow (-e))

/-- Digits with a point before the last so many of them. -/
def pointed (places n : Nat) (keepPoint : Bool) : List Char :=
  let ds := Nat.toDigits 10 n
  let ds := List.replicate (places + 1 - ds.length) '0' ++ ds
  let (front, back) := (ds.take (ds.length - places), ds.drop (ds.length - places))
  if places = 0 then front ++ (if keepPoint then ['.'] else []) else front ++ '.' :: back

/-- The exponent that the number has when it is written with one digit before the point and so
many after it, and its digits. -/
def scientific (x : Fraction) (places : Nat) : Int × Nat :=
  if x.size.m = 0 then (0, 0)
  else
    let guess : Int := (log2Quotient (x.size.m * twoPow x.size.q) (twoPow (-x.size.q))) * 30103 / 100000
    let candidates := [guess - 1, guess, guess + 1, guess + 2]
    let limit := Nat.pow 10 (places + 1)
    match candidates.find? fun e => x.scaled (places - e) < limit with
    | some e => (e, x.scaled (places - e))
    | none => (guess, x.scaled (places - guess))

/-- An exponent in letters. -/
def exponentText (e : Int) : List Char :=
  let ds := Nat.toDigits 10 e.natAbs
  'e' :: (if e < 0 then '-' else '+') :: (List.replicate (2 - ds.length) '0' ++ ds)

/-- The number as a directive asks for it. -/
def render (x : Fraction) (d : Directive) : List Char :=
  let places := d.precision.getD 6
  let body := match d.letter.toLower with
    | 'f' => pointed places (x.scaled places) (d.has '#')
    | 'e' =>
      let (e, n) := x.scientific places
      pointed places n (d.has '#') ++ exponentText e
    | _ =>
      let digits := max places 1
      let (e, n) := x.scientific (digits - 1)
      let trimmed (s : List Char) :=
        if d.has '#' || !s.contains '.' then s
        else ((s.reverse.dropWhile (· == '0')).dropWhile (· == '.')).reverse
      if e < -4 ∨ (digits : Int) ≤ e then
        trimmed (pointed (digits - 1) n false) ++ exponentText e
      else
        let places := (digits - 1 - e).toNat
        trimmed (pointed places (x.scaled places) false)
  let body := if d.letter.isUpper then body.map Char.toUpper else body
  d.pad true (d.signOf x.negative) body

end Fraction

/-! ## Filling -/

/-- What filling leaves: the text, complaints, and the arguments that are left. -/
structure Filled where
  text : List Char
  faults : List String
  arguments : List String
  /-- Does nothing follow? -/
  ended : Bool
  /-- Does the format mean nothing? -/
  broken : Bool

/-- Adds a text in front. -/
def Filled.after (x : Filled) (front : List Char) (faults : List String) : Filled :=
  { x with text := front ++ x.text, faults := faults ++ x.faults }

/-- A number of a directive: digits, or the next argument. -/
def fieldNumber (s : List Char) (arguments : List String) :
    Option Int × List Char × List String :=
  match s with
  | '*' :: r => (some (countOf true (arguments.headD "")).value, r, arguments.drop 1)
  | s =>
    let (ds, r) := splitRun Char.isDigit s
    (if ds = [] then none else some (numeral 10 ds : Nat), r, arguments)

/-- The directive after a percent sign. -/
def readDirective (s : List Char) (arguments : List String) :
    Directive × List Char × List String :=
  let (flags, r) := splitRun (fun c => "#-+ 0".toList.contains c) s
  let (width, r, arguments) := fieldNumber r arguments
  let (precision, r, arguments) : Option Nat × List Char × List String := match r with
    | '.' :: r =>
      let (n, r, arguments) := fieldNumber r arguments
      (some (n.getD 0).toNat, r, arguments)
    | r => (none, r, arguments)
  let width := width.getD 0
  let flags := if width < 0 then '-' :: flags else flags
  (⟨flags, width.natAbs, precision, r.headD '\x00'⟩, r.drop 1, arguments)

/-- The text of a directive for an argument, what is wrong with it, and whether it ends all. -/
def Directive.apply (d : Directive) (argument : String) :
    Option (List Char × Option String × Bool) :=
  let named (fault : Option String) := fault.map fun f => argument ++ ": " ++ f
  match d.letter with
  | 's' => some (d.word argument.toList, none, false)
  | 'c' => some (d.pad false [] (argument.toList.take 1), none, false)
  | 'b' =>
    let (t, ended) := unescape (argument.length + 1) argument.toList
    some (d.word t, none, ended)
  | c =>
    if "di".toList.contains c then
      let n := countOf true argument
      some (d.whole n.value, named n.fault, false)
    else if "ouxX".toList.contains c then
      let n := countOf false argument
      some (d.whole n.value, named n.fault, false)
    else if "eEfFgG".toList.contains c then
      let (x, fault) := fractionOf argument
      some (x.render d, named fault, false)
    else none

/-- Fills a format once. -/
def fillOnce : Nat → List Char → List String → Filled
  | 0, _, arguments => ⟨[], [], arguments, true, false⟩
  | _, [], arguments => ⟨[], [], arguments, false, false⟩
  | fuel + 1, '\\' :: s, arguments =>
    match escape? s with
    | some (c, r) => (fillOnce fuel r arguments).after [c] []
    | none => (fillOnce fuel s arguments).after ['\\'] []
  | fuel + 1, '%' :: '%' :: s, arguments => (fillOnce fuel s arguments).after ['%'] []
  | _, ['%'], arguments => ⟨[], ["missing format character"], arguments, true, true⟩
  | fuel + 1, '%' :: s, arguments =>
    let (d, r, arguments) := readDirective s arguments
    match d.apply (arguments.headD "") with
    | none =>
      let directive := '%' :: s.take (s.length - r.length)
      let message := if d.letter = '\x00' then "missing format character"
        else String.ofList directive ++ ": invalid directive"
      ⟨[], [message], arguments, true, true⟩
    | some (t, fault, ended) =>
      if ended then ⟨t, fault.toList, [], true, false⟩
      else (fillOnce fuel r (arguments.drop 1)).after t fault.toList
  | fuel + 1, c :: s, arguments => (fillOnce fuel s arguments).after [c] []

/-- Fills a format until no arguments are left. -/
def fill : Nat → List Char → List String → Filled
  | 0, _, arguments => ⟨[], [], arguments, true, false⟩
  | fuel + 1, format, arguments =>
    let x := fillOnce (format.length + 1) format arguments
    if x.ended || x.arguments.isEmpty || x.arguments.length == arguments.length then x
    else (fill fuel format x.arguments).after x.text x.faults

/-- The status of a filled format. -/
def Filled.status (x : Filled) : Nat :=
  if x.broken then 2 else if x.faults.isEmpty then 0 else 1

end NetPlot.Emulation.Tool
