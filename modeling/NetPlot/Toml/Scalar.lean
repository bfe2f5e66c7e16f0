/-
  TOML values that stand without quotes: booleans, numbers and moments.

  Such a value is a run of letters, digits and `+ - . : _`; only a date may be followed by one
  space and a time.  Every reader below takes a whole run and says whether it is what the reader
  is for, so the kinds exclude each other by their form.
-/
import NetPlot.Toml.Value

namespace NetPlot.Toml

open NetPlot.Text NetPlot.Decimal

/-! ## Numbers -/

/-- A sign, if there is one, and the rest. -/
def splitSign : List Char → Bool × List Char
  | '+' :: s => (false, s)
  | '-' :: s => (true, s)
  | s => (false, s)

/-- The digits of a run in which single underscores stand between digits. -/
def digits? (base : Nat) : List Char → Option (List Char)
  | [] => none
  | [c] => if isDigitIn base c then some [c] else none
  | c :: '_' :: s => if isDigitIn base c then (digits? base s).map (c :: ·) else none
  | c :: s => if isDigitIn base c then (digits? base s).map (c :: ·) else none

/-- Digits without a zero in front of others. -/
def whole? (s : List Char) : Option (List Char) :=
  match digits? 10 s with
  | some ('0' :: _ :: _) => none
  | ds => ds

/-- The value of a number: an integer if it fits in 64 bits with a sign. -/
def integerOf (negative : Bool) (n : Nat) : Value :=
  let i : Int := if negative then -(n : Int) else n
  if -0x8000000000000000 ≤ i ∧ i < 0x8000000000000000 then .integer i else .excess

/-- An integer, with a sign in base ten only. -/
def integer? (s : List Char) : Option Value :=
  match s with
  | '0' :: 'x' :: ds => (digits? 16 ds).map fun ds => integerOf false (numeral 16 ds)
  | '0' :: 'o' :: ds => (digits? 8 ds).map fun ds => integerOf false (numeral 8 ds)
  | '0' :: 'b' :: ds => (digits? 2 ds).map fun ds => integerOf false (numeral 2 ds)
  | s =>
    let (negative, ds) := splitSign s
    (whole? ds).map fun ds => integerOf negative (numeral 10 ds)

/-- The exponent after `e`, zero where there is none. -/
def exponent? : List Char → Option Int
  | [] => some 0
  | _ :: s =>
    let (negative, ds) := splitSign s
    (digits? 10 ds).map fun ds => if negative then -(numeral 10 ds : Int) else numeral 10 ds

/-- A number with a fraction, an exponent or both. -/
def decimal? (s : List Char) : Option Value := do
  let (negative, s) := splitSign s
  let (mantissa, e) := splitRun (fun c => c != 'e' && c != 'E') s
  let (front, back) := splitRun (· != '.') mantissa
  if back = [] ∧ e = [] then none
  let ds ← whole? front
  let fs ← if back = [] then some [] else digits? 10 (back.drop 1)
  let e ← exponent? e
  match ofDecimal (numeral 10 (ds ++ fs)) (e - fs.length) with
  | some x => some (.floating (.finite negative x))
  | none => some .excess

/-- A floating number. -/
def floating? (s : List Char) : Option Value :=
  match splitSign s with
  | (negative, ['i', 'n', 'f']) => some (.floating (.infinite negative))
  | (_, ['n', 'a', 'n']) => some (.floating .nan)
  | _ => decimal? s

/-! ## Moments -/

/-- A number of exactly `n` digits at the front of a text. -/
def fixed? (n : Nat) (s : List Char) : Option (Nat × List Char) :=
  if (s.take n).length = n ∧ (s.take n).all Char.isDigit then
    some (numeral 10 (s.take n), s.drop n)
  else none

/-- The number of days of a month. -/
def daysIn (year month : Nat) : Nat :=
  if month = 2 then
    if year % 4 = 0 ∧ (year % 100 ≠ 0 ∨ year % 400 = 0) then 29 else 28
  else if month = 4 ∨ month = 6 ∨ month = 9 ∨ month = 11 then 30
  else 31

/-- A date at the front of a text. -/
def date? (s : List Char) : Option (Date × List Char) := do
  let (year, s) ← fixed? 4 s
  let (month, s) ← fixed? 2 (← afterMark? ['-'] s)
  let (day, s) ← fixed? 2 (← afterMark? ['-'] s)
  if 1 ≤ month ∧ month ≤ 12 ∧ 1 ≤ day ∧ day ≤ daysIn year month then
    some (⟨year, month, day⟩, s)
  else none

/-- Nanoseconds from the digits of a fraction; digits beyond the ninth do not count. -/
def nanoseconds (fraction : List Char) : Nat :=
  numeral 10 (fraction.take 9 ++ List.replicate (9 - fraction.length) '0')

/-- The digits of a fraction of a second; none where no point is. -/
def fraction? (s : List Char) : Option (List Char × List Char) :=
  match s with
  | '.' :: r =>
    match splitRun Char.isDigit r with
    | ([], _) => none
    | (run, r) => some (run, r)
  | s => some ([], s)

/-- Seconds with their fraction; there may be none at all. -/
def seconds? (s : List Char) : Option ((Nat × Nat) × List Char) :=
  match afterMark? [':'] s with
  | none => some ((0, 0), s)
  | some r => do
    let (second, r) ← fixed? 2 r
    let (fraction, r) ← fraction? r
    some ((second, nanoseconds fraction), r)

/-- A time at the front of a text; seconds may be missing. -/
def time? (s : List Char) : Option (Time × List Char) := do
  let (hour, s) ← fixed? 2 s
  let (minute, s) ← fixed? 2 (← afterMark? [':'] s)
  let ((second, nanosecond), s) ← seconds? s
  if hour ≤ 23 ∧ minute ≤ 59 ∧ second ≤ 60 then some (⟨hour, minute, second, nanosecond⟩, s)
  else none

/-- What follows the time of a moment that has a date. -/
def offset? : List Char → Option (Option Offset)
  | [] => some none
  | ['Z'] => some (some .universal)
  | ['z'] => some (some .universal)
  | c :: s => do
    if c ≠ '+' ∧ c ≠ '-' then none
    let (hours, s) ← fixed? 2 s
    let (minutes, s) ← fixed? 2 (← afterMark? [':'] s)
    let n : Int := hours * 60 + minutes
    if s = [] ∧ hours ≤ 23 ∧ minutes ≤ 59 then
      some (some (.minutes (if c = '-' then -n else n)))
    else none

/-- A moment. -/
def moment? (s : List Char) : Option Moment :=
  match date? s with
  | some (d, []) => some ⟨some d, none, none⟩
  | some (d, c :: r) => do
    if c ≠ 'T' ∧ c ≠ 't' ∧ c ≠ ' ' then none
    let (t, r) ← time? r
    let o ← offset? r
    some ⟨some d, some t, o⟩
  | none =>
    match time? s with
    | some (t, []) => some ⟨none, some t, none⟩
    | _ => none

/-! ## Runs -/

/-- A character of a value without quotes. -/
def isScalarChar (c : Char) : Bool :=
  c.isAlphanum || c == '+' || c == '-' || c == '.' || c == ':' || c == '_'

/-- The value that a run is. -/
def scalarOf? (run : List Char) : Option Value :=
  match run with
  | ['t', 'r', 'u', 'e'] => some (.boolean true)
  | ['f', 'a', 'l', 's', 'e'] => some (.boolean false)
  | _ =>
    match integer? run with
    | some v => some v
    | none =>
      match floating? run with
      | some v => some v
      | none => (moment? run).map .moment

/-- A run, and a time after a date and a space as part of it. -/
def scalarRun (s : List Char) : List Char × List Char :=
  let (run, r) := splitRun isScalarChar s
  match r with
  | ' ' :: c :: cs =>
    if c.isDigit && (date? run).any (·.2 == []) then
      let (more, r) := splitRun isScalarChar (c :: cs)
      (run ++ ' ' :: more, r)
    else (run, r)
  | _ => (run, r)

/-- The value at the front of a text. -/
def scalar? (s : List Char) : Option (Value × List Char) :=
  match scalarRun s with
  | ([], _) => none
  | (run, r) => (scalarOf? run).map (·, r)

theorem length_scalarRun (s : List Char) :
    (scalarRun s).1.length + (scalarRun s).2.length = s.length := by
  have h := length_splitRun isScalarChar s
  unfold scalarRun
  simp only
  split
  next c cs hr =>
    split
    · have h' := length_splitRun isScalarChar (c :: cs)
      rw [hr] at h
      simp only [List.length_append, List.length_cons] at *
      omega
    · exact h
  next => exact h

theorem length_of_scalar? {s r : List Char} {v : Value} (h : scalar? s = some (v, r)) :
    r.length < s.length := by
  have hl := length_scalarRun s
  unfold scalar? at h
  split at h
  · cases h
  next run r' hne hs =>
    simp only [Option.map_eq_some_iff, Prod.mk.injEq] at h
    obtain ⟨_, -, -, rfl⟩ := h
    rw [hs] at hl
    cases run with
    | nil => exact (hne rfl).elim
    | cons c cs => simp at hl; omega

end NetPlot.Toml
