/-
  The shortest decimal that reads back as a binary number.

  1. **Specification** — a decimal reads back as `m · 2 ^ q` when it lies in the interval of
     numbers that round there; the ends belong to the interval iff `m` is even (`readsBack`).

  2. **Program** — `shortest` tries one digit, two digits, and so on.  On each decimal grid only
     the two neighbours of the number matter; the first grid with a hit wins, and of two hits the
     nearer one.  `positional` writes digits without an exponent.
-/
import NetPlot.Decimal.Binary

namespace NetPlot.Decimal

/-- The decimal number `c · 10 ^ s`. -/
structure Digits where
  c : Nat
  s : Int
  deriving DecidableEq, Repr

/-! ## Comparison

A number `m · 2 ^ q` is `4 m` quarters of a unit; all comparisons are of whole numbers, after both
sides have been multiplied by what their exponents call for. -/

/-- The factor of a decimal `c · 10 ^ s` against quarters of `2 ^ q`. -/
def decimalFactor (q s : Int) : Nat := tenPow s * twoPow (2 - q)

/-- The factor of quarters of `2 ^ q` against a decimal `c · 10 ^ s`. -/
def quarterFactor (q s : Int) : Nat := tenPow (-s) * twoPow (q - 2)

/-- How far down the numbers that round to `x` reach, in quarters: half a unit, or half of the
next smaller unit right above a power of two. -/
def reachDown (x : Scaled) : Nat :=
  if x.m = twoPow 52 ∧ leastExponent < x.q then 1 else 2

/-- Does the decimal round to `x`? -/
def readsBack (x : Scaled) (d : Digits) : Bool :=
  let v := d.c * decimalFactor x.q d.s
  let low := (4 * x.m - reachDown x) * quarterFactor x.q d.s
  let high := (4 * x.m + 2) * quarterFactor x.q d.s
  if x.m % 2 = 0 then low ≤ v && v ≤ high else low < v && v < high

/-! ## The search -/

/-- The greatest decimal with exponent `s` that is at most `x`. -/
def below (x : Scaled) (s : Int) : Nat :=
  4 * x.m * quarterFactor x.q s / decimalFactor x.q s

/-- The hit of the grid with exponent `s`: of the two neighbours of `x` the nearer one. -/
def hit? (x : Scaled) (s : Int) : Option Digits :=
  let lower : Digits := ⟨below x s, s⟩
  let upper : Digits := ⟨below x s + 1, s⟩
  let v := 4 * x.m * quarterFactor x.q s
  let down := v - lower.c * decimalFactor x.q s
  let up := upper.c * decimalFactor x.q s - v
  match readsBack x lower, readsBack x upper with
  | true, true =>
    some (if down < up ∨ (down = up ∧ lower.c % 2 = 0) then lower else upper)
  | true, false => some lower
  | false, true => some upper
  | false, false => none

/-- The number of digits in front of the point of a positive number; not positive for a number
below one tenth. -/
def position (x : Scaled) : Int :=
  let whole := x.m * twoPow x.q / twoPow (-x.q)
  if 0 < whole then (Nat.toDigits 10 whole).length
  else
    -- the fraction scaled up by a power of ten that makes it whole
    let up := -x.q
    (Nat.toDigits 10 (x.m * tenPow up / twoPow up)).length - up

/-- The same decimal with a zero at its end taken into the exponent. -/
def Digits.carry (d : Digits) : Digits := if d.c = 10 then ⟨1, d.s + 1⟩ else d

/-- The shortest decimal that reads back as `x`; seventeen digits are always enough.  Just below a
power of ten the hit is that power, and its zero is carried. -/
def shortest (x : Scaled) : Digits :=
  if x.m = 0 then ⟨0, 0⟩
  else
    (((List.range 17).findSome? fun n => hit? x (position x - (n + 1 : Nat))).getD ⟨0, 0⟩).carry

/-! ## Writing digits -/

/-- The decimal in positional notation, with at least one digit on both sides of the point. -/
def positional (d : Digits) : String :=
  let digits := Nat.toDigits 10 d.c
  if 0 ≤ d.s then String.ofList (digits ++ List.replicate d.s.toNat '0' ++ ['.', '0'])
  else
    let places := (-d.s).toNat
    let padded := List.replicate (places + 1 - digits.length) '0' ++ digits
    let whole := padded.take (padded.length - places)
    String.ofList (whole ++ '.' :: padded.drop (padded.length - places))

example : (ofDecimal 1 (-1)).map (positional ∘ shortest) = some "0.1" := by decide +kernel
example : (ofDecimal 5 (-324)).map shortest = some ⟨5, -324⟩ := by decide +kernel

end NetPlot.Decimal
