/-
  Decimal numbers rounded to binary ones of 53 bits.

  1. **Data** — a `Scaled` number is `m · 2 ^ q`.  Rounded numbers have `m < 2 ^ 53` and
     `q ≥ -1074`, and `m ≥ 2 ^ 52` unless `q` is the least exponent.

  2. **Program** — `roundQuotient` rounds a quotient to the nearest integer, ties to the even one.
     `ofDecimal` brings `d · 10 ^ e` to the exponent at which it has 53 bits and rounds it there;
     a number that is too large has no rounding.
-/

namespace NetPlot.Decimal

/-- `n / d` rounded to the nearest integer, a tie to the even one. -/
def roundQuotient (n d : Nat) : Nat :=
  let q := n / d
  let r := n % d
  if 2 * r < d then q
  else if d < 2 * r then q + 1
  else q + q % 2

/-- A rounded quotient is no further than half a unit away. -/
theorem roundQuotient_bounds {n d : Nat} (h : 0 < d) :
    2 * n ≤ (2 * roundQuotient n d + 1) * d ∧ 2 * roundQuotient n d * d ≤ 2 * n + d := by
  have hn : d * (n / d) + n % d = n := Nat.div_add_mod n d
  have hr : n % d < d := Nat.mod_lt n h
  have expand (k : Nat) : k * d = d * k := Nat.mul_comm k d
  simp only [roundQuotient]
  split
  · rw [expand, expand, Nat.mul_add, ← Nat.mul_assoc, Nat.mul_comm d 2, Nat.mul_assoc]
    omega
  · split
    · rw [expand, expand, Nat.mul_add, ← Nat.mul_assoc, Nat.mul_comm d 2, Nat.mul_assoc,
        Nat.mul_add]
      omega
    · rcases Nat.mod_two_eq_zero_or_one (n / d) with he | he <;> rw [he] <;>
        rw [expand, expand, Nat.mul_add, ← Nat.mul_assoc, Nat.mul_comm d 2, Nat.mul_assoc,
          Nat.mul_add] <;> omega

/-- A power of two; 1 for negative exponents. -/
def twoPow (k : Int) : Nat := Nat.pow 2 k.toNat

/-- A power of ten; 1 for negative exponents. -/
def tenPow (k : Int) : Nat := Nat.pow 10 k.toNat

/-- The number `m · 2 ^ q`. -/
structure Scaled where
  m : Nat
  q : Int
  deriving DecidableEq, Repr

/-- The least exponent. -/
def leastExponent : Int := -1074

/-- The largest exponent that a number of 53 bits may have. -/
def largestExponent : Int := 971

/-- The exponent of the greatest power of two that is at most `n / d`, for positive numbers. -/
def log2Quotient (n d : Nat) : Int :=
  let a : Int := (n.log2 : Int) - d.log2
  if d * twoPow a ≤ n * twoPow (-a) then a else a - 1

/-- `n / d` rounded to 53 bits, or to fewer where the exponent would become too small. -/
def ofQuotient (n d : Nat) : Option Scaled :=
  let q := max leastExponent (log2Quotient n d - 52)
  let m := roundQuotient (n * twoPow (-q)) (d * twoPow q)
  let r : Scaled := if m = twoPow 53 then ⟨twoPow 52, q + 1⟩ else ⟨m, q⟩
  if r.q ≤ largestExponent then some r else none

/-- `digits · 10 ^ e` rounded; none if it is too large. -/
def ofDecimal (digits : Nat) (e : Int) : Option Scaled :=
  let position := ((Nat.toDigits 10 digits).length : Int) + e
  if digits = 0 ∨ position < -400 then some ⟨0, leastExponent⟩
  else if 400 < position then none
  else ofQuotient (digits * tenPow e) (tenPow (-e))

example : ofDecimal 15 (-1) = some ⟨3 * twoPow 51, -52⟩ := by decide +kernel
example : ofDecimal 1 309 = none := by decide +kernel

end NetPlot.Decimal
