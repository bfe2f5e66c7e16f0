/-
  Numerals: runs of ASCII digits and what they stand for.

  `digitValue?` reads one digit, up to base sixteen; `numeral` gives a run of digits its value,
  most significant digit first.  `numeral_append_singleton` is the rule a reader works by.
-/

namespace NetPlot.Text

/-- The value of a digit `0`–`9`, `a`–`f` or `A`–`F`. -/
def digitValue? (c : Char) : Option Nat :=
  if '0' ≤ c ∧ c ≤ '9' then some (c.toNat - '0'.toNat)
  else if 'a' ≤ c ∧ c ≤ 'f' then some (c.toNat - 'a'.toNat + 10)
  else if 'A' ≤ c ∧ c ≤ 'F' then some (c.toNat - 'A'.toNat + 10)
  else none

/-- `c` is a digit of the given base. -/
def isDigitIn (base : Nat) (c : Char) : Bool := (digitValue? c).any (· < base)

/-- The value of a run of digits in `base`, the first digit weighing most. -/
def numeral (base : Nat) (digits : List Char) : Nat :=
  digits.foldl (fun n c => base * n + (digitValue? c).getD 0) 0

theorem numeral_append_singleton (base : Nat) (digits : List Char) (c : Char) :
    numeral base (digits ++ [c]) = base * numeral base digits + (digitValue? c).getD 0 := by
  simp [numeral]

/-- `n` in lowercase hexadecimal digits, padded with zeros on the left to `width`. -/
def hexPadded (width n : Nat) : List Char :=
  let digits := Nat.toDigits 16 n
  List.replicate (width - digits.length) '0' ++ digits

example : hexPadded 4 0x1f = ['0', '0', '1', 'f'] := by decide

end NetPlot.Text
