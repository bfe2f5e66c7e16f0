/-
  White space, and cutting it off the ends of a text.

  1. **Program** — `isBlank` is the Unicode property White_Space (the ten ranges of `blankRanges`);
     `skipBlanks` drops a leading run of blanks, `trim` drops one at both ends.

  2. **Reading direction** — texts are scanned as `List Char`, so what a scanner has left is a
     suffix of what it was given: `skipBlanks_suffix` says so, `length_skipBlanks_le` is the form
     that termination arguments use, and `head_skipBlanks` is why a second skip changes nothing.
-/

namespace NetPlot.Text

/-- `c` lies in one of the ranges of code points, both ends included. -/
def inRanges (ranges : List (Nat × Nat)) (c : Char) : Bool :=
  ranges.any fun (lo, hi) => lo ≤ c.toNat && c.toNat ≤ hi

theorem inRanges_iff {ranges : List (Nat × Nat)} {c : Char} :
    inRanges ranges c = true ↔ ∃ r ∈ ranges, r.1 ≤ c.toNat ∧ c.toNat ≤ r.2 := by
  simp [inRanges]

/-- The code points with the property White_Space. -/
def blankRanges : List (Nat × Nat) :=
  [(0x9, 0xD), (0x20, 0x20), (0x85, 0x85), (0xA0, 0xA0), (0x1680, 0x1680), (0x2000, 0x200A),
   (0x2028, 0x2029), (0x202F, 0x202F), (0x205F, 0x205F), (0x3000, 0x3000)]

/-- A character with the property White_Space. -/
def isBlank (c : Char) : Bool := inRanges blankRanges c

/-- Every ASCII white space is blank. -/
theorem isBlank_of_isWhitespace {c : Char} (h : c.isWhitespace = true) : isBlank c = true := by
  simp only [Char.isWhitespace, Bool.or_eq_true, decide_eq_true_eq] at h
  rcases h with ((rfl | rfl) | rfl) | rfl <;> decide

/-! ## Leading blanks -/

/-- `s` from its first character that is not blank. -/
def skipBlanks (s : List Char) : List Char := s.dropWhile isBlank

theorem skipBlanks_suffix (s : List Char) : skipBlanks s <:+ s := List.dropWhile_suffix _

theorem length_skipBlanks_le (s : List Char) : (skipBlanks s).length ≤ s.length :=
  (skipBlanks_suffix s).length_le

/-- What a skip leaves does not begin with a blank. -/
theorem head_skipBlanks {s : List Char} {c : Char} {r : List Char} (h : skipBlanks s = c :: r) :
    isBlank c = false := by
  induction s with
  | nil => simp [skipBlanks] at h
  | cons a t ih =>
    by_cases ha : isBlank a = true
    · exact ih (by simpa [skipBlanks, ha] using h)
    · simp only [skipBlanks, List.dropWhile_cons_of_neg ha] at h
      cases h
      simpa using ha

/-! ## Both ends -/

/-- `s` without the blanks at its end. -/
def dropEndBlanks (s : List Char) : List Char := (s.reverse.dropWhile isBlank).reverse

/-- `s` without the blanks at both ends. -/
def trimChars (s : List Char) : List Char := dropEndBlanks (skipBlanks s)

/-- `s` without the blanks at both ends. -/
def trim (s : String) : String := String.ofList (trimChars s.toList)

example : trim " \u3000a b\n" = "a b" := by decide +kernel

end NetPlot.Text
