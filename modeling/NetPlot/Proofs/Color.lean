/-
  The fill of a frame, exactly.

  1. **Digits** — a number that fits in the width is written with as many lowercase digits, which are
     read back as the number (`length_hexPadded`, `mem_hexPadded`, `numeral_hexPadded`).

  2. **Channels** — 32 bits are enough: where the loss stops at the largest number, nothing would be
     left of the channel anyway (`channel_eq`).

  3. **Fills** — so a fill is `#` and three channels of two digits each (`exists_digits_background`),
     whatever the level is.
-/
import Mathlib.Algebra.Group.Nat.Defs
import Mathlib.Data.List.Forall2
import NetPlot.Color
import NetPlot.Proofs.Text.Classes
import NetPlot.Proofs.Text.Ends

namespace NetPlot

namespace Text

/-! ## Digits

Numbers are written by the repeated division of the standard library, last digit first.  The
inductions follow it: one digit below 16, and one digit more from there on. -/

/-- The lowercase hexadecimal digits. -/
def hexDigits : List Char := "0123456789abcdef".toList

/-- The sixteen digits, one by one. -/
theorem digitChar_hex : ∀ d < 16, d.digitChar ∈ hexDigits ∧ digitValue? d.digitChar = some d := by
  decide

theorem isDigitIn_of_mem_hexDigits : ∀ c ∈ hexDigits, isDigitIn 16 c = true :=
  forall_mem_of_all (by decide +kernel)

theorem isBlank_of_mem_hexDigits : ∀ c ∈ hexDigits, isBlank c = false :=
  forall_mem_of_all (by decide +kernel)

/-- All digits of a number are hexadecimal ones. -/
theorem mem_toDigits (n : Nat) : ∀ c ∈ Nat.toDigits 16 n, c ∈ hexDigits := by
  induction n using Nat.strongRecOn with
  | ind n ih =>
    intro c hc
    -- one digit, or those of the quotient and one more for the remainder
    rcases Nat.lt_or_ge n 16 with hlt | hge
    · rw [Nat.toDigits_of_lt_base hlt, List.mem_singleton] at hc
      exact hc ▸ (digitChar_hex n hlt).1
    · rw [Nat.toDigits_of_base_le (by omega) hge, List.mem_append, List.mem_singleton] at hc
      rcases hc with hc | rfl
      · exact ih (n / 16) (by omega) c hc
      · exact (digitChar_hex (n % 16) (by omega)).1

/-- A number is read back from its digits. -/
theorem numeral_toDigits (n : Nat) : numeral 16 (Nat.toDigits 16 n) = n := by
  induction n using Nat.strongRecOn with
  | ind n ih =>
    rcases Nat.lt_or_ge n 16 with hlt | hge
    · rw [Nat.toDigits_of_lt_base hlt]
      change 16 * 0 + (digitValue? n.digitChar).getD 0 = n
      rw [(digitChar_hex n hlt).2]
      simp
    · rw [Nat.toDigits_of_base_le (by omega) hge, numeral_append_singleton, ih (n / 16) (by omega),
        (digitChar_hex (n % 16) (by omega)).2]
      exact Nat.div_add_mod n 16

/-- Zeros in front of a numeral do not count. -/
theorem numeral_zeros_append (base k : Nat) (ds : List Char) :
    numeral base (List.replicate k '0' ++ ds) = numeral base ds := by
  have hzero : digitValue? '0' = some 0 := by decide
  induction k with
  | zero => rfl
  | succ k ih =>
    rw [List.replicate_succ, List.cons_append, ← ih, numeral, List.foldl_cons, hzero]
    rfl

section

variable {width n : Nat}

/-- Zeros in front fill the width. -/
theorem length_hexPadded (hw : 0 < width) (h : n < 16 ^ width) :
    (hexPadded width n).length = width := by
  have hdigits := (Nat.length_toDigits_le_iff (by omega) hw).2 h
  rw [hexPadded, List.length_append, List.length_replicate]
  omega

/-- A filled number is written with hexadecimal digits alone, as the zeros in front are digits too.
-/
theorem mem_hexPadded : ∀ c ∈ hexPadded width n, c ∈ hexDigits := by
  intro c hc
  rw [hexPadded, List.mem_append] at hc
  rcases hc with hc | hc
  · rw [List.eq_of_mem_replicate hc]
    decide
  · exact mem_toDigits n c hc

/-- The zeros in front do not change what is read. -/
theorem numeral_hexPadded : numeral 16 (hexPadded width n) = n :=
  (numeral_zeros_append 16 _ _).trans (numeral_toDigits n)

end

end Text

namespace Color

open NetPlot.Text

/-! ## Channels

The program counts in 32 bits and stops at the largest number, and the statements are about natural
numbers.  `channel_eq` leads from the one to the other; what follows is arithmetic. -/

/-- A channel is what is left of 255 in exact arithmetic, and nothing if the loss is larger. -/
theorem channel_eq (coefficient : UInt8) (level : Nat) :
    (channel coefficient level : Int) = max 0 (255 - (coefficient.toNat : Int) * level) := by
  have hlargest : 255 ≤ largest := by decide
  rw [channel, ← Int.natCast_mul]
  omega

/-- A channel fits in two digits. -/
theorem channel_lt (coefficient : UInt8) (level : Nat) : channel coefficient level < 16 ^ 2 := by
  rw [channel]
  omega

/-- A channel is written with two digits. -/
theorem length_channel (coefficient : UInt8) (level : Nat) :
    (hexPadded 2 (channel coefficient level)).length = 2 :=
  length_hexPadded (by omega) (channel_lt coefficient level)

/-- A channel does not grow with the level. -/
theorem channel_add_le (coefficient : UInt8) (level more : Nat) :
    channel coefficient (level + more) ≤ channel coefficient level := by
  rw [channel, channel, Nat.mul_add]
  omega

/-! ## Fills -/

/-- Red, green and blue of a fill as they are read; nothing from a text of another form. -/
def shades (fill : String) : List Nat :=
  match fill.toList with
  | ['#', r, r', g, g', b, b'] => [numeral 16 [r, r'], numeral 16 [g, g'], numeral 16 [b, b']]
  | _ => []

section

variable (g : Gradient) (level : Nat)

theorem toList_background :
    (background g level).toList =
      '#' :: [g.red, g.green, g.blue].flatMap fun c => hexPadded 2 (channel c level) :=
  String.toList_ofList

/-- The fill is read as its channels. -/
theorem shades_background :
    shades (background g level) = [g.red, g.green, g.blue].map (channel · level) := by
  obtain ⟨r, r', hr⟩ := List.length_eq_two.1 (length_channel g.red level)
  obtain ⟨h, h', hh⟩ := List.length_eq_two.1 (length_channel g.green level)
  obtain ⟨b, b', hb⟩ := List.length_eq_two.1 (length_channel g.blue level)
  -- each channel has two digits, so the six can be read off in pairs
  have htext : (background g level).toList = ['#', r, r', h, h', b, b'] := by
    rw [toList_background]
    simp [hr, hh, hb]
  rw [shades, htext]
  change [numeral 16 [r, r'], numeral 16 [h, h'], numeral 16 [b, b']] = _
  rw [← hr, ← hh, ← hb]
  simp only [numeral_hexPadded, List.map_cons, List.map_nil]

/-- A fill is `#` and six digits. -/
theorem exists_digits_background :
    ∃ digits, (background g level).toList = '#' :: digits ∧ digits.length = 6 ∧
      digits ⊆ hexDigits := by
  refine ⟨_, toList_background g level, by simp [length_channel], fun c hc => ?_⟩
  obtain ⟨coefficient, -, hdigit⟩ := List.mem_flatMap.1 hc
  exact mem_hexPadded c hdigit

end

/-- Six digits behind `#` are a colour. -/
theorem isColor_of_digits {s : String} {digits : List Char} (hs : s.toList = '#' :: digits)
    (hlength : digits.length = 6) (hdigits : digits ⊆ hexDigits) : isColor s = true := by
  -- the mark in front and the digits behind it are no blanks, so trimming leaves the text alone
  have htrimmed : Trimmed s.toList := by
    rw [hs]
    refine ⟨?_, fun c hc => ?_⟩
    · rintro c ⟨⟩
      rfl
    · rcases List.mem_cons.1 (List.mem_of_getLast? hc) with rfl | hmem
      · rfl
      · exact isBlank_of_mem_hexDigits c (hdigits hmem)
  rw [isColor, trimChars_of_trimmed htrimmed, hs]
  have hall : digits.all (isDigitIn 16) = true :=
    List.all_eq_true.2 fun c hc => isDigitIn_of_mem_hexDigits c (hdigits hc)
  change ((digits.length == 6 || digits.length == 8) && digits.all (isDigitIn 16)) = true
  rw [hlength, hall]
  rfl

/-- A fill is `#` and three channels of two lowercase hexadecimal digits, each of them exactly what is
left of 255 at the level; it is a colour of seven characters, and no channel grows with the level. -/
theorem background_exact (g : Gradient) (level : Nat) :
    (∃ digits, (background g level).toList = '#' :: digits ∧ digits.length = 6 ∧
      digits ⊆ hexDigits) ∧
    (shades (background g level)).map Int.ofNat =
      [g.red, g.green, g.blue].map (fun c => max 0 (255 - (c.toNat : Int) * level)) ∧
    (background g level).length = 7 ∧ isColor (background g level) = true ∧
    ∀ more, List.Forall₂ (· ≤ ·) (shades (background g (level + more)))
      (shades (background g level)) := by
  obtain ⟨digits, htext, hlength, hdigits⟩ := exists_digits_background g level
  refine ⟨⟨digits, htext, hlength, hdigits⟩, ?_, ?_, isColor_of_digits htext hlength hdigits,
    fun more => ?_⟩
  · rw [shades_background, List.map_map]
    exact List.map_congr_left fun c _ => channel_eq c level
  · rw [← String.length_toList, htext, List.length_cons, hlength]
  · rw [shades_background, shades_background, List.forall₂_map_left_iff, List.forall₂_map_right_iff,
      List.forall₂_same]
    exact fun c _ => channel_add_le c level more

end Color

end NetPlot
