/-
  Colours: the background of nested frames, and which texts name a colour.

  `background` darkens with the level: every channel starts at 255 and loses its coefficient per
  level, in 32-bit arithmetic that stops at the largest number and at zero.  `isColor` accepts
  `#` with six or eight hexadecimal digits, and plain words.
-/
import NetPlot.Text.Blank
import NetPlot.Text.Numeral

namespace NetPlot.Color

open NetPlot.Text

/-- What red, green and blue lose per level. -/
structure Gradient where
  red : UInt8
  green : UInt8
  blue : UInt8
  deriving DecidableEq, Repr

/-- The largest number of 32 bits. -/
def largest : Nat := 0xFFFFFFFF

/-- A channel at a level: 255 less the loss, which stops at the largest number. -/
def channel (coefficient : UInt8) (level : Nat) : Nat :=
  255 - min (coefficient.toNat * level) largest

/-- The fill of a frame at a level. -/
def background (g : Gradient) (level : Nat) : String :=
  String.ofList ('#' :: [g.red, g.green, g.blue].flatMap fun c => hexPadded 2 (channel c level))

/-- `#RRGGBB`, `#RRGGBBAA`, or letters and digits; blanks around it do not matter. -/
def isColor (s : String) : Bool :=
  match trimChars s.toList with
  | '#' :: hex => (hex.length == 6 || hex.length == 8) && hex.all (isDigitIn 16)
  | [] => false
  | name => name.all Char.isAlphanum

example : background ⟨100, 16, 255⟩ 3 = "#00cf00" := by decide +kernel

end NetPlot.Color
