/-
  Labels as text: lines of fields, and records of ports.

  1. **Program** — `sanitize` keeps the characters that no record can misread.  `pretty` writes a
     record on a line, its non-empty fields parted by ` : `.  `record` writes a process with its
     ports: inputs, body and outputs in braces, every port tagged with its name.

  2. **Rules** — empty records at the end leave no lines, empty records before others do.
-/
import NetPlot.Label.Rows

namespace NetPlot.Label

/-- A character without a meaning in record labels. -/
def isFieldChar (c : Char) : Bool := c.isAlphanum || c == '_' || c == '-'

/-- The letters, digits, `_` and `-` of a text, all of them ASCII. -/
def sanitize (s : String) : String := String.ofList (s.toList.filter isFieldChar)

theorem sanitize_chars {s : String} {c : Char} (h : c ∈ (sanitize s).toList) :
    isFieldChar c = true := by
  simp only [sanitize, String.toList_ofList, List.mem_filter] at h
  exact h.2

/-- What is left to show of a record: its sanitised fields, those left empty aside. -/
def shown (record : List String) : List String := (record.map sanitize).filter (· ≠ "")

/-- The lines of a label: one for each record, up to the last one that shows anything. -/
def shownLines (rows : Rows) : List (List String) :=
  ((rows.flatten.map shown).reverse.dropWhile (· = [])).reverse

/-- A label as text. -/
def pretty (rows : Rows) : String :=
  "\n".intercalate ((shownLines rows).map fun fields => " : ".intercalate fields)

/-! ## Ports -/

/-- Which way data goes through a port. -/
inductive Direction where
  | input
  | output
  deriving DecidableEq, Repr

/-- A port is an input if its direction is given as `in`, and an output otherwise. -/
def Direction.ofText (s : String) : Direction := if s = "in" then .input else .output

/-- A port of a process with its evaluated label. -/
structure Port where
  name : String
  direction : Direction
  label : Rows
  deriving DecidableEq, Repr

/-- Does any of the ports go this way? -/
def hasPorts (ports : List Port) (d : Direction) : Bool := ports.any (·.direction = d)

/-! ## Records -/

/-- A port as a field: its tag, then its label. -/
def portField (p : Port) : String := "<" ++ sanitize p.name ++ ">" ++ pretty p.label

/-- The fields of the ports that go one way, in order. -/
def portFields (ports : List Port) (d : Direction) : String :=
  "|".intercalate ((ports.filter (·.direction = d)).map portField)

/-- The record of a process: inputs, body, outputs. -/
def record (process : Rows) (ports : List Port) : String :=
  "\x7b \x7b " ++ portFields ports .input ++ " \x7d | \x7b " ++ pretty process ++ " \x7d | \x7b "
    ++ portFields ports .output ++ " \x7d \x7d"

example : sanitize "a\x7bb\x7d|<c> d_e-f.g" = "abcd_e-fg" := by decide +kernel

end NetPlot.Label
