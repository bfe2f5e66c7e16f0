/-
  References, and the white space that stands beside them.

  1. **References** — `reference?` reads what follows an ampersand: a character by number, or one
     of the five named entities.  `pieces?` resolves all references of a text and remembers which
     characters came from one.

  2. **Attribute values** — every line end and tab written as such is one space; referenced
     characters stand as they are (`attributeValue?`).

  3. **Text** — every line end written as such is one line feed, referenced characters stand as
     they are, and so does a carriage return that touches a reference at its right, or at its left
     when it ends the run (`lineEnds`).  Text without carriage returns and references is kept
     (`lineEnds_plain`).
-/
import NetPlot.Text.Numeral
import NetPlot.Xml.Name

namespace NetPlot.Xml

open NetPlot.Text

/-! ## References -/

/-- The character with code point `n`; U+FFFD where there is none. -/
def charOf (n : Nat) : Char := if n.isValidChar then Char.ofNat n else '\uFFFD'

/-- A character given by number, in decimal after `#` or in hexadecimal after `#x`. -/
def numbered? (base : Nat) (s : List Char) : Option (Char × List Char) :=
  match splitRun (isDigitIn base) s with
  | (d :: ds, ';' :: r) =>
    if numeral base (d :: ds) < 0x100000000 ∧ isXmlChar (charOf (numeral base (d :: ds))) then
      some (charOf (numeral base (d :: ds)), r)
    else none
  | _ => none

/-- The entities that every document may use. -/
def entity? : String → Option Char
  | "lt" => some '<'
  | "gt" => some '>'
  | "amp" => some '&'
  | "apos" => some '\''
  | "quot" => some '"'
  | _ => none

/-- The reference after an ampersand. -/
def reference? (s : List Char) : Option (Char × List Char) :=
  if let some r := afterMark? ['#', 'x'] s then numbered? 16 r
  else if let some r := afterMark? ['#'] s then numbered? 10 r
  else do
    let (n, r) ← name? s
    let r ← afterMark? [';'] r
    some (← entity? n, r)

theorem length_of_numbered? {base : Nat} {s r : List Char} {c : Char}
    (h : numbered? base s = some (c, r)) : r.length < s.length := by
  unfold numbered? at h
  split at h
  next d ds r' hs =>
    have := length_of_splitRun hs
    split at h
    · cases h; simp only [List.length_cons] at this; omega
    · cases h
  next => cases h

/-- A reference takes at least one character. -/
theorem length_of_reference? {s r : List Char} {c : Char} (h : reference? s = some (c, r)) :
    r.length < s.length := by
  unfold reference? at h
  split at h
  next hm => have := length_afterMark? hm; have := length_of_numbered? h; omega
  split at h
  next hm => have := length_afterMark? hm; have := length_of_numbered? h; omega
  simp only [Option.bind_eq_bind, Option.bind_eq_some_iff, Option.some.injEq, Prod.mk.injEq] at h
  obtain ⟨⟨n, r'⟩, hn, r'', hr, c', -, -, rfl⟩ := h
  have := length_of_name? hn
  have := length_afterMark? hr
  simp only at *; omega

/-! ## Resolved text -/

/-- A character of resolved text: one written as such, or one that a reference stood for. -/
inductive Piece where
  | plain (c : Char)
  | referenced (c : Char)
  deriving DecidableEq, Repr

/-- The characters of `s`, its references resolved. -/
def pieces? : List Char → Option (List Piece)
  | [] => some []
  | c :: s =>
    if c = '&' then
      match _h : reference? s with
      | some (c, r) => (pieces? r).map (.referenced c :: ·)
      | none => none
    else (pieces? s).map (.plain c :: ·)
termination_by s => s.length
decreasing_by
  · have := length_of_reference? _h; simp; omega
  · simp

/-! ## Attribute values -/

/-- Line ends and tabs become spaces, a carriage return and line feed together one. -/
def spaceEnds : List Piece → List Char
  | [] => []
  | .referenced c :: ps => c :: spaceEnds ps
  | .plain '\r' :: .plain '\n' :: ps => ' ' :: spaceEnds ps
  | .plain c :: ps => (if isSpace c then ' ' else c) :: spaceEnds ps

/-- The value of an attribute written as `raw`. -/
def attributeValue? (raw : List Char) : Option String :=
  (pieces? raw).map fun ps => String.ofList (spaceEnds ps)

/-! ## Text -/

/-- Line ends become line feeds; `beside` says that a reference came just before. -/
def lineEnds (beside : Bool) : List Piece → List Char
  | [] => []
  | .referenced c :: ps => c :: lineEnds true ps
  | [.plain '\r'] => [if beside then '\r' else '\n']
  | .plain '\r' :: .referenced c :: ps => '\r' :: c :: lineEnds true ps
  | .plain '\r' :: .plain '\n' :: ps => '\n' :: lineEnds false ps
  | .plain '\r' :: ps => '\n' :: lineEnds false ps
  | .plain c :: ps => c :: lineEnds false ps

/-- Text without carriage returns and references stands as it is. -/
theorem lineEnds_plain {s : List Char} (h : '\r' ∉ s) (beside : Bool) :
    lineEnds beside (s.map .plain) = s := by
  induction s generalizing beside with
  | nil => rfl
  | cons c s ih =>
    simp only [List.mem_cons, not_or] at h
    rw [List.map_cons, lineEnds, ih h.2] <;> intros <;> exact h.1 (Eq.symm ‹c = '\r'›)

/-- The text that the character data `raw` stands for. -/
def textValue? (raw : List Char) : Option (List Char) := (pieces? raw).map (lineEnds false)

/-- The text of a CDATA section, in which an ampersand is no reference. -/
def cdataValue (raw : List Char) : List Char := lineEnds false (raw.map .plain)

example : textValue? "a\r\nb&lt;\rc\r".toList = some "a\nb<\nc\n".toList := by cbv
example : attributeValue? "a\r\n\tb&lt;".toList = some "a  b<" := by cbv

end NetPlot.Xml
