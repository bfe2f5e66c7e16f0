/-
  Characters and names of XML.

  1. **Characters** — `isSpace` is the white space between markup, `isXmlChar` what may occur in
     a document at all, `isNameStart` and `isNameChar` what names are made of.

  2. **Names** — `name?` reads a run of name characters that begins as a name does, colons
     included.  `qname?` reads a qualified name: at most one colon, which parts a qualifier from
     the name proper; the qualifier may be empty, the name proper may not.

  A reader gives what it read and the rest of the text; the rest is shorter (`length_of_name?`,
  `length_of_qname?`).
-/
import NetPlot.Text.Blank
import NetPlot.Text.Cut

namespace NetPlot.Xml

open NetPlot.Text

/-! ## Characters -/

/-- White space between markup: space, tab, line feed and carriage return. -/
def isSpace (c : Char) : Bool := c == ' ' || c == '\t' || c == '\n' || c == '\r'

/-- A character that may occur in a document. -/
def isXmlChar (c : Char) : Bool :=
  inRanges [(0x9, 0xA), (0xD, 0xD), (0x20, 0xD7FF), (0xE000, 0xFFFD), (0x10000, 0x10FFFF)] c

/-- The code points with which a name may begin; the colon is not among them. -/
def nameStartRanges : List (Nat × Nat) :=
  [(0x41, 0x5A), (0x5F, 0x5F), (0x61, 0x7A), (0xC0, 0xD6), (0xD8, 0xF6), (0xF8, 0x2FF),
   (0x370, 0x37D), (0x37F, 0x1FFF), (0x200C, 0x200D), (0x2070, 0x218F), (0x2C00, 0x2FEF),
   (0x3001, 0xD7FF), (0xF900, 0xFDCF), (0xFDF0, 0xFFFD), (0x10000, 0xEFFFF)]

/-- A character with which a name without a colon may begin. -/
def isNameStart (c : Char) : Bool := inRanges nameStartRanges c

/-- A character of a name without a colon. -/
def isNameChar (c : Char) : Bool :=
  isNameStart c ||
    inRanges [(0x2D, 0x2E), (0x30, 0x39), (0xB7, 0xB7), (0x300, 0x36F), (0x203F, 0x2040)] c

/-- `s` from its first character that is not white space. -/
def skipSpaces (s : List Char) : List Char := s.dropWhile isSpace

theorem length_skipSpaces_le (s : List Char) : (skipSpaces s).length ≤ s.length :=
  (List.dropWhile_suffix _).length_le

/-! ## Names -/

/-- A qualified name; the qualifier is empty where there is none. -/
structure QName where
  /-- What stands in front of the colon. -/
  qualifier : String
  /-- The name proper. -/
  name : String
  deriving DecidableEq, Repr

/-- The longest run of name characters and colons, and what follows it. -/
def nameRun (s : List Char) : List Char × List Char :=
  splitRun (fun c => isNameChar c || c == ':') s

/-- The name at the front of `s`. -/
def name? (s : List Char) : Option (String × List Char) :=
  match nameRun s with
  | (c :: cs, r) => if isNameStart c || c == ':' then some (String.ofList (c :: cs), r) else none
  | ([], _) => none

/-- The qualified name at the front of `s`. -/
def qname? (s : List Char) : Option (QName × List Char) :=
  let (run, r) := nameRun s
  let (qualifier, proper) := (cutAt [':'] run).getD ([], run)
  if qualifier.head?.all isNameStart && proper.head?.any isNameStart && !proper.contains ':' then
    some (⟨String.ofList qualifier, String.ofList proper⟩, r)
  else none

theorem length_of_name? {s r : List Char} {n : String} (h : name? s = some (n, r)) :
    r.length < s.length := by
  unfold name? at h
  split at h
  next c cs r' hr =>
    have := length_of_splitRun hr
    split at h
    · cases h; simp at this; omega
    · cases h
  next => cases h

theorem length_of_qname? {s r : List Char} {q : QName} (h : qname? s = some (q, r)) :
    r.length < s.length := by
  simp only [qname?, Option.ite_none_right_eq_some, Option.some.injEq, Prod.mk.injEq] at h
  obtain ⟨hp, -, rfl⟩ := h
  have : (nameRun s).1.length + (nameRun s).2.length = s.length := length_splitRun _ s
  cases hr : (nameRun s).1 with
  | nil => simp [hr, cutAt, afterMark?] at hp
  | cons c cs => rw [hr] at this; simp at this; omega

end NetPlot.Xml
