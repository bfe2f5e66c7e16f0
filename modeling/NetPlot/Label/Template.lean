/-
  Column templates: query text with references `$n` to bound values.

  1. **Program** — `Template.parse` splits a text at its references: a `$` with the whole run of
     digits after it, when their value is at least one and fits in 64 bits.  Any other `$` is text.
     `render` puts values in for references in one pass; a reference to no value is written out
     again.

  2. **Shape** — texts are never empty and never adjacent: `Segment.consText` joins what it adds
     to the text that follows, and a text without references is one segment (`split_plain`).
-/
import NetPlot.Text.Cut
import NetPlot.Text.Numeral

namespace NetPlot.Label

open NetPlot.Text

/-- A piece of a template. -/
inductive Segment where
  | text (s : List Char)
  /-- The `n`-th bound value, counted from one. -/
  | reference (n : Nat)
  deriving DecidableEq, Repr

/-- A text split at its references. -/
structure Template where
  segments : List Segment
  deriving DecidableEq, Repr

namespace Segment

/-- A character of text in front of segments. -/
def consText (c : Char) : List Segment → List Segment
  | .text s :: r => .text (c :: s) :: r
  | r => .text [c] :: r

/-- The reference after a `$`: its number, and the text after its digits. -/
def reference? (s : List Char) : Option (Nat × List Char) :=
  let (digits, r) := splitRun Char.isDigit s
  let n := numeral 10 digits
  if 0 < n ∧ n < 0x10000000000000000 then some (n, r) else none

theorem length_of_reference? {s r : List Char} {n : Nat} (h : reference? s = some (n, r)) :
    r.length ≤ s.length := by
  simp only [reference?, Option.ite_none_right_eq_some, Option.some.injEq, Prod.mk.injEq] at h
  obtain ⟨-, -, rfl⟩ := h
  have := length_splitRun Char.isDigit s
  omega

/-- The segments of a text. -/
def split : List Char → List Segment
  | [] => []
  | c :: s =>
    if c = '$' then
      match _h : reference? s with
      | some (n, r) => .reference n :: split r
      | none => consText '$' (split s)
    else consText c (split s)
termination_by s => s.length
decreasing_by
  · have := length_of_reference? _h; simp only [List.length_cons]; omega
  · simp
  · simp

/-- A text without references is one segment. -/
theorem split_plain {s : List Char} (h : '$' ∉ s) : split s = if s = [] then [] else [.text s] := by
  induction s with
  | nil => simp [split]
  | cons c s ih =>
    obtain ⟨hc, hs⟩ : c ≠ '$' ∧ '$' ∉ s := by
      rw [List.mem_cons, not_or] at h
      exact ⟨fun e => h.1 e.symm, h.2⟩
    rw [split, if_neg hc, ih hs]
    cases s with
    | nil => rfl
    | cons d s => rfl

/-- What a segment stands for when `values` are bound. -/
def render (values : List String) : Segment → String
  | .text s => String.ofList s
  | .reference n => values[n - 1]?.getD ("$" ++ n.repr)

end Segment

namespace Template

/-- The template that a text is. -/
def parse (text : String) : Template := ⟨Segment.split text.toList⟩

/-- Does any value have to be put in? -/
def hasReferences (t : Template) : Bool :=
  t.segments.any fun
    | .reference _ => true
    | .text _ => false

/-- The text with `values` put in for the references. -/
def render (t : Template) (values : List String) : String :=
  String.join (t.segments.map (·.render values))

/-- The text with nothing put in. -/
def display (t : Template) : String := t.render []

end Template

example : (Template.parse "a$2$0").segments = [.text ['a'], .reference 2, .text ['$', '0']] := by cbv

end NetPlot.Label
