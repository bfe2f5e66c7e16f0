/-
  Texts cut at their references, once and for all.

  1. **Pieces** — a piece of a text is a segment with what it is written as.  A cut is `Maximal` when
     no text in it is empty, has a reference or stands beside another text, and every reference
     has all digits behind its `$`.

  2. **Splitting** — the segments of a text are a maximal cut of it (`exists_pieces`).  A character
     put in front joins the text that follows, or is a text of its own (`Maximal.exists_consText`).

  3. **Putting in** — a template is rendered piece by piece: values as they are, texts as they are,
     and references to no value without the zeros at their front (`Maximal.flatMap_put`).
-/
import Mathlib.Data.List.TakeWhile
import NetPlot.Proofs.Label.Unbound

namespace NetPlot.Label

open NetPlot.Text

/-! ## Pieces

A cut into segments alone does not show how long a reference was.  With what each segment is written
as, the pieces make up the text again, and `Maximal` can say that no digit is left behind. -/

/-- A segment and what it is written as. -/
structure Piece where
  segment : Segment
  source : List Char

/-- The pieces of a text that is cut at all its references and nowhere else. -/
inductive Maximal : List Piece → Prop
  | nil : Maximal []
  /-- A text is not empty, has no reference in it, and no other text behind it. -/
  | text {s : List Char} {pieces : List Piece} (nonempty : s ≠ [])
      (bare : ∀ digits, ¬ RefersBy s digits)
      (apart : ∀ p ∈ pieces.head?, ∀ t, p.segment ≠ .text t) (rest : Maximal pieces) :
      Maximal (⟨.text s, s⟩ :: pieces)
  /-- A reference is a `$` with all digits behind it; their number is one that it can have. -/
  | reference {digits : List Char} {pieces : List Piece} (isIndex : IsIndex (numeral 10 digits))
      (isDigit : ∀ c ∈ digits, c.isDigit = true)
      (whole : ∀ c ∈ (pieces.flatMap (·.source)).head?, c.isDigit = false) (rest : Maximal pieces) :
      Maximal (⟨.reference (numeral 10 digits), '$' :: digits⟩ :: pieces)

/-! ## Splitting

The reader goes from the front, and what it finds in front is put before the cut of the rest. So the
induction needs one lemma for each thing that may come before a cut. -/

/-- One character alone is no reference, since a reference has a digit at least. -/
theorem not_refersBy_singleton (c : Char) (digits : List Char) : ¬ RefersBy [c] digits := by
  rw [refersBy_cons_iff]
  rintro (⟨-, rfl, hindex⟩ | h)
  · exact absurd hindex.1 (by decide)
  · exact not_refersBy_nil h

/-- A run ends at the end of a text if what follows is not of its class. -/
theorem takeWhile_append_of_head {inClass : Char → Bool} {s r : List Char}
    (hr : ∀ c ∈ r.head?, inClass c = false) :
    (s ++ r).takeWhile inClass = s.takeWhile inClass := by
  have hstop : r.takeWhile inClass = [] := by
    cases r with
    | nil => rfl
    | cons c r => rw [List.takeWhile_cons_of_neg (by simp [hr c rfl])]
  rw [List.takeWhile_append, hstop, List.append_nil]
  split
  next hall => exact (List.takeWhile_prefix _).eq_of_length hall |>.symm
  next => rfl

namespace Maximal

variable {pieces : List Piece}

/-- No digit is behind a text: if anything is, it is the `$` of a reference. -/
theorem head_source (h : Maximal pieces) (hnext : ∀ p ∈ pieces.head?, ∀ t, p.segment ≠ .text t) :
    ∀ c ∈ (pieces.flatMap (·.source)).head?, c.isDigit = false := by
  cases h with
  | nil => rintro c ⟨⟩
  | text => exact absurd rfl (hnext _ rfl _)
  | reference =>
    rintro c ⟨⟩
    rfl

/-- A character in front that begins no reference. -/
theorem exists_consText (h : Maximal pieces) {c : Char}
    (hc : c = '$' → ¬ IsIndex (numeral 10 ((pieces.flatMap (·.source)).takeWhile Char.isDigit))) :
    ∃ pieces', Maximal pieces' ∧
      pieces'.map (·.segment) = Segment.consText c (pieces.map (·.segment)) ∧
      pieces'.flatMap (·.source) = c :: pieces.flatMap (·.source) := by
  -- a character in front joins the first text, or is a text of its own before a reference
  cases h with
  | nil =>
    exact ⟨[⟨.text [c], [c]⟩], .text (List.cons_ne_nil c []) (not_refersBy_singleton c)
      (by rintro p ⟨⟩) .nil, rfl, rfl⟩
  | @text s rest nonempty bare apart hrest =>
    -- the text stays one that holds no reference: a new one would begin at the character itself
    refine ⟨⟨.text (c :: s), c :: s⟩ :: rest, .text (List.cons_ne_nil c s) ?_ apart hrest, rfl, rfl⟩
    intro digits hrefers
    rw [refersBy_cons_iff] at hrefers
    rcases hrefers with ⟨hdollar, rfl, hindex⟩ | hrefers
    · -- the digits behind the `$` end with the text
      rw [List.flatMap_cons, takeWhile_append_of_head (hrest.head_source apart)] at hc
      exact hc hdollar hindex
    · exact bare digits hrefers
  | @reference digits rest isIndex isDigit whole hrest =>
    refine ⟨⟨.text [c], [c]⟩ :: ⟨.reference (numeral 10 digits), '$' :: digits⟩ :: rest,
      .text (List.cons_ne_nil c []) (not_refersBy_singleton c) ?_
        (.reference isIndex isDigit whole hrest), rfl, rfl⟩
    rintro p ⟨⟩ t ⟨⟩

end Maximal

/-- The segments of a text are a maximal cut of it. -/
theorem exists_pieces (s : List Char) :
    ∃ pieces, Maximal pieces ∧ pieces.map (·.segment) = Segment.split s ∧
      pieces.flatMap (·.source) = s := by
  induction s using Segment.split.induct with
  | case1 => exact ⟨[], .nil, by rw [Segment.split]; rfl, rfl⟩
  -- a reference takes its digits, and the cut of what follows is as it was
  | case2 s n r hr ih =>
    obtain ⟨pieces, hmaximal, hsegments, hsources⟩ := ih
    obtain ⟨hindex, rfl, rfl⟩ := reference?_eq_some_iff.1 hr
    refine ⟨⟨.reference _, '$' :: s.takeWhile Char.isDigit⟩ :: pieces,
      .reference hindex isDigit_of_mem_takeWhile ?_ hmaximal, ?_, ?_⟩
    · rw [hsources]
      exact head?_dropWhile_class
    · rw [Segment.split_reference hr, List.map_cons, hsegments]
    · rw [List.flatMap_cons, hsources, List.cons_append, List.takeWhile_append_dropWhile]
  | case3 s hr ih =>
    obtain ⟨pieces, hmaximal, hsegments, hsources⟩ := ih
    have hindex := reference?_eq_none_iff.1 hr
    rw [← hsources] at hindex
    obtain ⟨pieces', hmaximal', hsegments', hsources'⟩ := hmaximal.exists_consText fun _ => hindex
    refine ⟨pieces', hmaximal', ?_, ?_⟩
    · rw [Segment.split_dollar hr, hsegments', hsegments]
    · rw [hsources', hsources]
  | case4 c s hc ih =>
    obtain ⟨pieces, hmaximal, hsegments, hsources⟩ := ih
    obtain ⟨pieces', hmaximal', hsegments', hsources'⟩ :=
      hmaximal.exists_consText fun h => absurd h hc
    refine ⟨pieces', hmaximal', ?_, ?_⟩
    · rw [Segment.split_of_ne hc, hsegments', hsegments]
    · rw [hsources', hsources]

/-! ## Putting in -/

/-- What comes in the place of a piece: the bound value for a reference that has one, `unbound` of
what is written for one that has none, and a text as it is. -/
def Piece.put (values : List String) (unbound : List Char → List Char) (p : Piece) : List Char :=
  match p.segment with
  | .text _ => p.source
  | .reference n =>
    match values[n - 1]? with
    | some v => v.toList
    | none => unbound p.source

/-- A reference without a value is written again without the zeros at its front. -/
theorem withoutZeros_reference {digits : List Char} (hindex : IsIndex (numeral 10 digits))
    (hdigits : ∀ c ∈ digits, c.isDigit = true) :
    withoutZeros ('$' :: digits) = '$' :: (numeral 10 digits).repr.toList := by
  have hall : digits.takeWhile Char.isDigit = digits := List.takeWhile_eq_self_iff.2 hdigits
  have hsame : withoutZeros digits = digits := by
    have happend := withoutZeros_digits hdigits []
    rwa [List.append_nil, withoutZeros, List.append_nil] at happend
  rw [withoutZeros, hall, if_pos ⟨rfl, hindex⟩, hsame, toList_repr_numeral hdigits hindex.1]

/-- Every piece is rendered by itself. -/
theorem Maximal.flatMap_put {pieces : List Piece} (h : Maximal pieces) (values : List String) :
    (pieces.map (·.segment)).flatMap (fun segment => (segment.render values).toList) =
      pieces.flatMap (·.put values withoutZeros) := by
  induction h with
  | nil => rfl
  | text nonempty bare apart rest ih =>
    rw [List.map_cons, List.flatMap_cons, List.flatMap_cons, ih, Segment.render,
      String.toList_ofList]
    rfl
  | @reference digits pieces isIndex isDigit whole rest ih =>
    rw [List.map_cons, List.flatMap_cons, List.flatMap_cons, ih, Segment.render, Piece.put]
    dsimp only
    -- past the values a reference is shown by its number, so the zeros in front of it are gone
    cases values[numeral 10 digits - 1]? with
    | some v => rfl
    | none =>
      rw [Option.getD_none, String.toList_append, withoutZeros_reference isIndex isDigit]
      rfl

/-- A text is cut at all its references and nowhere else: every text between them is as long as it
can be, and every reference takes all digits behind its `$`.  Values come in the places of the
references that they are bound to, as they are and in one pass; all other text is copied, but for
the zeros at the front of references that have no value.  What a template is displayed as is cut
into the same segments again. -/
theorem parse_maximal (text : String) :
    (∃ pieces, Maximal pieces ∧
      pieces.map (·.segment) = (Template.parse text).segments ∧
      pieces.flatMap (·.source) = text.toList ∧
      ∀ values, ((Template.parse text).render values).toList =
        pieces.flatMap (·.put values withoutZeros)) ∧
    Template.parse (Template.parse text).display = Template.parse text := by
  obtain ⟨pieces, hmaximal, hsegments, hsources⟩ := exists_pieces text.toList
  refine ⟨⟨pieces, hmaximal, hsegments, hsources, fun values => ?_⟩,
    Template.parse_display_parse text⟩
  rw [← hmaximal.flatMap_put, hsegments, Template.render, String.toList_join, List.flatMap_map]
  rfl

/-- A reference to no value is not always copied. -/
theorem exists_not_copied : ∃ (text : String) (values : List String) (pieces : List Piece),
    Maximal pieces ∧ pieces.map (·.segment) = (Template.parse text).segments ∧
      pieces.flatMap (·.source) = text.toList ∧
      ((Template.parse text).render values).toList ≠ pieces.flatMap (·.put values id) := by
  refine ⟨"$1-$02", ["a"], [⟨.reference (numeral 10 ['1']), ['$', '1']⟩, ⟨.text ['-'], ['-']⟩,
    ⟨.reference (numeral 10 ['0', '2']), ['$', '0', '2']⟩], ?_, by decide +kernel, by decide,
    by decide +kernel⟩
  refine .reference (by decide) (forall_mem_of_all (by decide)) (by rintro c ⟨⟩; rfl)
    (.text (List.cons_ne_nil _ _) (not_refersBy_singleton _) ?_
      (.reference (by decide) (forall_mem_of_all (by decide)) (by rintro c ⟨⟩) .nil))
  rintro p ⟨⟩ t ⟨⟩

end NetPlot.Label
