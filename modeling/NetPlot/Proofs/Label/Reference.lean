/-
  The references of a text.

  A text `RefersBy` digits to a bound value where a `$` stands in front of them and no digit behind
  them.  Such a place is at the front of a text or further back (`refersBy_cons_iff`), so by the
  recursion of the reader the references of a template are those of its text
  (`reference_mem_split_iff`).
-/
import NetPlot.Proofs.Label.Template

namespace NetPlot.Label

open NetPlot.Text

/-- A number that a reference can have: not zero, and below the 64th power of two. -/
def IsIndex (n : Nat) : Prop := 0 < n ∧ n < 0x10000000000000000

instance (n : Nat) : Decidable (IsIndex n) := inferInstanceAs (Decidable (_ ∧ _))

/-- There is a reference in a text: a `$`, and behind it digits that no other digit follows. -/
structure RefersBy (s digits : List Char) : Prop where
  stands : ∃ a b, s = a ++ '$' :: (digits ++ b) ∧ ∀ c ∈ b.head?, c.isDigit = false
  isDigit : ∀ c ∈ digits, c.isDigit = true
  isIndex : IsIndex (numeral 10 digits)

/-- A reference is a run of digits, as long as it can be, with a number that one can have. -/
theorem reference?_eq_ite (s : List Char) :
    Segment.reference? s =
      if IsIndex (numeral 10 (s.takeWhile Char.isDigit)) then
        some (numeral 10 (s.takeWhile Char.isDigit), s.dropWhile Char.isDigit)
      else none := Segment.reference?_eq s

theorem reference?_eq_some_iff {s r : List Char} {n : Nat} :
    Segment.reference? s = some (n, r) ↔ IsIndex (numeral 10 (s.takeWhile Char.isDigit)) ∧
      numeral 10 (s.takeWhile Char.isDigit) = n ∧ s.dropWhile Char.isDigit = r := by
  rw [reference?_eq_ite, Option.ite_none_right_eq_some, Option.some.injEq, Prod.mk.injEq]

/-- Behind a `$` there is no reference if the digits there are no index. -/
theorem reference?_eq_none_iff {s : List Char} :
    Segment.reference? s = none ↔ ¬ IsIndex (numeral 10 (s.takeWhile Char.isDigit)) := by
  simp [reference?_eq_ite]

theorem isDigit_of_mem_takeWhile {s : List Char} :
    ∀ c ∈ s.takeWhile Char.isDigit, c.isDigit = true :=
  List.all_eq_true.1 List.all_takeWhile

section

variable {s t digits : List Char}

theorem RefersBy.of_suffix (hsuffix : s <:+ t) (h : RefersBy s digits) : RefersBy t digits := by
  obtain ⟨k, rfl⟩ := hsuffix
  obtain ⟨a, b, hs, hb⟩ := h.stands
  exact ⟨⟨k ++ a, b, by rw [hs, List.append_assoc], hb⟩, h.isDigit, h.isIndex⟩

/-- A `$` refers by the digits behind it, if their number is one. -/
theorem RefersBy.of_front (h : IsIndex (numeral 10 (s.takeWhile Char.isDigit))) :
    RefersBy ('$' :: s) (s.takeWhile Char.isDigit) where
  stands := ⟨[], s.dropWhile Char.isDigit, by rw [List.takeWhile_append_dropWhile]; rfl,
    head?_dropWhile_class⟩
  isDigit := isDigit_of_mem_takeWhile
  isIndex := h

theorem not_refersBy_nil : ¬ RefersBy [] digits := by
  rintro ⟨⟨a, b, h, -⟩, -, -⟩
  exact List.append_ne_nil_of_right_ne_nil a (List.cons_ne_nil _ _) h.symm

/-- A reference of a text is at its front or further back. -/
theorem refersBy_cons_iff {c : Char} : RefersBy (c :: s) digits ↔
    (c = '$' ∧ digits = s.takeWhile Char.isDigit ∧ IsIndex (numeral 10 digits)) ∨
      RefersBy s digits := by
  constructor
  · rintro ⟨⟨_ | ⟨_, a⟩, b, hs, hb⟩, hdigits, hindex⟩
    · obtain ⟨rfl, rfl⟩ := List.cons.inj hs
      exact .inl ⟨rfl, (congrArg Prod.fst (splitRun_of_run hdigits hb)).symm, hindex⟩
    · obtain ⟨-, rfl⟩ := List.cons.inj hs
      exact .inr ⟨⟨a, b, rfl, hb⟩, hdigits, hindex⟩
  · rintro (⟨rfl, rfl, hindex⟩ | h)
    · exact .of_front hindex
    · exact h.of_suffix (List.suffix_cons c s)

/-- No reference begins inside of digits, so they may be passed over. -/
theorem refersBy_dropWhile_iff :
    RefersBy (s.dropWhile Char.isDigit) digits ↔ RefersBy s digits := by
  induction s with
  | nil => rfl
  | cons c s ih =>
    rw [List.dropWhile_cons]
    split
    next hc =>
      rw [ih, refersBy_cons_iff, or_iff_right]
      rintro ⟨rfl, -⟩
      exact absurd hc (by decide)
    next => rfl

/-- The references of a template are those of its text. -/
theorem reference_mem_split_iff {n : Nat} :
    .reference n ∈ Segment.split s ↔ ∃ digits, RefersBy s digits ∧ numeral 10 digits = n := by
  -- with the recursion of the split: a reference in front, a bare dollar, any other character
  induction s using Segment.split.induct with
  | case1 =>
    rw [Segment.split]
    refine iff_of_false List.not_mem_nil ?_
    rintro ⟨digits, hrefers, -⟩
    exact not_refersBy_nil hrefers
  | case2 s m r hr ih =>
    rw [Segment.split_reference hr, List.mem_cons, ih]
    obtain ⟨hindex, rfl, rfl⟩ := reference?_eq_some_iff.1 hr
    -- dropping the digits of the first reference loses none of those behind it
    simp only [refersBy_dropWhile_iff, refersBy_cons_iff, Segment.reference.injEq, true_and,
      or_and_right, exists_or]
    refine or_congr_left ⟨?_, ?_⟩
    · rintro rfl
      exact ⟨_, ⟨rfl, hindex⟩, rfl⟩
    · rintro ⟨digits, ⟨rfl, -⟩, hn⟩
      exact hn.symm
  | case3 s hr ih =>
    have hindex := reference?_eq_none_iff.1 hr
    rw [Segment.split_dollar hr, Segment.mem_consText, ih]
    refine exists_congr fun digits => and_congr_left fun _ => ?_
    rw [refersBy_cons_iff, or_iff_right]
    -- the bare sign begins no reference, so those of the text are the ones of the rest
    rintro ⟨-, rfl, h⟩
    exact hindex h
  | case4 c s hc ih =>
    rw [Segment.split_of_ne hc, Segment.mem_consText, ih]
    simp only [refersBy_cons_iff, hc, false_and, false_or]

end

end NetPlot.Label
