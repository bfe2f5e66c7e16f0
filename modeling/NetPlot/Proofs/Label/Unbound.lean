/-
  References to no value.

  1. **Zeros** — of a reference only the number is kept.  So a text is written again without the
     zeros at the front of its references (`written_eq_withoutZeros`), and as it was only if there
     are none (`withoutZeros_eq_self_iff`).

  2. **Rendering** — a template whose references are all past the bound values is rendered as that
     (`render_unbound`); with nothing bound, this is what the columns of a row are queried for.

  **The crux** — a template forgets how its references were written.  It has their numbers, and a
  number does not say how many zeros stood before it.
-/
import NetPlot.Label.Rows
import NetPlot.Proofs.Label.Reference

namespace NetPlot.Label

open NetPlot.Text NetPlot.Xml

/-- A text without the zeros at the front of its references. -/
def withoutZeros : List Char → List Char
  | [] => []
  | c :: s =>
    c :: if c = '$' ∧ IsIndex (numeral 10 (s.takeWhile Char.isDigit)) then
      (withoutZeros s).dropWhile (· = '0')
    else withoutZeros s

/-- The values of the query that a text is; none if it is no query. -/
def queried (text : List Char) (c : Cursor) : List String :=
  match Query.parse (String.ofList text) with
  | .ok q => q.evaluate c
  | .error _ => []

/-! ## Zeros

A reference keeps its number and not its digits.  The numeral of the number has as many digits as
were left without the zeros in front, so these zeros are all that can get lost. -/

section

variable {s : List Char}

theorem withoutZeros_of_ne {c : Char} (h : c ≠ '$') (s : List Char) :
    withoutZeros (c :: s) = c :: withoutZeros s := by
  rw [withoutZeros, if_neg fun hc => h hc.1]

/-- Digits in front of a text stay as they are. -/
theorem withoutZeros_digits {ds : List Char} (h : ∀ c ∈ ds, c.isDigit = true) (r : List Char) :
    withoutZeros (ds ++ r) = ds ++ withoutZeros r := by
  induction ds with
  | nil => rfl
  | cons c ds ih =>
    obtain ⟨hc, hds⟩ := List.forall_mem_cons.1 h
    have hne : c ≠ '$' := by
      rintro rfl
      exact absurd hc (by decide)
    rw [List.cons_append, withoutZeros_of_ne hne, ih hds, List.cons_append]

/-- Zeros are dropped inside of the digits, as long as one of them is not a zero. -/
theorem dropWhile_zeros_append {ds r : List Char} (h : ds.dropWhile (· = '0') ≠ []) :
    (ds ++ r).dropWhile (· = '0') = ds.dropWhile (· = '0') ++ r := by
  rw [List.dropWhile_append, if_neg (by simpa using h)]

/-- A text is written without the zeros at the front of its references. -/
theorem written_eq_withoutZeros (s : List Char) : Segment.written s = withoutZeros s := by
  induction s using Segment.split.induct with
  | case1 => rw [Segment.written_nil, withoutZeros]
  | case2 s n r hr ih =>
    rw [Segment.written_reference hr, ih]
    obtain ⟨hindex, rfl, rfl⟩ := reference?_eq_some_iff.1 hr
    have hnumber := toList_repr_numeral isDigit_of_mem_takeWhile hindex.1
    have hne : (s.takeWhile Char.isDigit).dropWhile (· = '0') ≠ [] := by
      -- the number is not zero, so a digit is left when the zeros are gone
      obtain ⟨d, ds, hcons⟩ := exists_cons_repr (numeral 10 (s.takeWhile Char.isDigit))
      rw [← hnumber, hcons]
      exact List.cons_ne_nil d ds
    calc '$' :: (numeral 10 (s.takeWhile Char.isDigit)).repr.toList ++
          withoutZeros (s.dropWhile Char.isDigit)
        = '$' :: (s.takeWhile Char.isDigit ++ withoutZeros (s.dropWhile Char.isDigit)).dropWhile
            (· = '0') := by rw [hnumber, dropWhile_zeros_append hne, List.cons_append]
      _ = '$' :: (withoutZeros s).dropWhile (· = '0') := by
          rw [← withoutZeros_digits isDigit_of_mem_takeWhile, List.takeWhile_append_dropWhile]
      _ = withoutZeros ('$' :: s) := by rw [withoutZeros, if_pos ⟨rfl, hindex⟩]
  | case3 s hr ih =>
    have hindex := reference?_eq_none_iff.1 hr
    rw [Segment.written_dollar hr, ih, withoutZeros, if_neg fun h => hindex h.2]
  | case4 c s hc ih => rw [Segment.written_of_ne hc, ih, withoutZeros_of_ne hc]

theorem length_withoutZeros_le (s : List Char) : (withoutZeros s).length ≤ s.length := by
  induction s with
  | nil => exact Nat.le_refl 0
  | cons c s ih =>
    rw [withoutZeros, List.length_cons, List.length_cons]
    split
    · exact Nat.succ_le_succ (Nat.le_trans (List.dropWhile_sublist _).length_le ih)
    · exact Nat.succ_le_succ ih

/-- A zero at the front of a reference gets lost. -/
theorem length_withoutZeros_lt {digits : List Char} (h : RefersBy s digits)
    (hzero : digits.head? = some '0') : (withoutZeros s).length < s.length := by
  induction s with
  | nil => exact absurd h not_refersBy_nil
  | cons c s ih =>
    rw [withoutZeros, List.length_cons, List.length_cons, Nat.add_lt_add_iff_right]
    -- the reference with the zero is in front or further back
    rcases refersBy_cons_iff.1 h with ⟨rfl, rfl, hindex⟩ | h
    · rw [List.head?_takeWhile, Option.filter_eq_some_iff] at hzero
      obtain ⟨s, rfl⟩ := List.head?_eq_some_iff.1 hzero.1
      rw [if_pos ⟨rfl, hindex⟩, withoutZeros_of_ne (by decide), List.dropWhile_cons_of_pos (by simp),
        List.length_cons, Nat.lt_succ_iff]
      exact Nat.le_trans (List.dropWhile_sublist _).length_le (length_withoutZeros_le s)
    · split
      · exact Nat.lt_of_le_of_lt (List.dropWhile_sublist _).length_le (ih h)
      · exact ih h

/-- A text stays as it is if no reference has a zero at its front. -/
theorem withoutZeros_eq_self_iff :
    withoutZeros s = s ↔ ∀ digits, RefersBy s digits → digits.head? ≠ some '0' := by
  constructor
  · intro h digits hrefers hzero
    -- a zero that goes makes the text shorter
    have hlt := length_withoutZeros_lt hrefers hzero
    rw [h] at hlt
    exact Nat.lt_irrefl _ hlt
  · intro h
    induction s with
    | nil => rfl
    | cons c s ih =>
      have hs := ih fun digits hrefers => h digits (hrefers.of_suffix (List.suffix_cons c s))
      rw [withoutZeros, hs]
      split
      next hc =>
        obtain ⟨rfl, hindex⟩ := hc
        -- the first reference has no zero to drop, and the rest is unchanged by the hypothesis
        have hfront := h _ (.of_front hindex)
        cases s with
        | nil => rfl
        | cons d s =>
          have hd : d ≠ '0' := by
            rintro rfl
            exact hfront rfl
          rw [List.dropWhile_cons_of_neg (by simpa using hd)]
      next => rfl

end

/-! ## Rendering

A reference past the values is written like one that is displayed.  So rendering is displaying here,
and what is lost is what displaying loses. -/

section

variable {text : String} {values : List String}

/-- Where all references are past the bound values, nothing is put in. -/
theorem render_eq_display_of_unbound {t : Template}
    (h : ∀ n, .reference n ∈ t.segments → values.length < n) : t.render values = t.display := by
  rw [Template.display, Template.render, Template.render]
  refine congrArg String.join (List.map_congr_left fun segment hmem => ?_)
  cases segment with
  | text s => rfl
  | reference n =>
    have hn := h n hmem
    rw [Segment.render, Segment.render, List.getElem?_eq_none (by omega)]
    rfl

/-- References to no value are written as in the canonical text, which is the text without the
zeros. -/
theorem render_parse_of_unbound
    (h : ∀ digits, RefersBy text.toList digits → values.length < numeral 10 digits) :
    (Template.parse text).render values = String.ofList (withoutZeros text.toList) := by
  have hdisplay : (Template.parse text).render values = (Template.parse text).display := by
    refine render_eq_display_of_unbound fun n hn => ?_
    obtain ⟨digits, hrefers, rfl⟩ := reference_mem_split_iff.1 hn
    exact h digits hrefers
  rw [hdisplay, ← String.toList_inj, Template.toList_display_parse, written_eq_withoutZeros,
    String.toList_ofList]

/-- With nothing bound, every reference is past the values. -/
theorem render_parse_nil (text : String) :
    (Template.parse text).render [] = String.ofList (withoutZeros text.toList) :=
  render_parse_of_unbound fun _ hrefers => hrefers.isIndex.1

/-- A column has the values of the query that it is rendered to. -/
theorem evaluate_eq_queried (t : Template) (values : List String) (c : Cursor) :
    t.evaluate values c = queried (t.render values).toList c := by
  rw [queried, String.ofList_toList]
  rfl

/-- With nothing bound, a column is queried for its text without the zeros. -/
theorem evaluate_parse_nil (text : String) (c : Cursor) :
    (Template.parse text).evaluate [] c = queried (withoutZeros text.toList) c := by
  rw [evaluate_eq_queried, render_parse_nil, String.toList_ofList]

end

/-- References to no value stay as they are, but for the zeros at their front: if all references of a
text are past the bound values, its template is rendered as the text without these zeros, and so as
the text if there are none.  With no binding, this is what each row is queried for. -/
theorem render_unbound (text : String) (values : List String) (rows : List (List String))
    (c : Cursor) :
    ((∀ digits, RefersBy text.toList digits → values.length < numeral 10 digits) →
      (Template.parse text).render values = String.ofList (withoutZeros text.toList) ∧
        ((Template.parse text).render values = text ↔
          ∀ digits, RefersBy text.toList digits → digits.head? ≠ some '0')) ∧
    (Spec.mk [] (rows.map fun row => row.map Template.parse)).evaluate c =
      rows.map fun row => zipLongest (row.map fun text => queried (withoutZeros text.toList) c) := by
  constructor
  · intro h
    have hrender := render_parse_of_unbound h
    refine ⟨hrender, ?_⟩
    rw [hrender, ← withoutZeros_eq_self_iff, ← String.toList_inj, String.toList_ofList]
  · rw [Spec.evaluate, List.map_map]
    refine List.map_congr_left fun row _ => ?_
    rw [Function.comp_apply, List.map_map]
    exact congrArg zipLongest (List.map_congr_left fun text _ => evaluate_parse_nil text c)

/-- A reference past the bound values stays as it is. -/
theorem render_unbound_past : (Template.parse "a$10").render ["x"] = "a$10" := by
  obtain ⟨hrender, -⟩ := render_unbound "a$10" ["x"] [] (.ofRoot ⟨"p", [], "", []⟩)
  refine (hrender fun digits hrefers => ?_).2.2 (withoutZeros_eq_self_iff.1 (by decide))
  have hsplit : Segment.split "a$10".toList = [.text ['a'], .reference 10] := by decide +kernel
  have hmem := reference_mem_split_iff.2 ⟨digits, hrefers, rfl⟩
  rw [hsplit] at hmem
  have hnumber : numeral 10 digits = 10 := by simpa using hmem
  rw [hnumber]
  decide

/-- A reference with a zero at its front does not stay as it is. -/
theorem exists_respelled : ∃ (text : String) (values : List String),
    (∀ digits, RefersBy text.toList digits → values.length < numeral 10 digits) ∧
      (Template.parse text).render values ≠ text := by
  refine ⟨"$01", [], fun _ h => h.isIndex.1, ?_⟩
  rw [render_parse_nil]
  decide

end NetPlot.Label
