/-
  Templates in canonical form.

  1. **Written form** — `written s` is what the segments of `s` are written as: references without
     leading zeros, all else as it was (`toList_display_parse`).  It begins and ends like `s` as far
     as marks and blanks go (`head?_written`, `trimmed_written`), and no mark without `$` and digits
     comes in by writing (`infix_of_infix_written`).

  2. **Reading back** — the written form has the segments of `s` again (`split_written`).  The
     crux is that the digits after a `$` are still a reference or still none, as nothing else in
     front of the text that follows has changed (`takeWhile_written`).
-/
import NetPlot.Label.Template
import NetPlot.Proofs.Text.Numeral

namespace NetPlot.Label

open NetPlot.Text

namespace Segment

/-! ## The written form

The recursion is that of `split`, with each reference replaced by what it is written as.  So a fact
about a written text is proved along the recursion, in the four cases of the reader. -/

/-- A segment as it is written when nothing is put in. -/
def chars (segment : Segment) : List Char := (segment.render []).toList

@[simp] theorem chars_text (s : List Char) : chars (.text s) = s := String.toList_ofList

@[simp] theorem chars_reference (n : Nat) : chars (.reference n) = '$' :: n.repr.toList :=
  String.toList_append ..

/-- Putting a character in front of the segments puts it in front of what they are written as. -/
@[simp] theorem flatMap_chars_consText (c : Char) (segments : List Segment) :
    (consText c segments).flatMap chars = c :: segments.flatMap chars := by
  cases segments with
  | nil => simp [consText]
  | cons x r => cases x <;> simp [consText]

theorem mem_consText {c : Char} {segments : List Segment} {n : Nat} :
    .reference n ∈ consText c segments ↔ .reference n ∈ segments := by
  cases segments with
  | nil => simp [consText]
  | cons x r => cases x <;> simp [consText]

/-- A text written again from its segments. -/
def written (s : List Char) : List Char := (split s).flatMap chars

/-- At a `$` that is followed by a reference, the reference is a segment of its own. -/
theorem split_reference {s r : List Char} {n : Nat} (h : reference? s = some (n, r)) :
    split ('$' :: s) = .reference n :: split r := by
  rw [split, if_pos rfl]
  split
  next hs => cases h.symm.trans hs; rfl
  next hs => cases h.symm.trans hs

theorem split_dollar {s : List Char} (h : reference? s = none) :
    split ('$' :: s) = consText '$' (split s) := by
  rw [split, if_pos rfl]
  split
  next hs => cases h.symm.trans hs
  next => rfl

theorem split_of_ne {c : Char} (h : c ≠ '$') (s : List Char) :
    split (c :: s) = consText c (split s) := by
  rw [split, if_neg h]

@[simp] theorem written_nil : written [] = [] := by simp [written, split]

/-- A reference is written with its number, whatever zeros it had in front. -/
theorem written_reference {s r : List Char} {n : Nat} (h : reference? s = some (n, r)) :
    written ('$' :: s) = '$' :: n.repr.toList ++ written r := by
  rw [written, split_reference h, List.flatMap_cons, chars_reference, written]

theorem written_dollar {s : List Char} (h : reference? s = none) :
    written ('$' :: s) = '$' :: written s := by
  rw [written, split_dollar h, flatMap_chars_consText, written]

theorem written_of_ne {c : Char} (h : c ≠ '$') (s : List Char) :
    written (c :: s) = c :: written s := by
  rw [written, split_of_ne h, flatMap_chars_consText, written]

/-- Writing does not change the first character. -/
theorem head?_written (s : List Char) : (written s).head? = s.head? := by
  induction s using split.induct with
  | case1 => rw [written_nil]
  | case2 s n r h ih => rw [written_reference h]; rfl
  | case3 s h ih => rw [written_dollar h]; rfl
  | case4 c s h ih => rw [written_of_ne h]; rfl

/-- A text without references is written as it is. -/
theorem written_eq_self {s : List Char} (h : ∀ n, .reference n ∉ split s) : written s = s := by
  induction s using split.induct with
  | case1 => rw [written_nil]
  | case2 s n r hr ih =>
    rw [split_reference hr] at h
    -- a reference is the first segment here
    exact absurd List.mem_cons_self (h n)
  | case3 s hr ih =>
    rw [split_dollar hr] at h
    rw [written_dollar hr, ih fun n hn => h n (mem_consText.2 hn)]
  | case4 c s hc ih =>
    rw [split_of_ne hc] at h
    rw [written_of_ne hc, ih fun n hn => h n (mem_consText.2 hn)]

/-! ## Reading back

`split` looks ahead, over the digits that follow a `$`.  Writing may change digits, but only behind
a `$` of their own: the digits at the front of what follows are as they were, and that is all that
is looked at. -/

/-- A reference is a run of digits whose number is from one on and fits in 64 bits. -/
theorem reference?_eq (s : List Char) :
    reference? s =
      if 0 < numeral 10 (s.takeWhile Char.isDigit) ∧
          numeral 10 (s.takeWhile Char.isDigit) < 0x10000000000000000 then
        some (numeral 10 (s.takeWhile Char.isDigit), s.dropWhile Char.isDigit)
      else none := rfl

/-- A written number is a reference again when no digit follows. -/
theorem reference?_repr_append {n : Nat} {r : List Char} (hn : 0 < n ∧ n < 0x10000000000000000)
    (hr : ∀ c ∈ r.head?, c.isDigit = false) : reference? (n.repr.toList ++ r) = some (n, r) := by
  simp only [reference?, splitRun_repr hr, numeral_repr]
  exact if_pos hn

/-- What a reference is, and that it ends with its last digit. -/
theorem of_reference? {s r : List Char} {n : Nat} (h : reference? s = some (n, r)) :
    (0 < n ∧ n < 0x10000000000000000) ∧ ∀ c ∈ r.head?, c.isDigit = false := by
  rw [reference?_eq, Option.ite_none_right_eq_some, Option.some.injEq, Prod.mk.injEq] at h
  obtain ⟨hn, rfl, rfl⟩ := h
  exact ⟨hn, head?_dropWhile_class⟩

theorem suffix_of_reference? {s r : List Char} {n : Nat} (h : reference? s = some (n, r)) :
    r <:+ s := by
  rw [reference?_eq, Option.ite_none_right_eq_some, Option.some.injEq, Prod.mk.injEq] at h
  exact h.2.2 ▸ List.dropWhile_suffix _

/-- Digits at the front stay as they are. -/
theorem takeWhile_written (s : List Char) :
    (written s).takeWhile Char.isDigit = s.takeWhile Char.isDigit := by
  have hdollar : '$'.isDigit = false := rfl
  induction s using split.induct with
  | case1 => rw [written_nil]
  | case2 s n r h ih => rw [written_reference h]; simp [hdollar]
  | case3 s h ih => rw [written_dollar h]; simp [hdollar]
  | case4 c s h ih => rw [written_of_ne h, List.takeWhile_cons, List.takeWhile_cons, ih]

/-- The written form has the same segments. -/
theorem split_written (s : List Char) : split (written s) = split s := by
  induction s using split.induct with
  | case1 => rw [written_nil]
  | case2 s n r h ih =>
    obtain ⟨hn, hr⟩ := of_reference? h
    rw [← head?_written r] at hr
    rw [written_reference h, List.cons_append, split_reference (reference?_repr_append hn hr), ih,
      split_reference h]
  | case3 s h ih =>
    -- the digits that did not make a reference are still the same
    have hnone : reference? (written s) = none := by
      rw [reference?_eq, ite_eq_right_iff] at h ⊢
      rw [takeWhile_written]
      exact fun hn => absurd (h hn) (by simp)
    rw [written_dollar h, split_dollar hnone, ih, split_dollar h]
  | case4 c s h ih => rw [written_of_ne h, split_of_ne h, ih, split_of_ne h]

/-! ## Marks and ends

A template stands in a block between marks, and is trimmed.  So its written form must not bring in a
mark that was not there, nor begin or end with a blank. -/

/-- A mark at the front of the written form was there before: it is compared character by character,
and comes to its end before the first `$`. -/
theorem prefix_of_prefix_written {mark s : List Char} (hm : '$' ∉ mark)
    (h : mark <+: written s) : mark <+: s := by
  -- whatever is written for a reference or a bare sign begins with a dollar, which the mark has not
  induction s using split.induct generalizing mark with
  | case1 => rwa [written_nil] at h
  | case2 s n r hr ih =>
    rw [written_reference hr] at h
    have hnil := List.prefix_nil.1 (prefix_of_prefix_append_cons (s := []) hm h)
    exact hnil ▸ List.nil_prefix
  | case3 s hr ih =>
    rw [written_dollar hr] at h
    have hnil := List.prefix_nil.1 (prefix_of_prefix_append_cons (s := []) hm h)
    exact hnil ▸ List.nil_prefix
  | case4 c s hc ih =>
    rw [written_of_ne hc] at h
    cases mark with
    | nil => exact List.nil_prefix
    | cons m mark =>
      obtain ⟨rfl, hp⟩ := List.cons_prefix_cons.1 h
      exact List.cons_prefix_cons.2 ⟨rfl, ih (fun hd => hm (List.mem_cons_of_mem m hd)) hp⟩

/-- No mark without `$` and digits comes in by writing. -/
theorem infix_of_infix_written {mark s : List Char} (hne : mark ≠ [])
    (hm : ∀ c ∈ mark, c ≠ '$' ∧ c.isDigit = false) (h : mark <:+: written s) : mark <:+: s := by
  have hdollar : '$' ∉ mark := fun hd => (hm _ hd).1 rfl
  induction s using split.induct with
  | case1 => rwa [written_nil] at h
  | case2 s n r hr ih =>
    rw [written_reference hr] at h
    -- no character of the reference is in the mark, so the mark lies behind it
    have hfront : ∀ c ∈ '$' :: n.repr.toList, c ∉ mark := by
      intro c hc hcm
      rcases List.mem_cons.1 hc with rfl | hd
      · exact hdollar hcm
      · exact absurd (isDigit_of_mem_repr hd) (by simp [(hm c hcm).2])
    have hrest := ih (infix_of_infix_append hne hfront h)
    exact hrest.trans ((suffix_of_reference? hr).trans (List.suffix_cons _ _)).isInfix
  | case3 s hr ih =>
    rw [written_dollar hr] at h
    have hrest := infix_of_infix_append (s := ['$']) hne (by simpa using hdollar) h
    exact List.infix_cons (ih hrest)
  | case4 c s hc ih =>
    rw [written_of_ne hc] at h
    rcases List.infix_cons_iff.1 h with hp | hi
    · rw [← written_of_ne hc] at hp
      exact (prefix_of_prefix_written hdollar hp).isInfix
    · exact List.infix_cons (ih hi)

/-- What a text ends with, a longer one with this end does too. -/
theorem mem_getLast?_append {c : Char} (s : List Char) {t : List Char} (h : c ∈ t.getLast?) :
    c ∈ (s ++ t).getLast? := by
  rw [List.getLast?_append]
  exact Option.mem_def.2 (Option.or_eq_some_iff.2 (Or.inl h))

/-- Writing puts no blank at the end. -/
theorem last_written {s : List Char} (h : ∀ c ∈ s.getLast?, isBlank c = false) :
    ∀ c ∈ (written s).getLast?, isBlank c = false := by
  have hdollar : isBlank '$' = false := rfl
  intro c hc
  -- the last character is that of the text behind the front, or of the front if nothing follows
  induction s using split.induct with
  | case1 =>
    rw [written_nil] at hc
    exact h c hc
  | case2 s n r hr ih =>
    obtain ⟨k, rfl⟩ := suffix_of_reference? hr
    rw [written_reference hr, List.getLast?_append, Option.mem_def, Option.or_eq_some_iff] at hc
    rcases hc with hc | ⟨-, hc⟩
    · exact ih (fun d hd => h d (mem_getLast?_append ('$' :: k) hd)) hc
    · rcases List.mem_cons.1 (List.mem_of_getLast? hc) with rfl | hd
      · exact hdollar
      · exact isBlank_of_isDigit (isDigit_of_mem_repr hd)
  | case3 s hr ih =>
    rw [written_dollar hr, ← List.singleton_append, List.getLast?_append, Option.mem_def,
      Option.or_eq_some_iff] at hc
    rcases hc with hc | ⟨-, hc⟩
    · exact ih (fun d hd => h d (mem_getLast?_append ['$'] hd)) hc
    · cases hc
      exact hdollar
  | case4 d s hd ih =>
    rw [written_of_ne hd, ← List.singleton_append, List.getLast?_append, Option.mem_def,
      Option.or_eq_some_iff] at hc
    rcases hc with hc | ⟨hn, hc⟩
    · exact ih (fun e he => h e (mem_getLast?_append [d] he)) hc
    · have hs : s = [] := by
        rw [← List.head?_eq_none_iff, ← head?_written, List.getLast?_eq_none_iff.1 hn]
        rfl
      exact h c (hs ▸ hc)

/-- A trimmed text is written as a trimmed text. -/
theorem trimmed_written {s : List Char} (h : Trimmed s) : Trimmed (written s) where
  head := by
    rw [head?_written]
    exact h.head
  last := last_written h.last

end Segment

/-! ## Templates

What has been shown of lists of characters, said of the texts and templates of the program. -/

namespace Template

theorem toList_display (t : Template) : t.display.toList = t.segments.flatMap Segment.chars := by
  rw [display, render, String.toList_join, List.flatMap_map]
  rfl

theorem toList_display_parse (text : String) :
    (parse text).display.toList = Segment.written text.toList := toList_display _

/-- A template is read back from the text that it is written as. -/
theorem parse_display_parse (text : String) : parse (parse text).display = parse text := by
  rw [parse, toList_display_parse, Segment.split_written, parse]

/-- A template without references is displayed as it was read. -/
theorem display_parse_of_not_hasReferences {text : String} (h : (parse text).hasReferences = false) :
    (parse text).display = text := by
  rw [← String.toList_inj, toList_display_parse]
  refine Segment.written_eq_self fun n hn => ?_
  rw [hasReferences, List.any_eq_false] at h
  exact h _ hn rfl

end Template

end NetPlot.Label
