/-
  Texts that are cut at their marks.

  1. **Runs** — a run of characters of one class ends where the class does (`splitRun_of_run`).

  2. **First marks** — a cut is made at the first occurrence of the mark: the text before it, with
     as much of the mark as can overlap, holds none (`cutAt_eq_some_iff`).

  3. **Pieces** — no piece holds the mark (`not_infix_of_mem_pieces`), and with the mark in between
     they are the text (`intercalate_pieces`).  Texts without the mark that are put together with
     the mark in between are the pieces again (`pieces_append_mark`, `pieces_intercalate`).

  4. **Occurrences** — a character that is not in the mark parts the places where the mark can be
     (`infix_append_cons`).

  5. **Doubled marks** — a mark of one character written twice is not at the border to another one
     if the text before does not end in the character (`doubled_infix_concat_iff`).

  6. **Bytes** — the size of a text is that of its UTF-8 form (`utf8ByteSize_ofList`).

  7. **Ends** — a text is `Trimmed` when it begins and ends with no blank; cutting blanks off its
     ends gives it back, also with blanks put there (`trimChars_spaced`).
-/
import NetPlot.Text.Blank
import NetPlot.Text.Cut

namespace NetPlot.Text

/-! ## Runs -/

/-- A run is read up to the first character outside of the class. -/
theorem splitRun_of_run {inClass : Char → Bool} {s r : List Char} (hs : ∀ c ∈ s, inClass c = true)
    (hr : ∀ c ∈ r.head?, inClass c = false) : splitRun inClass (s ++ r) = (s, r) := by
  have hstop : r.takeWhile inClass = [] ∧ r.dropWhile inClass = r := by
    cases r with
    | nil => exact ⟨rfl, rfl⟩
    | cons c r => simp [hr c rfl]
  rw [splitRun, List.takeWhile_append_of_pos hs, List.dropWhile_append_of_pos hs, hstop.1, hstop.2,
    List.append_nil]

/-- What follows a run does not begin in the class. -/
theorem head?_dropWhile_class {inClass : Char → Bool} {s : List Char} :
    ∀ c ∈ (s.dropWhile inClass).head?, inClass c = false := by
  intro c hc
  have h := List.head?_dropWhile_not inClass s
  rw [hc] at h
  exact h

/-! ## First marks

A mark may overlap with itself, so that it is not in the text before a cut says too little.  The
text before with all but the last character of the mark behind it must not hold the mark. -/

/-- Up to the last character of a mark the text is the front of what it was. -/
theorem isPrefix_append_dropLast (before mark r : List Char) :
    before ++ mark.dropLast <+: before ++ mark ++ r := by
  rw [List.append_assoc, List.prefix_append_right_inj]
  exact (List.dropLast_prefix mark).trans (List.prefix_append mark r)

/-- A cut is made at the first occurrence of the mark. -/
theorem cutAt_eq_some_iff {mark s before r : List Char} (hm : mark ≠ []) :
    cutAt mark s = some (before, r) ↔
      s = before ++ mark ++ r ∧ ¬ mark <:+: before ++ mark.dropLast := by
  have hpos := List.length_pos_iff.2 hm
  induction s generalizing before with
  | nil =>
    cases mark with
    | nil => exact absurd rfl hm
    | cons m mark => simp [cutAt, afterMark?]
  | cons c s ih =>
    rw [cutAt]
    split
    next r' hr' =>
      rw [afterMark?_eq_some] at hr'
      -- the mark stands at the front: the text before it is empty
      constructor
      · intro h
        cases h
        refine ⟨by simpa using hr', fun h => ?_⟩
        have := h.length_le
        simp only [List.nil_append, List.length_dropLast] at this
        omega
      · rintro ⟨he, hn⟩
        cases before with
        | nil =>
          rw [hr', List.nil_append, List.append_cancel_left_eq] at he
          rw [he]
        | cons b bs =>
          -- the mark at the front would lie before the end of the later one
          refine absurd (List.IsPrefix.isInfix ?_) hn
          have hmark : mark <+: c :: s := ⟨r', hr'.symm⟩
          refine List.prefix_of_prefix_length_le hmark (he ▸ isPrefix_append_dropLast _ mark r) ?_
          simp only [List.length_append, List.length_cons, List.length_dropLast]
          omega
    next hnone =>
      have hfront : ¬ mark <+: c :: s := by
        rintro ⟨r', hr'⟩
        rw [afterMark?_eq_some.2 hr'.symm] at hnone
        cases hnone
      rw [Option.map_eq_some_iff]
      constructor
      · rintro ⟨⟨b, r'⟩, hc, he⟩
        cases he
        obtain ⟨rfl, hn⟩ := ih.1 hc
        -- an occurrence in the longer text is at its front, which `hfront` excludes, or further
        -- down
        refine ⟨rfl, fun h => ?_⟩
        rw [List.cons_append, List.infix_cons_iff] at h
        exact h.elim (fun h => hfront (h.trans (isPrefix_append_dropLast (c :: b) mark r))) hn
      · rintro ⟨he, hn⟩
        cases before with
        | nil => exact absurd ⟨r, he.symm⟩ hfront
        | cons b bs =>
          obtain ⟨rfl, rfl⟩ := List.cons.inj he
          exact ⟨(bs, r), ih.2 ⟨rfl, fun h => hn (List.infix_cons h)⟩, rfl⟩

/-- The mark is not in the text before a cut. -/
theorem not_infix_of_cutAt {mark s before r : List Char} (hm : mark ≠ [])
    (h : cutAt mark s = some (before, r)) : ¬ mark <:+: before := fun hi =>
  ((cutAt_eq_some_iff hm).1 h).2 (hi.trans (List.prefix_append before _).isInfix)

/-! ## Pieces

`pieces` cuts as long as there is a mark, so an induction along it has two cases: the text without
a mark, which is the last piece, and a first piece in front of the pieces of the rest. -/

/-- A text that is not cut is its only piece. -/
theorem pieces_of_cutAt_none {m : Char} {mark s : List Char} (h : cutAt (m :: mark) s = none) :
    pieces m mark s = [s] := by
  rw [pieces]
  split
  next => rfl
  next hs => cases h.symm.trans hs

/-- What is in front of the first cut is the first piece. -/
theorem pieces_of_cutAt_some {m : Char} {mark s before r : List Char}
    (h : cutAt (m :: mark) s = some (before, r)) :
    pieces m mark s = before :: pieces m mark r := by
  rw [pieces]
  split
  next hn => cases h.symm.trans hn
  next hs => cases h.symm.trans hs; rfl

/-- No piece holds the mark. -/
theorem not_infix_of_mem_pieces {m : Char} {mark s p : List Char} (h : p ∈ pieces m mark s) :
    ¬ (m :: mark) <:+: p := by
  fun_induction pieces m mark s with
  | case1 s hs =>
    obtain rfl := List.mem_singleton.1 h
    exact cutAt_eq_none.1 hs
  | case2 s before r hs ih =>
    rcases List.mem_cons.1 h with rfl | hr
    · exact not_infix_of_cutAt (List.cons_ne_nil m mark) hs
    · exact ih hr

/-- A piece is a part of the text. -/
theorem infix_of_mem_pieces {m : Char} {mark s p : List Char} (h : p ∈ pieces m mark s) :
    p <:+: s := by
  fun_induction pieces m mark s with
  | case1 s hs => exact List.mem_singleton.1 h ▸ List.infix_rfl
  | case2 s before r hs ih =>
    rw [cutAt_eq_some hs, List.append_assoc]
    rcases List.mem_cons.1 h with rfl | hr
    · exact (List.prefix_append _ _).isInfix
    · exact (ih hr).trans ((List.suffix_append _ r).trans (List.suffix_append before _)).isInfix

/-- A text without the mark is one piece. -/
theorem pieces_of_not_infix {m : Char} {mark s : List Char} (h : ¬ (m :: mark) <:+: s) :
    pieces m mark s = [s] := pieces_of_cutAt_none (cutAt_eq_none.2 h)

/-- A text is a piece when the mark behind it is the first one. -/
theorem pieces_append_mark {m : Char} {mark s : List Char}
    (h : ¬ (m :: mark) <:+: s ++ (m :: mark).dropLast) (r : List Char) :
    pieces m mark (s ++ (m :: mark) ++ r) = s :: pieces m mark r :=
  pieces_of_cutAt_some ((cutAt_eq_some_iff (List.cons_ne_nil m mark)).2 ⟨rfl, h⟩)

/-- A cut is made at a mark if one of its characters is not found before its end. -/
theorem cutAt_of_not_mem {mark before : List Char} {c : Char} (hc : c ∈ mark)
    (hb : c ∉ before ++ mark.dropLast) (r : List Char) :
    cutAt mark (before ++ mark ++ r) = some (before, r) :=
  (cutAt_eq_some_iff (List.ne_nil_of_mem hc)).2 ⟨rfl, fun h => hb (h.subset hc)⟩

theorem pieces_ne_nil (m : Char) (mark s : List Char) : pieces m mark s ≠ [] := by
  rw [pieces]
  split
  · exact List.cons_ne_nil s []
  · exact List.cons_ne_nil _ _

/-- Nothing is lost between the pieces. -/
theorem intercalate_pieces (m : Char) (mark s : List Char) :
    (m :: mark).intercalate (pieces m mark s) = s := by
  fun_induction pieces m mark s with
  | case1 s hs => exact List.intercalate_singleton
  | case2 s before r hs ih =>
    obtain ⟨p, ps, hp⟩ := List.exists_cons_of_ne_nil (pieces_ne_nil m mark r)
    rw [hp] at ih ⊢
    rw [List.intercalate_cons_cons, ih]
    exact (cutAt_eq_some hs).symm

/-- The mark behind a piece is the first one. -/
theorem not_infix_of_mem_dropLast_pieces {m : Char} {mark s p : List Char}
    (h : p ∈ (pieces m mark s).dropLast) : ¬ (m :: mark) <:+: p ++ (m :: mark).dropLast := by
  fun_induction pieces m mark s with
  | case1 s hs => exact absurd h List.not_mem_nil
  | case2 s before r hs ih =>
    rw [List.dropLast_cons_of_ne_nil (pieces_ne_nil m mark r), List.mem_cons] at h
    rcases h with rfl | h
    · exact ((cutAt_eq_some_iff (List.cons_ne_nil m mark)).1 hs).2
    · exact ih h

/-- Texts without the mark are the pieces if the mark behind each of them is the first one. -/
theorem pieces_intercalate_mark {m : Char} {mark : List Char} {ps : List (List Char)}
    (hne : ps ≠ []) (hp : ∀ p ∈ ps, ¬ (m :: mark) <:+: p)
    (hfirst : ∀ p ∈ ps.dropLast, ¬ (m :: mark) <:+: p ++ (m :: mark).dropLast) :
    pieces m mark ((m :: mark).intercalate ps) = ps := by
  induction ps with
  | nil => exact absurd rfl hne
  | cons p ps ih =>
    cases ps with
    | nil =>
      rw [List.intercalate_singleton]
      exact pieces_of_not_infix (hp p List.mem_cons_self)
    | cons q ps =>
      rw [List.intercalate_cons_cons, pieces_append_mark (hfirst p List.mem_cons_self),
        ih (List.cons_ne_nil q ps) (fun x hx => hp x (List.mem_cons_of_mem p hx))
          fun x hx => hfirst x (List.mem_cons_of_mem p hx)]

/-- Texts without a character that are parted by it are its pieces. -/
theorem pieces_intercalate {m : Char} {ss : List (List Char)} (hne : ss ≠ [])
    (h : ∀ s ∈ ss, m ∉ s) : pieces m [] ([m].intercalate ss) = ss := by
  have hone : ∀ s ∈ ss, ¬ [m] <:+: s := fun s hs hi => h s hs (hi.subset List.mem_cons_self)
  refine pieces_intercalate_mark hne hone fun s hs => ?_
  rw [List.dropLast_singleton, List.append_nil]
  exact hone s (List.dropLast_subset ss hs)

/-- The pieces on both sides of a character are its pieces. -/
theorem pieces_append_cons (m : Char) (s t : List Char) :
    pieces m [] (s ++ m :: t) = pieces m [] s ++ pieces m [] t := by
  fun_induction pieces m [] s with
  | case1 s hs =>
    have hnot : ¬ [m] <:+: s ++ [m].dropLast := by
      rw [List.dropLast_singleton, List.append_nil]
      exact cutAt_eq_none.1 hs
    have hpieces := pieces_append_mark hnot t
    rwa [List.append_assoc] at hpieces
  | case2 s before r hs ih =>
    have hpieces := pieces_append_mark ((cutAt_eq_some_iff (List.cons_ne_nil m [])).1 hs).2
      (r ++ m :: t)
    rw [cutAt_eq_some hs, List.append_assoc, hpieces, ih]
    rfl

/-! ## Occurrences

Where a mark occurs in a text that is put together, it may lie across the border.  A character in
between that the mark does not hold rules this out. -/

/-- A mark at the front ends before a character that it does not hold. -/
theorem prefix_of_prefix_append_cons {mark s t : List Char} {c : Char} (hc : c ∉ mark)
    (h : mark <+: s ++ c :: t) : mark <+: s := by
  -- the mark is compared with the text in front, and would reach the character only at its end
  induction s generalizing mark with
  | nil =>
    cases mark with
    | nil => exact List.prefix_rfl
    | cons m mark => exact absurd (List.cons_prefix_cons.1 h).1 fun e => hc (e ▸ List.mem_cons_self)
  | cons d s ih =>
    cases mark with
    | nil => exact List.nil_prefix
    | cons m mark =>
      obtain ⟨rfl, hp⟩ := List.cons_prefix_cons.1 h
      exact List.cons_prefix_cons.2 ⟨rfl, ih (fun hm => hc (List.mem_cons_of_mem m hm)) hp⟩

/-- A character that is not in the mark lies on one side of every occurrence. -/
theorem infix_append_cons {mark s t : List Char} {c : Char} (hc : c ∉ mark)
    (h : mark <:+: s ++ c :: t) : mark <:+: s ∨ mark <:+: t := by
  induction s with
  | nil =>
    rcases List.infix_cons_iff.1 h with hp | hi
    · exact Or.inl (prefix_of_prefix_append_cons (s := []) hc hp).isInfix
    · exact Or.inr hi
  | cons d s ih =>
    rcases List.infix_cons_iff.1 h with hp | hi
    · exact Or.inl (prefix_of_prefix_append_cons (s := d :: s) hc hp).isInfix
    · exact (ih hi).imp List.infix_cons id

/-- Characters that are not in the mark cannot be the front of an occurrence. -/
theorem infix_of_infix_append {mark s t : List Char} (hm : mark ≠ []) (hs : ∀ c ∈ s, c ∉ mark)
    (h : mark <:+: s ++ t) : mark <:+: t := by
  induction s with
  | nil => exact h
  | cons c s ih =>
    rcases infix_append_cons (s := []) (hs c List.mem_cons_self) h with hn | hi
    · exact absurd (List.infix_nil.1 hn) hm
    · exact ih (fun d hd => hs d (List.mem_cons_of_mem c hd)) hi

/-! ## Doubled marks -/

/-- With one more `c` at its end a text holds two of them in a row if it held them before, or if it
ended in one. -/
theorem doubled_infix_concat_iff {c : Char} {s : List Char} :
    [c, c] <:+: s ++ [c] ↔ [c, c] <:+: s ∨ s.getLast? = some c := by
  have hsuffix : [c, c] <:+ s ++ [c] ↔ s.getLast? = some c := by
    constructor
    · rintro ⟨t, ht⟩
      have ht : (t ++ [c]) ++ [c] = s ++ [c] := by simpa using ht
      rw [← List.append_cancel_right ht, List.getLast?_concat]
    · intro h
      obtain ⟨t, rfl⟩ := List.getLast?_eq_some_iff.1 h
      exact ⟨t, by simp⟩
  rw [List.infix_concat_iff, hsuffix, or_comm]

/-! ## Bytes -/

/-- Sizes are those of the UTF-8 form in core. -/
theorem utf8ByteSize_ofList (s : List Char) : (String.ofList s).utf8ByteSize = utf8Size s := by
  induction s with
  | nil => rfl
  | cons c s ih =>
    rw [String.ofList_cons, String.utf8ByteSize_append, ih]
    simp [utf8Size]

/-! ## Ends

Trimming is a search from both ends, and what it leaves is described without it: a text with no
blank at either end. -/

/-- No blank at either end. -/
structure Trimmed (s : List Char) : Prop where
  head : ∀ c ∈ s.head?, isBlank c = false
  last : ∀ c ∈ s.getLast?, isBlank c = false

/-- A text that does not begin with a blank loses nothing at its front. -/
theorem skipBlanks_of_head {s : List Char} (h : ∀ c ∈ s.head?, isBlank c = false) :
    skipBlanks s = s := by
  cases s with
  | nil => rfl
  | cons c s => rw [skipBlanks, List.dropWhile_cons_of_neg (by simp [h c rfl])]

theorem skipBlanks_space (s : List Char) : skipBlanks (' ' :: s) = skipBlanks s :=
  List.dropWhile_cons_of_pos rfl

/-- A text that does not end with a blank loses nothing at its end: the end is the front of the
reversed text. -/
theorem dropEndBlanks_of_last {s : List Char} (h : ∀ c ∈ s.getLast?, isBlank c = false) :
    dropEndBlanks s = s := by
  have hr : skipBlanks s.reverse = s.reverse :=
    skipBlanks_of_head (by rwa [List.head?_reverse])
  exact (congrArg List.reverse hr).trans s.reverse_reverse

theorem dropEndBlanks_space (s : List Char) : dropEndBlanks (s ++ [' ']) = dropEndBlanks s := by
  have hr := skipBlanks_space s.reverse
  rw [dropEndBlanks, List.reverse_append]
  exact congrArg List.reverse hr

/-- Without the blanks at its end a text is a front of itself. -/
theorem isPrefix_dropEndBlanks (s : List Char) : dropEndBlanks s <+: s := by
  have h := List.reverse_prefix.2 (skipBlanks_suffix s.reverse)
  rwa [List.reverse_reverse] at h

/-- Cutting off blanks leaves a part of the text. -/
theorem isInfix_trimChars (s : List Char) : trimChars s <:+: s :=
  (isPrefix_dropEndBlanks (skipBlanks s)).isInfix.trans (skipBlanks_suffix s).isInfix

/-- What is left when blanks are cut off is trimmed. -/
theorem trimmed_trimChars (s : List Char) : Trimmed (trimChars s) where
  head c hc := by
    obtain ⟨r, hr⟩ := isPrefix_dropEndBlanks (skipBlanks s)
    have hs : c ∈ (skipBlanks s).head? := by
      rw [← hr, List.head?_append]
      exact Option.mem_def.2 (Option.or_eq_some_iff.2 (Or.inl hc))
    exact head?_dropWhile_class c hs
  last c hc := by
    refine head?_dropWhile_class (s := (skipBlanks s).reverse) c ?_
    rwa [trimChars, dropEndBlanks, List.getLast?_reverse] at hc

/-- Blanks put around a trimmed text are cut off again. -/
theorem trimChars_spaced {s : List Char} (h : Trimmed s) : trimChars (' ' :: s ++ [' ']) = s := by
  rw [trimChars, List.cons_append, skipBlanks_space]
  cases s with
  | nil => rfl
  | cons c s =>
    have hc : skipBlanks (c :: s ++ [' ']) = c :: s ++ [' '] :=
      skipBlanks_of_head fun d hd => h.head d hd
    rw [hc, dropEndBlanks_space, dropEndBlanks_of_last h.last]

end NetPlot.Text
