/-
  The blanks at the end of a text, and what is read in front of them.

  1. **Order** — the two ends of a text can be cut in either order (`skipBlanks_dropEndBlanks`).

  2. **Readers** — a mark, a run, or a cut that involves no blank is found in a text without the
     blanks at its end as it is found with them (`afterMark?_dropEndBlanks`,
     `splitRun_dropEndBlanks`, `cutAt_dropEndBlanks`).

  3. **Marks** — a mark without blanks occurs in a text when it occurs between the blanks at its
     ends (`infix_trimChars_iff`).
-/
import NetPlot.Proofs.Text.Cut

namespace NetPlot.Text

/-! ## Order

Blanks at the front are dropped by recursion on the text, those at the end on the reversed text.
`dropEndBlanks_cons` puts the second recursion in the form of the first. -/

/-- The recursion of `dropEndBlanks` from the front: a character goes if it is blank and nothing
behind it stays. -/
theorem dropEndBlanks_cons (c : Char) (s : List Char) :
    dropEndBlanks (c :: s) =
      if dropEndBlanks s = [] ∧ isBlank c = true then [] else c :: dropEndBlanks s := by
  have hs : dropEndBlanks s = [] ↔ s.reverse.dropWhile isBlank = [] := List.reverse_eq_nil_iff
  by_cases hd : s.reverse.dropWhile isBlank = []
  · by_cases hc : isBlank c = true
    · rw [if_pos ⟨hs.2 hd, hc⟩]
      simp [dropEndBlanks, List.dropWhile_append, hd, hc]
    · rw [if_neg fun h => hc h.2, hs.2 hd]
      simp [dropEndBlanks, List.dropWhile_append, hd, hc]
  · rw [if_neg fun h => hd (hs.1 h.1)]
    simp [dropEndBlanks, List.dropWhile_append, hd]

/-- A character that is not blank keeps what stands before it. -/
theorem dropEndBlanks_cons_of_not {c : Char} (hc : isBlank c = false) (s : List Char) :
    dropEndBlanks (c :: s) = c :: dropEndBlanks s := by
  rw [dropEndBlanks_cons, if_neg (by simp [hc])]

/-- Characters that are not blank stay, whatever is cut off behind them. -/
theorem dropEndBlanks_append {s : List Char} (hs : ∀ c ∈ s, isBlank c = false) (r : List Char) :
    dropEndBlanks (s ++ r) = s ++ dropEndBlanks r := by
  induction s with
  | nil => rfl
  | cons c s ih =>
    rw [List.cons_append, dropEndBlanks_cons_of_not (hs c List.mem_cons_self),
      ih fun d hd => hs d (List.mem_cons_of_mem c hd), List.cons_append]

/-- The two ends can be cut in either order. -/
theorem skipBlanks_dropEndBlanks (s : List Char) :
    skipBlanks (dropEndBlanks s) = dropEndBlanks (skipBlanks s) := by
  induction s with
  | nil => rfl
  | cons c s ih =>
    -- a blank at the front goes with both cuts, unless the other end has taken it before
    by_cases hc : isBlank c = true
    · have hskip : ∀ t, skipBlanks (c :: t) = skipBlanks t := fun t => List.dropWhile_cons_of_pos hc
      rw [hskip, dropEndBlanks_cons, ← ih]
      by_cases hs : dropEndBlanks s = []
      · rw [if_pos ⟨hs, hc⟩, hs]
      · rw [if_neg fun h => hs h.1, hskip]
    · have hc : isBlank c = false := by simpa using hc
      have hkeep : ∀ t, skipBlanks (c :: t) = c :: t :=
        fun t => skipBlanks_of_head (by simpa using hc)
      rw [hkeep, dropEndBlanks_cons_of_not hc, hkeep]

/-- Cutting at the end leaves the first character that is not blank where it is. -/
theorem head?_dropEndBlanks_skipBlanks (s : List Char) :
    (dropEndBlanks (skipBlanks s)).head? = (skipBlanks s).head? := by
  cases h : skipBlanks s with
  | nil => rfl
  | cons c r => rw [dropEndBlanks_cons_of_not (head_skipBlanks h)]; rfl

/-- Blanks put around a text make no difference to what is left when it is trimmed. -/
theorem trimChars_space (s : List Char) : trimChars (' ' :: s ++ [' ']) = trimChars s := by
  rw [trimChars, List.cons_append, skipBlanks_space, ← skipBlanks_dropEndBlanks,
    dropEndBlanks_space, skipBlanks_dropEndBlanks, trimChars]

/-- A trimmed text stays as it is. -/
theorem trimChars_of_trimmed {s : List Char} (h : Trimmed s) : trimChars s = s := by
  rw [trimChars, skipBlanks_of_head h.head, dropEndBlanks_of_last h.last]

/-- Cutting once is enough. -/
theorem trim_trim (s : String) : trim (trim s) = trim s := by
  rw [trim, trim, String.toList_ofList, trimChars_of_trimmed (trimmed_trimChars s.toList)]

/-! ## Readers

Each reader looks at the front of a text.  It can only notice that blanks at the end are gone if it
gets there, and a reader that stops at a character which is not blank does not. -/

/-- A mark without blanks is found at the front of a text as before. -/
theorem afterMark?_dropEndBlanks {mark : List Char} (hm : mark.any isBlank = false)
    (s : List Char) : afterMark? mark (dropEndBlanks s) = (afterMark? mark s).map dropEndBlanks := by
  have hmark : ∀ c ∈ mark, isBlank c = false := by simpa using hm
  cases h : afterMark? mark s with
  | some r =>
    rw [afterMark?_eq_some.1 h, dropEndBlanks_append hmark]
    exact afterMark?_eq_some.2 rfl
  | none =>
    rw [Option.map_none, Option.eq_none_iff_forall_ne_some]
    intro r hr
    -- a mark at the front of the shorter text would be one at the front of the text
    obtain ⟨t, ht⟩ := isPrefix_dropEndBlanks s
    rw [afterMark?_eq_some.1 hr, List.append_assoc] at ht
    cases h.symm.trans (afterMark?_eq_some.2 ht.symm)

/-- A run of characters that are not blank is as long as before. -/
theorem splitRun_dropEndBlanks {inClass : Char → Bool}
    (hc : ∀ c, inClass c = true → isBlank c = false) (s : List Char) :
    splitRun inClass (dropEndBlanks s) =
      ((splitRun inClass s).1, dropEndBlanks (splitRun inClass s).2) := by
  -- the run itself has no blank, so the blanks at the end are cut off behind it
  have hrun : ∀ c ∈ (splitRun inClass s).1, inClass c = true := fun c h =>
    List.all_eq_true.1 List.all_takeWhile c h
  have hhead : ∀ c ∈ (dropEndBlanks (splitRun inClass s).2).head?, inClass c = false := by
    intro c h
    obtain ⟨t, ht⟩ := isPrefix_dropEndBlanks (splitRun inClass s).2
    refine head?_dropWhile_class (s := s) c ?_
    show c ∈ (splitRun inClass s).2.head?
    rw [← ht, List.head?_append]
    exact Option.mem_def.2 (Option.or_eq_some_iff.2 (Or.inl h))
  have hs : dropEndBlanks s = (splitRun inClass s).1 ++ dropEndBlanks (splitRun inClass s).2 := by
    rw [← dropEndBlanks_append fun c h => hc c (hrun c h), splitRun_append]
  rw [hs]
  exact splitRun_of_run hrun hhead

/-- A cut at a character that is not blank is made where it was. -/
theorem cutAt_dropEndBlanks {q : Char} (hq : isBlank q = false) {s before r : List Char}
    (h : cutAt [q] s = some (before, r)) :
    cutAt [q] (dropEndBlanks s) = some (before, dropEndBlanks r) := by
  obtain ⟨rfl, hn⟩ := (cutAt_eq_some_iff (List.cons_ne_nil q [])).1 h
  refine (cutAt_eq_some_iff (List.cons_ne_nil q [])).2 ⟨?_, hn⟩
  clear h hn
  induction before with
  | nil => exact dropEndBlanks_cons_of_not hq r
  | cons c before ih =>
    rw [List.cons_append, List.cons_append, dropEndBlanks_cons, ih, if_neg (by simp)]
    rfl

/-! ## Marks -/

/-- Characters that are not in the mark cannot be the end of an occurrence. -/
theorem infix_of_infix_append_right {mark s t : List Char} (hm : mark ≠ [])
    (ht : ∀ c ∈ t, c ∉ mark) (h : mark <:+: s ++ t) : mark <:+: s := by
  rw [← List.reverse_infix, List.reverse_append] at h
  rw [← List.reverse_infix]
  refine infix_of_infix_append (by simpa using hm) (fun c hc => ?_) h
  simpa using ht c (by simpa using hc)

/-- A mark without blanks lies between the blanks at the ends. -/
theorem infix_trimChars_iff {mark s : List Char} (hm : mark ≠ [])
    (hb : ∀ c ∈ mark, isBlank c = false) : mark <:+: trimChars s ↔ mark <:+: s := by
  refine ⟨fun h => h.trans (isInfix_trimChars s), fun h => ?_⟩
  have hblank : ∀ {c : Char}, isBlank c = true → c ∉ mark := fun hc hm => by simp [hb _ hm] at hc
  have hskip : mark <:+: skipBlanks s := by
    rw [← List.takeWhile_append_dropWhile (p := isBlank) (l := s)] at h
    exact infix_of_infix_append hm
      (fun c hc => hblank (List.all_eq_true.1 List.all_takeWhile c hc)) h
  -- the other end is the front of the reversed text
  rw [← (skipBlanks s).reverse_reverse, ← List.takeWhile_append_dropWhile (p := isBlank)
    (l := (skipBlanks s).reverse), List.reverse_append] at hskip
  exact infix_of_infix_append_right hm (fun c hc =>
    hblank (List.all_eq_true.1 List.all_takeWhile c (List.mem_reverse.1 hc))) hskip

end NetPlot.Text
