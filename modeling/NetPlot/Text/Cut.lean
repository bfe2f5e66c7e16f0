/-
  Marks in a text: the part before the first one, the pieces between them, and byte offsets.

  1. **Program** — `cutAt mark s` splits `s` around the first occurrence of `mark`; `pieces` goes
     on splitting what follows; `afterMark?` strips a mark off the front of a text, and
     `splitRun` a run of characters of one class.

  2. **Specification** — nothing is lost and the mark found is the first one: `cutAt_eq_some`
     gives `s = before ++ mark ++ after`, `cutAt_eq_none` says when there is none.

  3. **Offsets** — a place in a text is a suffix of it, and its offset the number of UTF-8 bytes
     in front of that suffix (`offset_append`).
-/

namespace NetPlot.Text

/-! ## Runs -/

/-- The longest run of characters in the class at the front of `s`, and what follows it. -/
def splitRun (inClass : Char → Bool) (s : List Char) : List Char × List Char :=
  (s.takeWhile inClass, s.dropWhile inClass)

theorem splitRun_append (inClass : Char → Bool) (s : List Char) :
    (splitRun inClass s).1 ++ (splitRun inClass s).2 = s := by
  simp [splitRun]

theorem length_splitRun (inClass : Char → Bool) (s : List Char) :
    (splitRun inClass s).1.length + (splitRun inClass s).2.length = s.length := by
  simpa using congrArg List.length (splitRun_append inClass s)

theorem length_of_splitRun {inClass : Char → Bool} {s run r : List Char}
    (h : splitRun inClass s = (run, r)) : run.length + r.length = s.length := by
  simpa [h] using length_splitRun inClass s

/-! ## Stripping a mark -/

/-- What follows `mark` when `s` begins with it. -/
def afterMark? : List Char → List Char → Option (List Char)
  | [], s => some s
  | _ :: _, [] => none
  | m :: mark, c :: s => if m = c then afterMark? mark s else none

theorem afterMark?_eq_some {mark s r : List Char} :
    afterMark? mark s = some r ↔ s = mark ++ r := by
  induction mark generalizing s with
  | nil => simp [afterMark?]
  | cons m mark ih =>
    cases s with
    | nil => simp [afterMark?]
    | cons c s =>
      by_cases h : m = c
      · simp [afterMark?, h, ih]
      · simp [afterMark?, h, Ne.symm h]

theorem length_afterMark? {mark s r : List Char} (h : afterMark? mark s = some r) :
    r.length + mark.length = s.length := by
  rw [afterMark?_eq_some.1 h]; simp; omega

/-! ## The first mark -/

/-- The text before the first `mark` in `s` and the text after it. -/
def cutAt (mark : List Char) : List Char → Option (List Char × List Char)
  | [] => (afterMark? mark []).map ([], ·)
  | c :: s =>
    match afterMark? mark (c :: s) with
    | some r => some ([], r)
    | none => (cutAt mark s).map fun (before, r) => (c :: before, r)

/-- Nothing is lost around the mark. -/
theorem cutAt_eq_some {mark s before r : List Char} (h : cutAt mark s = some (before, r)) :
    s = before ++ mark ++ r := by
  induction s generalizing before with
  | nil =>
    simp only [cutAt, Option.map_eq_some_iff, Prod.mk.injEq] at h
    obtain ⟨a, ha, rfl, rfl⟩ := h
    simpa using afterMark?_eq_some.1 ha
  | cons c s ih =>
    rw [cutAt] at h
    split at h
    next r' hr => cases h; simpa using afterMark?_eq_some.1 hr
    next =>
      simp only [Option.map_eq_some_iff, Prod.mk.injEq] at h
      obtain ⟨⟨b, r'⟩, hc, rfl, rfl⟩ := h
      simpa using ih hc

/-- Without a mark anywhere there is no cut. -/
theorem cutAt_eq_none {mark s : List Char} : cutAt mark s = none ↔ ¬ mark <:+: s := by
  induction s with
  | nil =>
    cases mark with
    | nil => simp [cutAt, afterMark?]
    | cons m mark => simp [cutAt, afterMark?]
  | cons c s ih =>
    rw [cutAt]
    split
    next r hr =>
      simp only [reduceCtorEq, false_iff, Decidable.not_not]
      exact ⟨[], r, by simp [afterMark?_eq_some.1 hr]⟩
    next hn =>
      rw [Option.map_eq_none_iff, ih, List.infix_cons_iff, not_or]
      refine ⟨fun h => ⟨?_, h⟩, And.right⟩
      rintro ⟨r, hr⟩
      rw [afterMark?_eq_some.2 hr.symm] at hn
      cases hn

/-- What follows a cut is shorter than the text when the mark is not empty. -/
theorem length_of_cutAt {mark s before r : List Char} (h : cutAt mark s = some (before, r)) :
    before.length + mark.length + r.length = s.length := by
  rw [cutAt_eq_some h]; simp; omega

/-! ## All pieces -/

/-- The pieces of `s` between the marks; one piece, `s` itself, if there are none. -/
def pieces (m : Char) (mark : List Char) (s : List Char) : List (List Char) :=
  match _h : cutAt (m :: mark) s with
  | none => [s]
  | some (before, r) => before :: pieces m mark r
termination_by s.length
decreasing_by have := length_of_cutAt _h; simp at this; omega

/-! ## Byte offsets -/

/-- The number of bytes of `s` in UTF-8. -/
def utf8Size : List Char → Nat
  | [] => 0
  | c :: s => c.utf8Size + utf8Size s

@[simp] theorem utf8Size_append (s t : List Char) : utf8Size (s ++ t) = utf8Size s + utf8Size t := by
  induction s with
  | nil => simp [utf8Size]
  | cons c s ih => simp only [List.cons_append, utf8Size, ih]; omega

/-- The offset in `text` at which its suffix `rest` begins. -/
def offset (text rest : List Char) : Nat := utf8Size text - utf8Size rest

/-- An offset counts the bytes in front of the suffix. -/
theorem offset_append (front rest : List Char) : offset (front ++ rest) rest = utf8Size front := by
  simp [offset]

end NetPlot.Text
