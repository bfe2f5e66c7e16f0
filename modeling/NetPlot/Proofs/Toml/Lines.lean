/-
  Plain TOML texts, line by line.

  1. **Lines** — a plain line is a header with one name, an entry with one name, or neither, and may
     end in blanks and a remark.  The value of an entry is a string without escapes, a run without
     quotes, or an array of such runs.  `Line.apply` is what a line says.

  2. **Readers** — each reader takes what is written for it and leaves what follows (`found_key?`,
     `found_value?`, `statement?_front`).

  3. **Texts** — so a text of plain lines is read as its lines say, one after the other
     (`statements?_lines`).

  Only so much of the language is treated as a text of plain lines needs.  The reader knows more,
  and the proofs have to show that it does not take one of its other ways.
-/
import NetPlot.Proofs.Text.Classes
import NetPlot.Proofs.Text.Cut
import NetPlot.Toml.Document

namespace NetPlot.Toml

open NetPlot.Text

/-! ## Lines

This is the part of the language that configurations are written in.  It leaves out escapes,
dotted names and tables on one line, so that a text can be given line by line. -/

/-- The characters of a text are looked at one by one. -/
def decideAll (s : List Char) (P : Char → Prop) [DecidablePred P] : Decidable (∀ c ∈ s, P c) :=
  decidable_of_iff (s.all (fun c => decide (P c)) = true) (by simp)

/-- A run that is read as a value, and does not go on behind a blank as dates do. -/
def IsRun (run : String) : Prop :=
  run ≠ "" ∧ (∀ c ∈ run.toList, isScalarChar c = true) ∧ date? run.toList = none ∧
    (scalarOf? run.toList).isSome = true

instance (run : String) : Decidable (IsRun run) :=
  have := decideAll run.toList fun c => isScalarChar c = true
  inferInstanceAs (Decidable (_ ∧ _ ∧ _ ∧ _))

/-- The value that a run is. -/
def runValue (run : String) : Value := (scalarOf? run.toList).getD .excess

/-- A value that is written on one line and without escapes. -/
inductive Plain where
  | quoted (s : String)
  | bare (run : String)
  | row (runs : List String)

namespace Plain

/-- How a value is written. -/
def chars : Plain → List Char
  | quoted s => '"' :: (s.toList ++ ['"'])
  | bare run => run.toList
  | row runs => '[' :: ([',', ' '].intercalate (runs.map String.toList) ++ [']'])

/-- What it is read as. -/
def value : Plain → Value
  | quoted s => .string s
  | bare run => runValue run
  | row runs => .array (runs.map runValue)

/-- No quote or backslash is in a string, and runs are runs. -/
def WellFormed : Plain → Prop
  | quoted s => ∀ c ∈ s.toList, isPlainChar c = true ∧ c ≠ '"' ∧ c ≠ '\\'
  | bare run => IsRun run
  | row runs => runs ≠ [] ∧ ∀ run ∈ runs, IsRun run

instance : (v : Plain) → Decidable v.WellFormed
  | quoted s => decideAll s.toList fun c => isPlainChar c = true ∧ c ≠ '"' ∧ c ≠ '\\'
  | bare run => inferInstanceAs (Decidable (IsRun run))
  | row runs => inferInstanceAs (Decidable (_ ∧ ∀ run ∈ runs, _))

end Plain

/-- A name that needs no quotes. -/
def IsBare (name : String) : Prop := name ≠ "" ∧ ∀ c ∈ name.toList, isBareKeyChar c = true

instance (name : String) : Decidable (IsBare name) :=
  have := decideAll name.toList fun c => isBareKeyChar c = true
  inferInstanceAs (Decidable (_ ∧ _))

/-- What a plain line says. -/
inductive Line where
  | idle
  | header (name : String)
  | entry (key : String) (value : Plain)

/-- Blanks at the end of a line, and a remark behind them. -/
def IsNote (s : List Char) : Prop :=
  (∀ c ∈ s, isPlainChar c = true) ∧ (s.dropWhile isGap).head?.all (· == '#') = true

instance (s : List Char) : Decidable (IsNote s) :=
  have := decideAll s fun c => isPlainChar c = true
  inferInstanceAs (Decidable (_ ∧ _))

namespace Line

/-- What a line begins with. -/
def front : Line → List Char
  | idle => []
  | header name => '[' :: (name.toList ++ [']'])
  | entry key value => key.toList ++ ' ' :: '=' :: ' ' :: value.chars

def WellFormed : Line → Prop
  | idle => True
  | header name => IsBare name
  | entry key value => IsBare key ∧ value.WellFormed

instance : (line : Line) → Decidable line.WellFormed
  | idle => inferInstanceAs (Decidable True)
  | header name => inferInstanceAs (Decidable (IsBare name))
  | entry key value => inferInstanceAs (Decidable (IsBare key ∧ value.WellFormed))

/-- The text of a line, without its end. -/
def IsWritten (line : Line) (s : String) : Prop :=
  (afterMark? line.front s.toList).any (fun note => decide (IsNote note)) = true

instance (line : Line) (s : String) : Decidable (line.IsWritten s) :=
  inferInstanceAs (Decidable (_ = true))

/-- What is read when a line has been read, if the line may stand there. -/
def apply (x : Reading) : Line → Option Reading
  | idle => some x
  | header name => (x.fields.openTable ⟨[], name⟩).map (⟨[name], ·⟩)
  | entry key value => (x.fields.addEntry x.header ⟨[], key⟩ value.value).map (⟨x.header, ·⟩)

end Line

/-! ## Characters

A reader decides by the first character.  That of a run, of a name and of a value are told from all
the marks that may stand at the same place, once and for all. -/

theorem ne_of_isScalarChar {c d : Char} (hc : isScalarChar c = true) (hd : isScalarChar d = false) :
    c ≠ d := by
  rintro rfl
  cases hd.symm.trans hc

theorem isGap_of_isScalarChar {c : Char} (hc : isScalarChar c = true) : isGap c = false := by
  rw [isGap, Bool.or_eq_false_iff, beq_eq_false_iff_ne, beq_eq_false_iff_ne]
  exact ⟨ne_of_isScalarChar hc (by decide), ne_of_isScalarChar hc (by decide)⟩

/-- The first character of a run. -/
theorem IsRun.exists_cons {run : String} (h : IsRun run) :
    ∃ c s, run.toList = c :: s ∧ isScalarChar c = true := by
  obtain ⟨hne, hchars, -⟩ := h
  obtain ⟨c, s, hrun⟩ :=
    List.exists_cons_of_ne_nil fun hnil => hne (String.toList_eq_nil_iff.1 hnil)
  exact ⟨c, s, hrun, hchars c (hrun ▸ List.mem_cons_self)⟩

/-- The first character of a bare name. -/
theorem IsBare.exists_cons {name : String} (h : IsBare name) :
    ∃ c s, name.toList = c :: s ∧ isScalarChar c = true := by
  obtain ⟨hne, hchars⟩ := h
  obtain ⟨c, s, hname⟩ :=
    List.exists_cons_of_ne_nil fun hnil => hne (String.toList_eq_nil_iff.1 hnil)
  have hc := hchars c (hname ▸ List.mem_cons_self)
  refine ⟨c, s, hname, ?_⟩
  simp only [isBareKeyChar, isScalarChar, Bool.or_eq_true] at hc ⊢
  rcases hc with (hc | hc) | hc <;> simp [hc]

/-- The first character of a value. -/
theorem Plain.exists_cons {v : Plain} (h : v.WellFormed) :
    ∃ c s, v.chars = c :: s ∧ isGap c = false := by
  cases v with
  | quoted s => exact ⟨_, _, rfl, rfl⟩
  | bare run =>
    obtain ⟨c, s, hrun, hc⟩ := IsRun.exists_cons h
    exact ⟨c, s, hrun, isGap_of_isScalarChar hc⟩
  | row runs => exact ⟨_, _, rfl, rfl⟩

/-- What may stand behind a value. -/
def Ends (r : List Char) : Prop := ∀ c ∈ r.head?, c ∈ [' ', '\t', '#', '\n', ',', ']']

/-- What may stand behind a value is not part of a run, and no quote. -/
theorem not_isScalarChar_of_ends : ∀ c ∈ [' ', '\t', '#', '\n', ',', ']'],
    isScalarChar c = false ∧ c ≠ '"' := forall_mem_of_all (by decide)

/-! ## Blanks and remarks

The reader skips blanks and remarks in three places, between lines, in arrays and at the end of a
line.  What a line ends in is skipped in the same way by all of them. -/

section

variable {s r : List Char}

/-- What is no blank, line end or remark is not skipped. -/
theorem skipFiller_of_head {c : Char} (hc : c ∉ [' ', '\t', '\n', '#', '\r']) (s : List Char) :
    skipFiller (c :: s) = c :: s := by
  simp only [List.mem_cons, List.not_mem_nil, not_or] at hc
  obtain ⟨hspace, htab, hnewline, hmark, hreturn, -⟩ := hc
  have hgap : ¬ (isGap c = true ∨ c = '\n') := by
    rw [isGap, Bool.or_eq_true, beq_iff_eq, beq_iff_eq, not_or, not_or]
    exact ⟨⟨hspace, htab⟩, hnewline⟩
  rw [skipFiller, if_neg hgap, if_neg hmark, if_neg fun h => hreturn h.1]

theorem skipFiller_of_isScalarChar {c : Char} (hc : isScalarChar c = true) (s : List Char) :
    skipFiller (c :: s) = c :: s := by
  have hnone : ∀ d ∈ [' ', '\t', '\n', '#', '\r'], isScalarChar d = false :=
    forall_mem_of_all (by decide)
  exact skipFiller_of_head (fun hmem => nomatch (hnone c hmem).symm.trans hc) s

/-- A note is nothing, a blank and a note, or a remark. -/
theorem IsNote.cases (h : IsNote s) : s = [] ∨
    (∃ c t, s = c :: t ∧ isGap c = true ∧ IsNote t) ∨
    ∃ t, s = '#' :: t ∧ ∀ c ∈ t, isPlainChar c = true := by
  obtain ⟨hplain, hmark⟩ := h
  cases s with
  | nil => exact .inl rfl
  | cons c t =>
    obtain ⟨-, ht⟩ := List.forall_mem_cons.1 hplain
    right
    -- the first character is a blank, or else it must be the mark
    by_cases hc : isGap c = true
    · rw [List.dropWhile_cons_of_pos hc] at hmark
      exact .inl ⟨c, t, rfl, hc, ht, hmark⟩
    · rw [List.dropWhile_cons_of_neg hc] at hmark
      exact .inr ⟨t, by rw [beq_iff_eq.1 hmark], ht⟩

theorem dropWhile_isPlainChar_newline (h : ∀ c ∈ s, isPlainChar c = true) (r : List Char) :
    (s ++ '\n' :: r).dropWhile isPlainChar = '\n' :: r := by
  rw [List.dropWhile_append_of_pos h]
  rfl

/-- Blanks in front of a remark are skipped with it. -/
theorem skipComment_of_isGap {c : Char} (hc : isGap c = true) (s : List Char) :
    skipComment (c :: s) = skipComment s := by
  rw [skipComment, skipComment, skipGap, skipGap, List.dropWhile_cons_of_pos hc]

/-- A note leads to the end of its line. -/
theorem lineEnd?_note (h : IsNote s) (r : List Char) : lineEnd? (s ++ '\n' :: r) = some r := by
  have hcomment : skipComment (s ++ '\n' :: r) = '\n' :: r := by
    induction s with
    | nil => rfl
    | cons d s ih =>
      obtain hnil | ⟨c, t, heq, hc, ht⟩ | ⟨t, heq, ht⟩ := h.cases
      · cases hnil
      · cases heq
        rw [List.cons_append, skipComment_of_isGap hc, ih ht]
      · cases heq
        exact dropWhile_isPlainChar_newline ht r
  rw [lineEnd?, hcomment]
  rfl

/-- A note is skipped with its line. -/
theorem skipFiller_note (h : IsNote s) (r : List Char) :
    skipFiller (s ++ '\n' :: r) = skipFiller r := by
  have hnewline : skipFiller ('\n' :: r) = skipFiller r := by
    rw [skipFiller, if_pos (.inr rfl)]
  induction s with
  | nil => exact hnewline
  | cons d s ih =>
    obtain hnil | ⟨c, t, heq, hc, ht⟩ | ⟨t, heq, ht⟩ := h.cases
    · cases hnil
    · cases heq
      rw [List.cons_append, skipFiller, if_pos (.inl hc), ih ht]
    · cases heq
      have hmark : ¬ (isGap '#' = true ∨ '#' = '\n') := by decide
      rw [List.cons_append, skipFiller, if_neg hmark, if_pos rfl, dropWhile_isPlainChar_newline ht,
        hnewline]

/-- A note ends what stands in front of it. -/
theorem ends_note (h : IsNote s) (r : List Char) : Ends (s ++ '\n' :: r) := by
  obtain rfl | ⟨c, t, rfl, hc, -⟩ | ⟨t, rfl, -⟩ := h.cases
  · rintro c ⟨⟩
    decide
  · rintro d ⟨⟩
    rw [isGap, Bool.or_eq_true, beq_iff_eq, beq_iff_eq] at hc
    rcases hc with rfl | rfl <;> decide
  · rintro c ⟨⟩
    decide

end

/-! ## Runs and strings

The reader has more kinds of values than plain lines use.  For each kind of plain value, the readers
of the other kinds have to fail on it: a quoted text has not three quotes, a run is no date. -/

section

variable {r : List Char}

/-- A run is read up to the first character that is not its own. -/
theorem scalar?_run {run : String} (h : IsRun run) (hr : Ends r) :
    scalar? (run.toList ++ r) = some (runValue run, r) := by
  obtain ⟨hne, hchars, hdate, hvalue⟩ := h
  have hsplit : splitRun isScalarChar (run.toList ++ r) = (run.toList, r) :=
    splitRun_of_run hchars fun c hc => (not_isScalarChar_of_ends c (hr c hc)).1
  -- a run that is not a date in front takes nothing more behind it
  have hrun : scalarRun (run.toList ++ r) = (run.toList, r) := by
    rw [scalarRun, hsplit]
    dsimp only
    split
    · rw [hdate]
      simp
    · rfl
  obtain ⟨v, hv⟩ := Option.isSome_iff_exists.1 hvalue
  rw [scalar?, hrun, runValue, hv]
  split
  next hs => exact absurd (String.toList_eq_nil_iff.1 (Prod.mk.inj hs).1) hne
  next hs =>
    cases hs
    rw [hv]
    rfl

/-- Without escapes a string is read as it is written, up to the quote. -/
theorem basic?_plain {s : List Char} (h : ∀ c ∈ s, isPlainChar c = true ∧ c ≠ '"' ∧ c ≠ '\\')
    (r : List Char) : basic? (s ++ '"' :: r) = some (s, r) := by
  induction s with
  | nil => rw [List.nil_append, basic?, if_pos rfl]
  | cons c s ih =>
    obtain ⟨⟨hplain, hquote, hback⟩, hs⟩ := List.forall_mem_cons.1 h
    rw [List.cons_append, basic?, if_neg hquote, if_neg hback, if_pos hplain, ih hs]
    rfl

/-- Quotes that are not three in a row are those of a string on one line. -/
theorem string?_quoted {s : List Char} (h : ∀ c ∈ s, isPlainChar c = true ∧ c ≠ '"' ∧ c ≠ '\\')
    (hr : Ends r) : string? ('"' :: (s ++ '"' :: r)) = some (s, r) := by
  -- three quotes would open a long string; the text or the end behind keeps them apart
  have hthree : afterMark? "\"\"\"".toList ('"' :: (s ++ '"' :: r)) = none := by
    cases s with
    | nil =>
      cases r with
      | nil => rfl
      | cons c r =>
        have hc := (not_isScalarChar_of_ends c (hr c rfl)).2
        change (if '"' = c then _ else none) = none
        exact if_neg hc.symm
    | cons c s =>
      have hc := (h c List.mem_cons_self).2.1
      change (if '"' = c then _ else none) = none
      exact if_neg hc.symm
  rw [string?, hthree]
  exact basic?_plain h r

/-- A run does not begin with quotes. -/
theorem string?_run {run : String} (h : IsRun run) (r : List Char) :
    string? (run.toList ++ r) = none := by
  obtain ⟨c, s, hrun, hc⟩ := h.exists_cons
  have hdouble : c ≠ '"' := ne_of_isScalarChar hc (by decide)
  have hsingle : c ≠ '\'' := ne_of_isScalarChar hc (by decide)
  have hthree : afterMark? "\"\"\"".toList (c :: (s ++ r)) = none := if_neg hdouble.symm
  have hthree' : afterMark? "'''".toList (c :: (s ++ r)) = none := if_neg hsingle.symm
  rw [hrun, List.cons_append, string?, hthree, hthree']
  exact lineString?.eq_3 _ (fun _ he => hdouble (List.cons.inj he).1)
    fun _ he => hsingle (List.cons.inj he).1

end

/-! ## Values

The readers of values call each other with what is left, and carry a proof that it has become
shorter.  `found` forgets the proof, which makes their results comparable. -/

/-- What a reader found and the text after it. -/
def found {α : Type} {s : List Char} (x : Step α s) : Option (α × List Char) :=
  x.map fun (a, r) => (a, r.1)

section

variable {α : Type} {s r : List Char}

/-- A reader also shows that it has moved on; for what it found this does not matter. -/
theorem found_eq_some {x : Step α s} {a : α} :
    found x = some (a, r) ↔ ∃ h, x = some (a, ⟨r, h⟩) := by
  rw [found, Option.map_eq_some_iff]
  constructor
  · rintro ⟨⟨b, t⟩, hx, h⟩
    cases h
    exact ⟨t.2, hx⟩
  · rintro ⟨h, hx⟩
    exact ⟨_, hx, rfl⟩

theorem found_value?_quoted (depth : Nat) {v : String} (h : (Plain.quoted v).WellFormed)
    (hr : Ends r) :
    found (value? depth ((Plain.quoted v).chars ++ r)) = some (.string v, r) := by
  have hs := string?_quoted h hr
  rw [Plain.chars, List.cons_append, List.append_assoc, List.singleton_append, value?.eq_3]
  · split
    next hs' =>
      cases hs.symm.trans hs'
      rw [String.ofList_toList]
      rfl
    next hs' => cases hs.symm.trans hs'
  · exact fun _ _ he => absurd (List.cons.inj he).1 (by decide)
  · exact fun _ _ he => absurd (List.cons.inj he).1 (by decide)

theorem found_value?_run (depth : Nat) {run : String} (h : IsRun run) (hr : Ends r) :
    found (value? depth (run.toList ++ r)) = some (runValue run, r) := by
  have hstring := string?_run h r
  have hscalar := scalar?_run h hr
  obtain ⟨c, s, hrun, hc⟩ := h.exists_cons
  rw [hrun, List.cons_append] at hstring hscalar ⊢
  -- a run begins with neither of the brackets, so it is no array and no table
  rw [value?.eq_3]
  · split
    next hs => cases hstring.symm.trans hs
    next =>
      split
      next hv =>
        cases hscalar.symm.trans hv
        rfl
      next hv => cases hscalar.symm.trans hv
  · exact fun _ _ he => absurd (List.cons.inj he).1 (ne_of_isScalarChar hc (by decide))
  · exact fun _ _ he => absurd (List.cons.inj he).1 (ne_of_isScalarChar hc (by decide))

/-- An item of an array is followed by another one or by the closing bracket. -/
theorem found_items?_of_value {depth : Nat} {s t f : List Char} {v : Value} (hs : skipFiller s = f)
    (hf : ∀ c ∈ f.head?, c ≠ ']') (hv : found (value? depth f) = some (v, t)) :
    found (items? depth s) =
      match skipFiller t with
      | ',' :: u => (found (items? depth u)).map fun (vs, w) => (v :: vs, w)
      | ']' :: u => some ([v], u)
      | _ => none := by
  obtain ⟨hlen, hv⟩ := found_eq_some.1 hv
  subst hs
  rw [items?]
  -- the list goes on, is closed, or breaks off
  split
  next w hw =>
    rw [hw] at hf
    exact absurd rfl (hf _ rfl)
  next =>
    rw [hv]
    dsimp only
    split
    next hu =>
      simp only [hu, found, Option.map_map]
      rfl
    next hu =>
      simp only [hu]
      rfl
    next hcomma hclose =>
      split
      next hu => exact (hcomma _ hu).elim
      next hu => exact (hclose _ hu).elim
      next => rfl

/-- Nothing is skipped in front of a run, and it is no closing bracket. -/
theorem skipFiller_run {run : String} (h : IsRun run) (r : List Char) :
    skipFiller (run.toList ++ r) = run.toList ++ r ∧
      ∀ c ∈ (run.toList ++ r).head?, c ≠ ']' := by
  obtain ⟨c, s, hrun, hc⟩ := h.exists_cons
  rw [hrun]
  refine ⟨skipFiller_of_isScalarChar hc _, ?_⟩
  rintro d ⟨⟩
  exact ne_of_isScalarChar hc (by decide)

/-- Items are written from the first one on. -/
theorem exists_eq_append (run : String) (runs : List String) (r : List Char) :
    ∃ t, [',', ' '].intercalate ((run :: runs).map String.toList) ++ r = run.toList ++ t := by
  cases runs with
  | nil => exact ⟨r, by simp⟩
  | cons next runs =>
    exact ⟨',' :: ' ' :: ([',', ' '].intercalate ((next :: runs).map String.toList) ++ r),
      by simp [List.intercalate_cons_cons]⟩

/-- The runs of an array are read up to the closing bracket. -/
theorem found_items? (depth : Nat) {run : String} {runs : List String} (hrun : IsRun run)
    (hruns : ∀ run ∈ runs, IsRun run) {s : List Char}
    (hs : skipFiller s =
      [',', ' '].intercalate ((run :: runs).map String.toList) ++ ']' :: r) :
    found (items? depth s) = some ((run :: runs).map runValue, r) := by
  induction runs generalizing run s with
  | nil =>
    rw [List.map_singleton, List.intercalate_singleton] at hs
    have hvalue := found_value?_run depth hrun (r := ']' :: r) (by rintro c ⟨⟩; decide)
    obtain ⟨-, hhead⟩ := skipFiller_run hrun (']' :: r)
    rw [found_items?_of_value hs hhead hvalue, skipFiller_of_head (by decide)]
    rfl
  | cons next runs ih =>
    obtain ⟨hnext, hruns⟩ := List.forall_mem_cons.1 hruns
    let more := [',', ' '].intercalate ((next :: runs).map String.toList) ++ ']' :: r
    have hs : skipFiller s = run.toList ++ ',' :: ' ' :: more := by
      rw [hs, List.map_cons, List.map_cons, List.intercalate_cons_cons]
      simp [more]
    -- the blank behind the comma is skipped, and the next run is not
    have hmore : skipFiller (' ' :: more) = more := by
      obtain ⟨t, ht⟩ := exists_eq_append next runs (']' :: r)
      have hfront : more = next.toList ++ t := ht
      rw [skipFiller, if_pos (.inl rfl), hfront, (skipFiller_run hnext t).1]
    have hvalue := found_value?_run depth hrun (r := ',' :: ' ' :: more)
      (by rintro c ⟨⟩; decide)
    obtain ⟨-, hhead⟩ := skipFiller_run hrun (',' :: ' ' :: more)
    rw [found_items?_of_value hs hhead hvalue, skipFiller_of_head (by decide)]
    change (found (items? depth (' ' :: more))).map _ = _
    rw [ih hnext hruns hmore]
    rfl

/-- A value is read up to what stands behind it. -/
theorem found_value? (depth : Nat) {v : Plain} (h : v.WellFormed) (hr : Ends r) :
    found (value? (depth + 1) (v.chars ++ r)) = some (v.value, r) := by
  cases v with
  | quoted s => exact found_value?_quoted _ h hr
  | bare run => exact found_value?_run _ h hr
  | row runs =>
    -- a row is read run by run, and the filler between the runs is the comma and blank written
    obtain ⟨hne, hruns⟩ := h
    obtain ⟨run, runs, rfl⟩ := List.exists_cons_of_ne_nil hne
    obtain ⟨hrun, hruns⟩ := List.forall_mem_cons.1 hruns
    obtain ⟨t, ht⟩ := exists_eq_append run runs (']' :: r)
    have hitems : found (items? depth
        ([',', ' '].intercalate ((run :: runs).map String.toList) ++ ']' :: r)) =
        some ((run :: runs).map runValue, r) :=
      found_items? depth hrun hruns (ht ▸ (skipFiller_run hrun t).1)
    obtain ⟨hlen, hitems⟩ := found_eq_some.1 hitems
    rw [Plain.chars, List.cons_append, List.append_assoc, List.singleton_append, value?, hitems]
    rfl

end

/-! ## Names

A name may be followed by a dot and another name.  Behind a bare name on a plain line comes an
equals sign or a bracket, so it stands alone. -/

section

variable {r : List Char} {name : String}

/-- A bare name is read up to its end. -/
theorem found_key? (h : IsBare name) (hr : ∀ c ∈ r.head?, isBareKeyChar c = false)
    (hdot : ∀ t, skipGap r ≠ '.' :: t) :
    found (key? (name.toList ++ r)) = some (⟨[], name⟩, r) := by
  obtain ⟨hne, hchars⟩ := h
  -- a bare name ends where its characters do, and no dot follows to make it longer
  have hname : name? (name.toList ++ r) = some (name.toList, r) := by
    rw [name?, splitRun_of_run hchars hr]
    split
    next hs => exact absurd (String.toList_eq_nil_iff.1 (Prod.mk.inj hs).1) hne
    next hs => cases hs; rfl
  have hnames : found (names? (name.toList ++ r)) = some (⟨[], name⟩, r) := by
    rw [names?]
    split
    next hs => cases hname.symm.trans hs
    next hs =>
      cases hname.symm.trans hs
      dsimp only
      split
      next hs => exact absurd hs (hdot _)
      next =>
        rw [String.ofList_toList]
        rfl
  obtain ⟨hlen, hnames⟩ := found_eq_some.1 hnames
  rw [key?, hnames]
  rfl

/-- A name with its equals sign. -/
theorem found_assigned? (h : IsBare name) {c : Char} (hc : isGap c = false) :
    found (assigned? false (name.toList ++ ' ' :: '=' :: ' ' :: c :: r)) =
      some (⟨[], name⟩, c :: r) := by
  have hkey : found (key? (name.toList ++ ' ' :: '=' :: ' ' :: c :: r)) =
      some (⟨[], name⟩, ' ' :: '=' :: ' ' :: c :: r) := by
    refine found_key? h (by rintro d ⟨⟩; decide) fun t ht => ?_
    exact absurd (List.cons.inj ht).1 (by decide)
  obtain ⟨hlen, hkey⟩ := found_eq_some.1 hkey
  -- one blank stands behind the equals sign, and the value begins with none
  have hgap : skip false (' ' :: c :: r) = c :: r := by
    change (' ' :: c :: r).dropWhile isGap = c :: r
    rw [List.dropWhile_cons_of_pos rfl, List.dropWhile_cons_of_neg (by simp [hc])]
  rw [assigned?, hkey]
  exact congrArg (fun t => some (Key.mk [] name, t)) hgap

/-- The name of a header ends at its bracket. -/
theorem headerKey?_name (h : IsBare name) (r : List Char) :
    headerKey? [']'] (name.toList ++ ']' :: r) = some (⟨[], name⟩, r) := by
  have hgap : skipGap (name.toList ++ ']' :: r) = name.toList ++ ']' :: r := by
    obtain ⟨c, s, hname, hc⟩ := h.exists_cons
    rw [hname, skipGap, List.cons_append,
      List.dropWhile_cons_of_neg (by simp [isGap_of_isScalarChar hc])]
  have hkey := found_key? h (r := ']' :: r) (by rintro d ⟨⟩; decide)
    fun t ht => absurd (List.cons.inj ht).1 (by decide)
  rw [← hgap] at hkey
  obtain ⟨hlen, hkey⟩ := found_eq_some.1 hkey
  rw [headerKey?, hkey]
  rfl

end

/-! ## Statements

A statement is told by its first character, and leaves the end of its line to be read after it. -/

section

variable {x : Reading} {r : List Char}

/-- A header opens its table, and the entries behind it go there. -/
theorem statement?_header {name : String} (h : IsBare name) (r : List Char) :
    statement? x ('[' :: (name.toList ++ ']' :: r)) =
      (x.fields.openTable ⟨[], name⟩).map fun fields => (⟨[name], fields⟩, r) := by
  have hkey := headerKey?_name h r
  obtain ⟨c, s, hname, hc⟩ := h.exists_cons
  rw [hname] at hkey ⊢
  rw [statement?.eq_2]
  · rw [hkey, Option.map_eq_bind]
    rfl
  · exact fun _ he => ne_of_isScalarChar hc (by decide) (List.cons.inj he).1

/-- An entry puts its value into the table of the last header. -/
theorem statement?_entry {key : String} {v : Plain} (hk : IsBare key) (hv : v.WellFormed)
    (hr : Ends r) :
    statement? x (key.toList ++ ' ' :: '=' :: ' ' :: (v.chars ++ r)) =
      (x.fields.addEntry x.header ⟨[], key⟩ v.value).map fun fields => (⟨x.header, fields⟩, r) := by
  have hvalue := found_value? 79 hv hr
  obtain ⟨c, s, hchars, hc⟩ := Plain.exists_cons hv
  have hassigned := found_assigned? hk hc (r := s ++ r)
  obtain ⟨d, t, hkey, hd⟩ := hk.exists_cons
  rw [hchars, List.cons_append] at hvalue ⊢
  rw [hkey, List.cons_append] at hassigned ⊢
  obtain ⟨hlen, hvalue⟩ := found_eq_some.1 hvalue
  obtain ⟨hlen', hassigned⟩ := found_eq_some.1 hassigned
  -- a key begins with neither of the marks of a header
  rw [statement?.eq_3]
  · rw [hassigned]
    change ((value? depthLimit (c :: (s ++ r))).bind fun (w, t) =>
      (x.fields.addEntry x.header ⟨[], key⟩ w).bind fun fields =>
        some (Reading.mk x.header fields, t.1)) = _
    rw [depthLimit, hvalue, Option.map_eq_bind]
    rfl
  · exact fun _ he => ne_of_isScalarChar hd (by decide) (List.cons.inj he).1
  · exact fun _ he => ne_of_isScalarChar hd (by decide) (List.cons.inj he).1

/-- What a line that is not idle begins with is a statement, read as the line says. -/
theorem statement?_front {line : Line} (hi : line ≠ .idle) (h : line.WellFormed) (hr : Ends r) :
    ∃ c s, line.front ++ r = c :: s ∧ skipFiller (c :: s) = c :: s ∧
      statement? x (c :: s) = (line.apply x).map (·, r) := by
  -- a header is told by its bracket, an entry by its key
  cases line with
  | idle => exact absurd rfl hi
  | header name =>
    refine ⟨'[', _, List.cons_append, skipFiller_of_head (by decide) _, ?_⟩
    rw [List.append_assoc, List.singleton_append, statement?_header h, Line.apply, Option.map_map]
    rfl
  | entry key v =>
    obtain ⟨hk, hv⟩ := h
    have hstatement := statement?_entry (x := x) hk hv hr
    obtain ⟨c, s, hkey, hc⟩ := hk.exists_cons
    have hfront : (Line.entry key v).front ++ r =
        c :: (s ++ ' ' :: '=' :: ' ' :: (v.chars ++ r)) := by
      simp [Line.front, hkey]
    rw [hkey, List.cons_append] at hstatement
    refine ⟨c, _, hfront, skipFiller_of_isScalarChar hc _, ?_⟩
    rw [hstatement, Line.apply, Option.map_map]
    rfl

/-! ## Texts -/

/-- A text is a statement on a line, and the text after this line. -/
theorem statements?_eq (x : Reading) (s : List Char) :
    statements? x s =
      match skipFiller s with
      | [] => some x.fields
      | c :: cs => (statement? x (c :: cs)).bind fun (y, t) => (lineEnd? t).bind (statements? y) := by
  -- the reader carries the lengths along to show that it ends; without them it is this equation
  rw [statements?]
  split
  next hs => rw [hs]
  next c cs hs =>
    rw [hs]
    dsimp only
    split
    next hc =>
      rw [hc]
      rfl
    next hc =>
      rw [hc, Option.bind_some]
      split
      next hr =>
        rw [hr]
        rfl
      next hr =>
        rw [hr]
        rfl

/-- A plain line is read as it says. -/
theorem statements?_line {line : Line} {s : String} (h : line.WellFormed) (hs : line.IsWritten s)
    (r : List Char) :
    statements? x (s.toList ++ '\n' :: r) = (line.apply x).bind fun y => statements? y r := by
  obtain ⟨note, hnote, heq⟩ : ∃ note, IsNote note ∧ s.toList = line.front ++ note := by
    rw [Line.IsWritten, Option.any_eq_true] at hs
    obtain ⟨note, hmark, hnote⟩ := hs
    exact ⟨note, of_decide_eq_true hnote, afterMark?_eq_some.1 hmark⟩
  rw [heq, List.append_assoc]
  -- an idle line is skipped together with what is in front of the next statement
  by_cases hi : line = .idle
  · subst hi
    rw [Line.front, List.nil_append, statements?_eq, skipFiller_note hnote, ← statements?_eq]
    rfl
  · obtain ⟨c, cs, hfront, hskip, hstatement⟩ :=
      statement?_front (x := x) hi h (ends_note hnote r)
    rw [hfront, statements?_eq, hskip]
    dsimp only
    rw [hstatement, Option.bind_map]
    refine Option.bind_congr fun y _ => ?_
    rw [Function.comp_apply, lineEnd?_note hnote]
    rfl

/-- A text of plain lines is read as its lines say. -/
theorem statements?_lines {lines : List (Line × String)}
    (h : ∀ line ∈ lines, line.1.WellFormed ∧ line.1.IsWritten line.2) :
    statements? x (lines.flatMap fun line => line.2.toList ++ ['\n']) =
      ((lines.map Prod.fst).foldlM Line.apply x).map (·.fields) := by
  induction lines generalizing x with
  | nil =>
    rw [List.flatMap_nil, statements?_eq, skipFiller]
    rfl
  | cons line lines ih =>
    obtain ⟨⟨hline, hs⟩, hlines⟩ := List.forall_mem_cons.1 h
    rw [List.flatMap_cons, List.append_assoc, List.singleton_append, statements?_line hline hs,
      List.map_cons, List.foldlM_cons, Option.bind_eq_bind, Option.map_bind]
    exact Option.bind_congr fun y _ => ih hlines

end

end NetPlot.Toml
