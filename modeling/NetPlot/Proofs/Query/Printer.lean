/-
  Queries written as texts.

  1. **Printer** — `print` writes a query without blanks: steps with their `/` or `//` in front,
     predicates in brackets, paths with `|` between them, and each text in the quotes that it
     lacks.

  2. **Parts** — the readers of literals, names and predicates take what was written for their part
     in front of any text that cannot go on with it: a name goes on with name characters only.

  3. **Moves** — a move is read back in front of the end of its step, which is the end of the text,
     `/` or `|` (`move_append`).
-/
import NetPlot.Proofs.Query.WellFormed
import NetPlot.Proofs.Text.Numeral

namespace NetPlot.Query

open NetPlot.Text

/-! ## Printer -/

/-- A quote that is not in the text, if one of them is not. -/
def quoteFor (s : String) : Char := if '\'' ∈ s.toList then '"' else '\''

/-- A text in the quotes that it lacks. -/
def quoted (s : String) : List Char := quoteFor s :: (s.toList ++ [quoteFor s])

theorem quoted_eq {s : String} (h : '\'' ∉ s.toList) : quoted s = '\'' :: (s.toList ++ ['\'']) := by
  rw [quoted, quoteFor, if_neg h]

/-- A name, or a star. -/
def NameTest.chars : NameTest → List Char
  | name n => n.toList
  | any => ['*']

/-- A predicate without its brackets. -/
def Predicate.chars : Predicate → List Char
  -- digits up to the bracket, which is none
  | position n => n.repr.toList
  | hasAttr attr => '@' :: attr.toList
  | attrEquals attr value => '@' :: (attr.toList ++ '=' :: quoted value)
  -- the first character is one of a name, so neither a digit nor `@` is met
  | childEquals child value => child.toList ++ '=' :: quoted value

/-- A predicate in its brackets. -/
def Predicate.inBrackets (p : Predicate) : List Char := '[' :: (p.chars ++ [']'])

/-- A move; a child step has its predicates behind it. -/
def Move.chars : Move → List Char
  | .self => ['.']
  | .parent => ['.', '.']
  | .attribute test => '@' :: test.chars
  | .text => "text()".toList
  | .child test predicates => test.chars ++ predicates.flatMap (·.inBrackets)

/-- A step with the mark in front of it. -/
def Step.chars (step : Step) : List Char :=
  (if step.descend then ['/', '/'] else ['/']) ++ step.move.chars

/-- A path; the first step of a relative one has no mark. -/
def LocationPath.chars (path : LocationPath) : List Char :=
  match path.absolute, path.steps with
  | true, [] => ['/']
  | true, steps => steps.flatMap (·.chars)
  | false, [] => []
  | false, step :: steps => step.move.chars ++ steps.flatMap (·.chars)

/-- The canonical text of a query. -/
def print : Query → String
  | .literal text => String.ofList (quoted text)
  | .union paths => String.ofList (['|'].intercalate (paths.map (·.chars)))

namespace Reader

/-! ## Literals and names

A literal ends with its quote and needs no condition on what follows.  A name ends where a character
follows that no name has, so this is the condition that comes with every name. -/

theorem afterMark?_of_head {m c : Char} (h : c ≠ m) (mark s : List Char) :
    afterMark? (m :: mark) (c :: s) = none := if_neg h.symm

/-- A text in its quotes is read back, whatever follows: the quote is not in it, so the first one
behind it closes it. -/
theorem literal_quoted {v : String} (h : Quotable v) (rest : List Char) :
    literal (quoted v ++ rest) = .ok (v, rest) := by
  -- one of the two quotes is chosen, and it is one that the text lacks
  have hquote : quoteFor v = '\'' ∨ quoteFor v = '"' := by
    rw [quoteFor]
    split
    · exact Or.inr rfl
    · exact Or.inl rfl
  have hnot : quoteFor v ∉ v.toList := by
    rw [quoteFor]
    split
    next hs => exact h.resolve_left (not_not_intro hs)
    next hs => exact hs
  have hcut : cutAt [quoteFor v] (v.toList ++ [quoteFor v] ++ rest) = some (v.toList, rest) := by
    refine (cutAt_eq_some_iff (List.cons_ne_nil _ _)).2 ⟨rfl, fun hi => hnot ?_⟩
    rw [List.dropLast_singleton, List.append_nil] at hi
    exact hi.subset (List.mem_singleton.2 rfl)
  rw [quoted, List.cons_append, literal, if_pos hquote, hcut]
  exact congrArg (fun w => Except.ok (w, rest)) String.ofList_toList

theorem isNameChar_of_isNameStart {c : Char} (h : isNameStart c = true) : isNameChar c = true := by
  rw [isNameStart_iff] at h
  rw [isNameChar_iff, isAlphanumeric, Bool.or_eq_true]
  exact h.imp Or.inl fun h => List.mem_cons.2 (Or.inl h)

/-- The characters of a name. -/
theorem of_isName {n : String} (h : IsName n) :
    ∃ c s, n.toList = c :: s ∧ isNameStart c = true ∧ ∀ d ∈ c :: s, isNameChar d = true := by
  obtain ⟨c, s, hn, hc, hs⟩ := h
  refine ⟨c, s, hn, isNameStart_iff.2 hc, ?_⟩
  rintro d (_ | ⟨_, hd⟩)
  · exact isNameChar_of_isNameStart (isNameStart_iff.2 hc)
  · exact isNameChar_iff.2 (hs d hd)

/-- A character that no name has is not in a name. -/
theorem not_mem_of_isName {n : String} (h : IsName n) {c : Char} (hc : isNameChar c = false) :
    c ∉ n.toList := by
  obtain ⟨d, s, hn, -, hchars⟩ := of_isName h
  rw [hn]
  intro hmem
  cases (hchars c hmem).symm.trans hc

/-- What does not go on with a name. -/
def EndsName (rest : List Char) : Prop := ∀ c ∈ rest.head?, isNameChar c = false

/-- A name is read up to what ends it. -/
theorem name_append {n : String} (h : IsName n) {rest : List Char} (hr : EndsName rest) :
    name (n.toList ++ rest) = .ok (n, rest) := by
  obtain ⟨c, s, hn, hc, hs⟩ := of_isName h
  rw [hn, List.cons_append, name, if_pos hc,
    splitRun_of_run (fun d hd => hs d (List.mem_cons_of_mem c hd)) hr]
  exact congrArg (fun w => Except.ok (w, rest)) (hn ▸ String.ofList_toList)

-- The marks of the language and the characters of names are told apart by the tables, once.
theorem not_isNameStart_of_mem : ∀ c ∈ ['.', '@', '*', '/', '|', '\'', '"'],
    isNameStart c = false := forall_mem_of_all (by decide +kernel)

theorem not_isNameChar_of_mem : ∀ c ∈ ['/', '|', '[', ']', '=', '('],
    isNameChar c = false := forall_mem_of_all (by decide +kernel)

/-- A name begins with neither a mark, a digit nor a blank. -/
theorem of_isNameStart {c : Char} (h : isNameStart c = true) :
    c ∉ ['.', '@', '*', '/', '|', '\'', '"'] ∧ c.isDigit = false ∧ isBlank c = false := by
  refine ⟨fun hm => ?_, ?_, ?_⟩
  · rw [not_isNameStart_of_mem c hm] at h
    cases h
  -- a letter or the underscore, and neither is a digit
  · rw [isNameStart_iff] at h
    rw [Bool.eq_false_iff]
    intro hd
    rcases h with h | rfl
    · rw [isAlphabetic_of_isDigit hd] at h
      cases h
    · cases hd
  · rw [isNameStart_iff] at h
    rw [Bool.eq_false_iff]
    intro hb
    rcases h with h | rfl
    · rw [isAlphabetic_of_isBlank hb] at h
      cases h
    · cases hb

/-- A test is read up to what ends a name; a star needs no such end, but has it all the same. -/
theorem nameTest_append {t : NameTest} (h : t.WellFormed) {rest : List Char} (hr : EndsName rest) :
    nameTest (t.chars ++ rest) = .ok (t, rest) := by
  cases t with
  | any => rfl
  | name n =>
    obtain ⟨c, s, hn, hc, -⟩ := of_isName h
    have hne : c ≠ '*' := by
      rintro rfl
      exact (of_isNameStart hc).1 (by decide)
    have hmark : afterMark? ['*'] (n.toList ++ rest) = none := by
      rw [hn]
      exact afterMark?_of_head hne [] (s ++ rest)
    rw [NameTest.chars, nameTest, hmark, name_append h hr]
    rfl

/-! ## Predicates

Inside of brackets a name is followed by the closing bracket or by the equals sign, and neither can
be part of a name.  So the only condition that is left is that the predicate is well-formed. -/

/-- A quoted text does not begin with a blank. -/
theorem skipBlanks_quoted (v : String) (rest : List Char) :
    skipBlanks (quoted v ++ rest) = quoted v ++ rest := by
  refine skipBlanks_of_head ?_
  rintro c ⟨⟩
  rw [quoteFor]
  split <;> rfl

theorem afterMark?_at (s : List Char) : afterMark? ['@'] ('@' :: s) = some s := rfl

theorem afterMark?_equals (s : List Char) :
    afterMark? ['='] (skipBlanks ('=' :: s)) = some s := rfl

/-- Without a digit in front there is no number. -/
theorem splitRun_of_head {c : Char} (h : c.isDigit = false) (s : List Char) :
    splitRun Char.isDigit (c :: s) = ([], c :: s) :=
  splitRun_of_run (s := []) (fun d hd => absurd hd List.not_mem_nil) fun d hd => by
    cases hd
    exact h

/-- A predicate is read up to the bracket behind it. -/
theorem predicate_append {p : Predicate} (h : p.WellFormed) (rest : List Char) :
    predicate (p.chars ++ ']' :: rest) = .ok (p, ']' :: rest) := by
  -- names end before the closing bracket and before the equals sign
  have hclose : EndsName (']' :: rest) := by
    rintro c ⟨⟩
    exact not_isNameChar_of_mem _ (by decide)
  have hequals (s : List Char) : EndsName ('=' :: s) := by
    rintro c ⟨⟩
    exact not_isNameChar_of_mem _ (by decide)
  cases p with
  | position n =>
    obtain ⟨d, ds, hd⟩ := exists_cons_repr n
    have hrun := splitRun_repr (n := n) (r := ']' :: rest) (by rintro c ⟨⟩; rfl)
    have hn := numeral_repr n
    rw [hd] at hrun hn
    rw [Predicate.chars, predicate, hd, hrun]
    simp only [hn]
    exact if_pos h
  | hasAttr attr =>
    rw [Predicate.chars, List.cons_append, predicate, splitRun_of_head rfl]
    simp only [afterMark?_at, name_append h hclose, bind, Except.bind]
    rfl
  | attrEquals attr value =>
    have hvalue := literal_quoted h.2 (']' :: rest)
    rw [← skipBlanks_quoted] at hvalue
    rw [Predicate.chars, List.cons_append, List.append_assoc, List.cons_append, predicate,
      splitRun_of_head rfl]
    simp only [afterMark?_at, name_append h.1 (hequals _), afterMark?_equals, bind, Except.bind,
      hvalue]
  | childEquals child value =>
    -- a child name starts with neither a digit nor the mark, so neither earlier form is tried
    obtain ⟨c, s, hc, hstart, -⟩ := of_isName h.1
    obtain ⟨hmark, hdigit, -⟩ := of_isNameStart hstart
    have hat : c ≠ '@' := by
      rintro rfl
      exact hmark (by decide)
    have hvalue := literal_quoted h.2 (']' :: rest)
    have hname := name_append h.1 (hequals (quoted value ++ ']' :: rest))
    rw [← skipBlanks_quoted] at hvalue
    rw [hc] at hname
    rw [Predicate.chars, List.append_assoc, List.cons_append, hc, List.cons_append, predicate,
      splitRun_of_head hdigit]
    simp only [afterMark?_of_head hat]
    rw [← List.cons_append, hname]
    simp only [afterMark?_equals, bind, Except.bind, hvalue]

/-- A predicate begins with no blank. -/
theorem skipBlanks_predicate {p : Predicate} (h : p.WellFormed) (rest : List Char) :
    skipBlanks (p.chars ++ rest) = p.chars ++ rest := by
  -- whatever the predicate begins with, it is no blank
  have hname {n : String} (hn : IsName n) (r : List Char) :
      ∀ c ∈ (n.toList ++ r).head?, isBlank c = false := by
    obtain ⟨c, s, hc, hstart, -⟩ := of_isName hn
    rw [hc]
    rintro d ⟨⟩
    exact (of_isNameStart hstart).2.2
  refine skipBlanks_of_head ?_
  cases p with
  | position n =>
    obtain ⟨d, ds, hd⟩ := exists_cons_repr n
    rw [Predicate.chars, hd]
    rintro c ⟨⟩
    exact isBlank_of_isDigit (isDigit_of_mem_repr (hd ▸ List.mem_cons_self))
  | hasAttr attr => rintro c ⟨⟩; rfl
  | attrEquals attr value => rintro c ⟨⟩; rfl
  | childEquals child value =>
    rw [Predicate.chars, List.append_assoc]
    exact hname h.1 _

/-- A predicate is read with the bracket behind it. -/
theorem bracketed_append {p : Predicate} (h : p.WellFormed) (rest : List Char) :
    bracketed (p.chars ++ ']' :: rest) = .ok (p, rest) := by
  rw [bracketed, skipBlanks_predicate h, predicate_append h]
  rfl

/-- Without a bracket there are no more predicates. -/
theorem predicates_of_none {s : List Char} (h : afterMark? ['['] (skipBlanks s) = none) :
    predicates s = .ok ([], skipBlanks s) := by
  rw [predicates]
  split
  next => rfl
  next hs => cases h.symm.trans hs

/-- With a bracket there is one more predicate than behind it. -/
theorem predicates_of_bracketed {s s' r : List Char} {p : Predicate}
    (h : afterMark? ['['] (skipBlanks s) = some s') (hp : bracketed s' = .ok (p, r)) :
    predicates s = (do
      let (ps, r) ← predicates r
      .ok (p :: ps, r)) := by
  rw [predicates]
  split
  next hn => cases h.symm.trans hn
  next s'' hs =>
    obtain rfl : s' = s'' := Option.some.inj (h.symm.trans hs)
    split
    next he => cases hp.symm.trans he
    next hp' =>
      cases hp.symm.trans hp'
      rfl

/-- The end of the text, or the mark of another step or another path. -/
def EndsStep (rest : List Char) : Prop := ∀ c ∈ rest.head?, c = '/' ∨ c = '|'

theorem EndsStep.skipBlanks_eq {rest : List Char} (h : EndsStep rest) : skipBlanks rest = rest := by
  refine skipBlanks_of_head fun c hc => ?_
  rcases h c hc with rfl | rfl <;> rfl

theorem EndsStep.afterMark?_eq_none {rest : List Char} (h : EndsStep rest) {m : Char}
    (hm : m ≠ '/' ∧ m ≠ '|') (mark : List Char) : afterMark? (m :: mark) rest = none := by
  cases rest with
  | nil => rfl
  | cons c rest =>
    refine afterMark?_of_head ?_ mark rest
    rcases h c rfl with rfl | rfl
    · exact hm.1.symm
    · exact hm.2.symm

/-- The predicates of a step are read up to the end of the step, by induction on their list. -/
theorem predicates_append {ps : List Predicate} (h : ∀ p ∈ ps, p.WellFormed) {rest : List Char}
    (hr : EndsStep rest) : predicates (ps.flatMap (·.inBrackets) ++ rest) = .ok (ps, rest) := by
  induction ps with
  | nil =>
    rw [List.flatMap_nil, List.nil_append, predicates_of_none, hr.skipBlanks_eq]
    rw [hr.skipBlanks_eq]
    exact hr.afterMark?_eq_none (by decide) []
  | cons p ps ih =>
    have hp := bracketed_append (h p List.mem_cons_self) (ps.flatMap (·.inBrackets) ++ rest)
    have hopen : (p :: ps).flatMap (·.inBrackets) ++ rest =
        '[' :: (p.chars ++ ']' :: (ps.flatMap (·.inBrackets) ++ rest)) := by
      simp [Predicate.inBrackets]
    rw [hopen, predicates_of_bracketed rfl hp, ih fun q hq => h q (List.mem_cons_of_mem p hq)]
    rfl

/-! ## Moves

A child step is what is left when no other mark is there.  So for it alone it has to be shown that
its name does not begin like one of the other moves. -/

/-- What follows the name of a step: predicates, or the end of the step. -/
theorem head?_predicates_append (ps : List Predicate) {rest : List Char} (hr : EndsStep rest) :
    ∀ c ∈ (ps.flatMap (·.inBrackets) ++ rest).head?, c ∈ ['/', '|', '['] := by
  cases ps with
  | nil => exact fun c hc => by rcases hr c hc with rfl | rfl <;> simp
  | cons p ps => rintro c ⟨⟩; decide

/-- `text()` is no name with something behind it that ends a name. -/
theorem afterMark?_text_of_isName {n : String} (h : IsName n) {rest : List Char}
    (hr : EndsName rest) (hp : ∀ c ∈ rest.head?, c ≠ '(') :
    afterMark? "text()".toList (n.toList ++ rest) = none := by
  obtain ⟨c, s, hn, -, hs⟩ := of_isName h
  rw [Option.eq_none_iff_forall_ne_some]
  intro r hm
  -- the name would be `text`, as a name is as long as it can be
  have hsplit : n.toList ++ rest = "text".toList ++ ('(' :: ')' :: r) :=
    (afterMark?_eq_some.1 hm).trans rfl
  have hname : splitRun isNameChar (n.toList ++ rest) = (n.toList, rest) :=
    splitRun_of_run (hn ▸ hs) hr
  have htext : splitRun isNameChar ("text".toList ++ '(' :: ')' :: r)
      = ("text".toList, '(' :: ')' :: r) :=
    splitRun_of_run (forall_mem_of_all (by decide +kernel))
      (by rintro c ⟨⟩; exact not_isNameChar_of_mem _ (by decide))
  rw [hsplit, htext, Prod.mk.injEq] at hname
  rw [← hname.2] at hp
  exact hp '(' rfl rfl

/-- Without the mark of another move in front, the move is to children. -/
theorem move_of_none {s : List Char} (hp : afterMark? "..".toList s = none)
    (hs : afterMark? ".".toList s = none) (ha : afterMark? "@".toList s = none)
    (ht : afterMark? "text()".toList s = none) :
    move s = (do
      let (test, r) ← nameTest s
      let (ps, r) ← predicates r
      .ok (.child test ps, r)) := by
  rw [move]
  simp only [hp, hs, ha, ht]

/-- A move is read up to the end of its step. -/
theorem move_append {m : Move} (h : m.WellFormed) {rest : List Char} (hr : EndsStep rest) :
    move (m.chars ++ rest) = .ok (m, rest) := by
  cases m with
  -- one dot, and what ends the step is no second one
  | self =>
    have hparent : afterMark? "..".toList ('.' :: rest) = none :=
      hr.afterMark?_eq_none (m := '.') (by decide) []
    change move ('.' :: rest) = _
    rw [move, hparent]
    rfl
  | parent => rfl
  | «attribute» test =>
    have hname : EndsName rest := fun c hc => by
      rcases hr c hc with rfl | rfl <;> exact not_isNameChar_of_mem _ (by decide)
    have htest := nameTest_append h hname
    change (do
      let (test, r) ← nameTest (test.chars ++ rest)
      .ok (Move.attribute test, r)) = _
    rw [htest]
    rfl
  | text => rfl
  | child test ps =>
    have hhead := head?_predicates_append ps hr
    have hname : EndsName (ps.flatMap (·.inBrackets) ++ rest) := fun c hc => by
      have hc := hhead c hc
      exact not_isNameChar_of_mem c (by simp at hc ⊢; tauto)
    -- a name or a star begins with none of the marks, and `text` with brackets is no name
    have hmove : move (test.chars ++ (ps.flatMap (·.inBrackets) ++ rest)) = (do
        let (test, r) ← nameTest (test.chars ++ (ps.flatMap (·.inBrackets) ++ rest))
        let (ps, r) ← predicates r
        .ok (.child test ps, r)) := by
      cases test with
      | any => exact move_of_none rfl rfl rfl rfl
      | name n =>
        obtain ⟨c, s, hn, hstart, -⟩ := of_isName h.1
        have hmark := (of_isNameStart hstart).1
        have hne : c ≠ '.' ∧ c ≠ '@' := by
          constructor <;> rintro rfl <;> exact hmark (by decide)
        have htext := afterMark?_text_of_isName h.1 hname fun c hc he => by
          have hc := hhead c hc
          rw [he] at hc
          exact absurd hc (by decide)
        refine move_of_none ?_ ?_ ?_ htext <;> rw [NameTest.chars, hn]
        · exact afterMark?_of_head hne.1 ['.'] _
        · exact afterMark?_of_head hne.1 [] _
        · exact afterMark?_of_head hne.2 [] _
    change move (test.chars ++ ps.flatMap (·.inBrackets) ++ rest) = _
    rw [List.append_assoc, hmove, nameTest_append h.1 hname]
    change (do
      let (ps, r) ← predicates (ps.flatMap Predicate.inBrackets ++ rest)
      .ok (Move.child test ps, r)) = _
    rw [predicates_append h.2 hr]
    rfl

end Reader

end NetPlot.Query
