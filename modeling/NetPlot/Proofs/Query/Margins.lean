/-
  Queries with blanks around them.

  1. **Readers** — a reader `SparesEnd` when it reads a text without the blanks at its end as it
     reads the text with them, and leaves what it left before without those blanks.  A reader made
     of such readers is one again, which takes a query apart as its readers do: literals, names,
     predicates, moves, steps, paths.

  2. **Loops** — the readers that call themselves are unfolded by one equation each
     (`predicates_eq`, `steps_eq`, `paths_eq`); the proofs go by induction along their calls.

  3. **Queries** — blanks around a query are no part of it (`parse_trim`).

  A label trims its columns before it reads them as queries, and a query that is read by itself is
  not trimmed.  That this makes no difference is needed wherever the two are compared.
-/
import NetPlot.Proofs.Query.WellFormed
import NetPlot.Proofs.Text.Classes
import NetPlot.Proofs.Text.Ends

namespace NetPlot.Query

open NetPlot.Text

namespace Reader

/-! ## Names and literals -/

/-- Names hold no blanks: the classes of letters, of numbers and of blanks have no character in
common, and the four marks are none. -/
theorem isBlank_of_isNameChar (c : Char) (h : isNameChar c = true) : isBlank c = false := by
  rw [Bool.eq_false_iff]
  intro hb
  have hn : isNumber c = false := not_inRanges_of_apart (by decide +kernel) hb
  rcases isNameChar_iff.1 h with h | h
  · rw [isAlphanumeric, isAlphabetic_of_isBlank hb, hn] at h
    cases h
  · have hmarks : ∀ d ∈ ['_', '-', '.', ':'], isBlank d = false := forall_mem_of_all (by decide)
    exact absurd hb (by simp [hmarks c h])

theorem isBlank_of_isNameStart {c : Char} (h : isNameStart c = true) : isBlank c = false := by
  rw [Bool.eq_false_iff]
  intro hb
  rcases isNameStart_iff.1 h with h | rfl
  · exact absurd h (by simp [isAlphabetic_of_isBlank hb])
  · cases hb

/-- A reader that does not look at blanks at the end of the text. -/
def SparesEnd {α : Type} (f : List Char → Answer (α × List Char)) : Prop :=
  ∀ ⦃s r : List Char⦄ ⦃a : α⦄, f s = .ok (a, r) → f (dropEndBlanks s) = .ok (a, dropEndBlanks r)

/-- So does the reader that skips blanks in front. -/
theorem SparesEnd.skip {α : Type} {f : List Char → Answer (α × List Char)} (hf : SparesEnd f) :
    SparesEnd fun s => f (skipBlanks s) := by
  intro s r a h
  show f (skipBlanks (dropEndBlanks s)) = _
  rw [skipBlanks_dropEndBlanks]
  exact hf h

/-- A literal ends at its closing quote, which is no blank; what follows loses its blanks and
nothing else. -/
theorem sparesEnd_literal : SparesEnd literal := by
  intro s r v h
  cases s with
  | nil => cases h
  | cons q s =>
    rw [literal] at h
    split at h
    next hq =>
      split at h
      -- the closing quote is no blank, so the blanks to drop stand behind it
      next value r' hc =>
        cases h
        have hb : isBlank q = false := by rcases hq with rfl | rfl <;> rfl
        rw [dropEndBlanks_cons_of_not hb, literal, if_pos hq, cutAt_dropEndBlanks hb hc]
      next => cases h
    next => cases h

/-- A name is a run of characters that are not blank. -/
theorem sparesEnd_name : SparesEnd name := by
  intro s r v h
  cases s with
  | nil => cases h
  | cons c s =>
    rw [name] at h
    split at h
    next hc =>
      cases h
      rw [dropEndBlanks_cons_of_not (isBlank_of_isNameStart hc), name, if_pos hc,
        splitRun_dropEndBlanks isBlank_of_isNameChar]
      rfl
    next => cases h

/-! ## Predicates

The readers ask for marks without blanks, after they have skipped blanks where those may stand.  So
each question has the same answer with and without the blanks at the end of the text
(`afterMark?_dropEndBlanks`, `skipBlanks_dropEndBlanks`), and each proof takes the branch that the
reader has taken. -/

/-- A number, or a name with or without `@` in front and with or without a value behind it. -/
theorem sparesEnd_predicate : SparesEnd predicate := by
  intro s r p h
  unfold predicate at h ⊢
  rw [splitRun_dropEndBlanks fun _ => isBlank_of_isDigit]
  split at h
  -- digits: the number is the same run
  next d ds r' hs =>
    rw [hs]
    split at h
    next hn =>
      cases h
      exact if_pos hn
    next => cases h
  next r' hs =>
    simp (disch := decide) only [hs, afterMark?_dropEndBlanks]
    split at h
    -- the name of an attribute, which may stand alone
    next s₁ hm =>
      obtain ⟨⟨a, s₂⟩, ha, h⟩ := Answer.bind_eq_ok.1 h
      rw [hm]
      refine Answer.bind_eq_ok.2 ⟨_, sparesEnd_name ha, ?_⟩
      simp (disch := decide) only [skipBlanks_dropEndBlanks, afterMark?_dropEndBlanks] at h ⊢
      split at h
      next s₃ he =>
        obtain ⟨⟨v, s₄⟩, hv, h⟩ := Answer.bind_eq_ok.1 h
        cases h
        rw [he]
        exact Answer.bind_eq_ok.2 ⟨_, sparesEnd_literal.skip hv, rfl⟩
      next he =>
        cases h
        rw [he]
        rfl
    next hm =>
      obtain ⟨⟨a, s₂⟩, ha, h⟩ := Answer.bind_eq_ok.1 h
      rw [hm]
      refine Answer.bind_eq_ok.2 ⟨_, sparesEnd_name ha, ?_⟩
      simp (disch := decide) only [skipBlanks_dropEndBlanks, afterMark?_dropEndBlanks] at h ⊢
      split at h
      next s₃ he =>
        obtain ⟨⟨v, s₄⟩, hv, h⟩ := Answer.bind_eq_ok.1 h
        cases h
        rw [he]
        exact Answer.bind_eq_ok.2 ⟨_, sparesEnd_literal.skip hv, rfl⟩
      next => cases h

theorem sparesEnd_bracketed : SparesEnd bracketed := by
  intro s r p h
  obtain ⟨⟨p', s'⟩, hp, h⟩ := Answer.bind_eq_ok.1 h
  refine Answer.bind_eq_ok.2 ⟨_, sparesEnd_predicate.skip hp, ?_⟩
  simp (disch := decide) only [skipBlanks_dropEndBlanks, afterMark?_dropEndBlanks] at h ⊢
  split at h
  next hm =>
    cases h
    rw [hm]
    rfl
  next => cases h

/-- The recursion of the predicates as one equation.  The definition goes by the shorter rest and
has the proof of that in its branches. -/
theorem predicates_eq (s : List Char) :
    predicates s =
      match afterMark? ['['] (skipBlanks s) with
      | none => .ok ([], skipBlanks s)
      | some s' => (do
        let (p, r) ← bracketed s'
        let (ps, r) ← predicates r
        .ok (p :: ps, r)) := by
  rw [predicates]
  split
  next hm => rw [hm]
  next s' hm =>
    rw [hm]
    split
    next he => simp only [he]; rfl
    next hp => simp only [hp]; rfl

/-- Along the recursion of the reader: no bracket, a predicate that is refused, or one in front of
others. -/
theorem sparesEnd_predicates : SparesEnd predicates := by
  intro s r ps h
  fun_induction predicates s generalizing ps r with
  | case1 s hm =>
    cases h
    rw [predicates_eq]
    simp (disch := decide) only [skipBlanks_dropEndBlanks, afterMark?_dropEndBlanks, hm,
      Option.map_none]
  | case2 => cases h
  | case3 s s' hm p r' hp ih =>
    obtain ⟨⟨more, r''⟩, hmore, h⟩ := Answer.bind_eq_ok.1 h
    cases h
    rw [predicates_eq]
    simp (disch := decide) only [skipBlanks_dropEndBlanks, afterMark?_dropEndBlanks, hm,
      Option.map_some]
    exact Answer.bind_eq_ok.2 ⟨_, sparesEnd_bracketed hp,
      Answer.bind_eq_ok.2 ⟨_, ih hmore, rfl⟩⟩

/-! ## Steps and paths -/

/-- A star or a name, neither of which is a blank. -/
theorem sparesEnd_nameTest : SparesEnd nameTest := by
  intro s r t h
  unfold nameTest at h ⊢
  simp (disch := decide) only [afterMark?_dropEndBlanks]
  split at h
  next hm =>
    cases h
    rw [hm]
    rfl
  next hm =>
    obtain ⟨⟨n, r'⟩, hn, h⟩ := Answer.bind_eq_ok.1 h
    cases h
    rw [hm]
    exact Answer.bind_eq_ok.2 ⟨_, sparesEnd_name hn, rfl⟩

/-- The four marks and then a name, tried one after the other as the reader does. -/
theorem sparesEnd_move : SparesEnd move := by
  intro s r m h
  unfold move at h ⊢
  -- no mark of a move holds a blank, so each is found in both texts or in neither
  simp (disch := decide) only [afterMark?_dropEndBlanks]
  cases h₁ : afterMark? "..".toList s with
  | some r₁ =>
    simp only [h₁] at h
    cases h
    rfl
  | none =>
  cases h₂ : afterMark? ".".toList s with
  | some r₂ =>
    simp only [h₁, h₂] at h
    cases h
    rfl
  | none =>
  cases h₃ : afterMark? "@".toList s with
  | some r₃ =>
    simp only [h₁, h₂, h₃] at h
    obtain ⟨⟨t, r'⟩, ht, h⟩ := Answer.bind_eq_ok.1 h
    cases h
    exact Answer.bind_eq_ok.2 ⟨_, sparesEnd_nameTest ht, rfl⟩
  | none =>
  cases h₄ : afterMark? "text()".toList s with
  | some r₄ =>
    simp only [h₁, h₂, h₃, h₄] at h
    cases h
    rfl
  | none =>
    simp only [h₁, h₂, h₃, h₄] at h
    obtain ⟨⟨t, r'⟩, ht, h⟩ := Answer.bind_eq_ok.1 h
    obtain ⟨⟨ps, r''⟩, hps, h⟩ := Answer.bind_eq_ok.1 h
    cases h
    exact Answer.bind_eq_ok.2 ⟨_, sparesEnd_nameTest ht,
      Answer.bind_eq_ok.2 ⟨_, sparesEnd_predicates hps, rfl⟩⟩

theorem steps_eq (descend : Bool) (s : List Char) :
    steps descend s = (do
      let (m, r) ← move (skipBlanks s)
      match afterMark? ['/', '/'] (skipBlanks r) with
      | some r' => do
        let (more, r') ← steps true r'
        .ok (⟨descend, m⟩ :: more, r')
      | none =>
        match afterMark? ['/'] (skipBlanks r) with
        | some r' => do
          let (more, r') ← steps false r'
          .ok (⟨descend, m⟩ :: more, r')
        | none => .ok ([⟨descend, m⟩], skipBlanks r)) := by
  rw [steps]
  cases move (skipBlanks s) with
  | error e => rfl
  | ok v =>
    obtain ⟨m, r⟩ := v
    simp only [bind, Except.bind]
    cases afterMark? ['/', '/'] (skipBlanks r) with
    | some r' => rfl
    | none => cases afterMark? ['/'] (skipBlanks r) <;> rfl

/-- Along the recursion of the reader: the step is refused, or `//`, `/` or neither follows it. -/
theorem sparesEnd_steps (descend : Bool) : SparesEnd (steps descend) := by
  intro s r ss h
  fun_induction steps descend s generalizing ss r with
  | case1 => cases h
  | case2 descend s m r₁ hm r₂ hd ih =>
    obtain ⟨⟨more, r'⟩, hmore, h⟩ := Answer.bind_eq_ok.1 h
    cases h
    rw [steps_eq]
    refine Answer.bind_eq_ok.2 ⟨_, sparesEnd_move.skip hm, ?_⟩
    simp (disch := decide) only [skipBlanks_dropEndBlanks, afterMark?_dropEndBlanks, hd]
    exact Answer.bind_eq_ok.2 ⟨_, ih hmore, rfl⟩
  | case3 descend s m r₁ hm hd r₂ hs ih =>
    obtain ⟨⟨more, r'⟩, hmore, h⟩ := Answer.bind_eq_ok.1 h
    cases h
    rw [steps_eq]
    refine Answer.bind_eq_ok.2 ⟨_, sparesEnd_move.skip hm, ?_⟩
    simp (disch := decide) only [skipBlanks_dropEndBlanks, afterMark?_dropEndBlanks, hd, hs]
    exact Answer.bind_eq_ok.2 ⟨_, ih hmore, rfl⟩
  | case4 descend s m r₁ hm hd hs =>
    cases h
    rw [steps_eq]
    refine Answer.bind_eq_ok.2 ⟨_, sparesEnd_move.skip hm, ?_⟩
    simp (disch := decide) only [skipBlanks_dropEndBlanks, afterMark?_dropEndBlanks, hd, hs]
    rfl

/-- A path by its beginning: `//`, `/` which may be all there is, or a first step. -/
theorem sparesEnd_path : SparesEnd path := by
  intro s r p h
  unfold path at h ⊢
  simp (disch := decide) only [afterMark?_dropEndBlanks]
  cases h₁ : afterMark? "//".toList s with
  | some r₁ =>
    simp only [h₁] at h
    obtain ⟨⟨ss, r'⟩, hss, h⟩ := Answer.bind_eq_ok.1 h
    cases h
    exact Answer.bind_eq_ok.2 ⟨_, sparesEnd_steps true hss, rfl⟩
  | none =>
  cases h₂ : afterMark? "/".toList s with
  | some r₂ =>
    simp only [h₁, h₂] at h
    simp only [Option.map_none, Option.map_some, skipBlanks_dropEndBlanks,
      head?_dropEndBlanks_skipBlanks]
    split at h
    -- the slash is the whole path when nothing but blanks and a bar follow
    next hr =>
      cases h
      rw [if_pos hr]
    next hr =>
      obtain ⟨⟨ss, r'⟩, hss, h⟩ := Answer.bind_eq_ok.1 h
      cases h
      rw [if_neg hr]
      exact Answer.bind_eq_ok.2 ⟨_, sparesEnd_steps false hss, rfl⟩
  | none =>
    simp only [h₁, h₂] at h
    obtain ⟨⟨ss, r'⟩, hss, h⟩ := Answer.bind_eq_ok.1 h
    cases h
    exact Answer.bind_eq_ok.2 ⟨_, sparesEnd_steps false hss, rfl⟩

theorem paths_eq (s : List Char) :
    paths s = (do
      let (p, r) ← path s
      match afterMark? ['|'] (skipBlanks r) with
      | some r' => do
        let (more, r') ← paths (skipBlanks r')
        .ok (p :: more, r')
      | none => .ok ([p], skipBlanks r)) := by
  rw [paths]
  cases path s with
  | error e => rfl
  | ok v =>
    obtain ⟨p, r⟩ := v
    simp only [bind, Except.bind]
    cases afterMark? ['|'] (skipBlanks r) <;> rfl

/-- Along the recursion of the reader: the path is refused, or a bar follows, or not. -/
theorem sparesEnd_paths : SparesEnd paths := by
  intro s r ps h
  fun_induction paths s generalizing ps r with
  | case1 => cases h
  | case2 s p r₁ hp r₂ hm ih =>
    obtain ⟨⟨more, r'⟩, hmore, h⟩ := Answer.bind_eq_ok.1 h
    cases h
    rw [paths_eq]
    refine Answer.bind_eq_ok.2 ⟨_, sparesEnd_path hp, ?_⟩
    simp (disch := decide) only [skipBlanks_dropEndBlanks, afterMark?_dropEndBlanks, hm,
      Option.map_some]
    exact Answer.bind_eq_ok.2 ⟨_, ih hmore, rfl⟩
  | case3 s p r₁ hp hm =>
    cases h
    rw [paths_eq]
    refine Answer.bind_eq_ok.2 ⟨_, sparesEnd_path hp, ?_⟩
    simp (disch := decide) only [skipBlanks_dropEndBlanks, afterMark?_dropEndBlanks, hm]
    rfl

/-! ## Queries -/

/-- No query is empty. -/
theorem query_nil : query [] = .error ⟨.expectedName, []⟩ := by
  have hsteps : steps false [] = .error ⟨.expectedName, []⟩ := by
    rw [steps_eq]
    rfl
  have hpath : path [] = .error ⟨.expectedName, []⟩ := by
    change (steps false [] >>= _) = _
    rw [hsteps]
    rfl
  have hpaths : paths [] = .error ⟨.expectedName, []⟩ := by
    rw [paths_eq, hpath]
    rfl
  change (paths [] >>= _) = _
  rw [hpaths]
  rfl

/-- The first character that is not blank decides between a literal and paths, and it stays the
same. -/
theorem sparesEnd_query : SparesEnd fun s => query (skipBlanks s) := by
  intro s r q h
  simp only [query, skipBlanks_dropEndBlanks, head?_dropEndBlanks_skipBlanks] at h ⊢
  split at h
  next hq =>
    obtain ⟨⟨text, r'⟩, htext, h⟩ := Answer.bind_eq_ok.1 h
    cases h
    rw [if_pos hq]
    exact Answer.bind_eq_ok.2 ⟨_, sparesEnd_literal htext, rfl⟩
  next hq =>
    obtain ⟨⟨ps, r'⟩, hps, h⟩ := Answer.bind_eq_ok.1 h
    cases h
    rw [if_neg hq]
    exact Answer.bind_eq_ok.2 ⟨_, sparesEnd_paths hps, rfl⟩

end Reader

/-- A query is read from its text without the blanks around it as well. -/
theorem parse_trim {text : String} {q : Query} (h : parse text = .ok q) :
    parse (trim text) = .ok q := by
  obtain ⟨⟨q', r⟩, hq, h⟩ := Answer.bind_eq_ok.1 (parse_eq_ok.1 h)
  -- `trim` cuts the front first, so the reader starts where it started before
  have hskip : skipBlanks (skipBlanks text.toList) = skipBlanks text.toList :=
    skipBlanks_of_head head?_dropWhile_class
  rw [parse_eq_ok, trim, String.toList_ofList, trimChars]
  have hrest : skipBlanks (dropEndBlanks r) = dropEndBlanks (skipBlanks r) :=
    skipBlanks_dropEndBlanks r
  refine Answer.bind_eq_ok.2 ⟨_, Reader.sparesEnd_query (s := skipBlanks text.toList) (hskip ▸ hq), ?_⟩
  simp only [hrest] at h ⊢
  split at h
  next hr =>
    cases h
    rw [hr]
    rfl
  next => cases h

end NetPlot.Query
