/-
  Well-formed queries.

  1. **Shape** — `WellFormed` says which queries have a text: names are names, a quoted text lacks
     one of the quotes, positions are at least one and fit in 64 bits, a union has a path and a
     relative path a step, which is not taken from below.  That only a move to children has
     predicates is already so by the type `Move`.

  2. **Soundness** — every reader gives something well-formed, so all that `parse` gives is
     well-formed (`wellFormed_of_parse_eq_ok`).
-/
import NetPlot.Proofs.Answer
import NetPlot.Proofs.Text.Cut
import NetPlot.Query.Parser

namespace NetPlot.Query

open NetPlot.Text

/-! ## Shape

The conditions are those that the printer needs.  Each of them is a check that some reader makes. -/

/-- A letter or underscore, and then letters, numbers and `_`, `-`, `.`, `:`. -/
def IsName (n : String) : Prop :=
  ∃ c s, n.toList = c :: s ∧ (isAlphabetic c = true ∨ c = '_') ∧
    ∀ d ∈ s, isAlphanumeric d = true ∨ d ∈ ['_', '-', '.', ':']

/-- One of the two quotes is not in the text. -/
def Quotable (s : String) : Prop := '\'' ∉ s.toList ∨ '"' ∉ s.toList

/-- A test for a name tests for one that can be written. -/
def NameTest.WellFormed : NameTest → Prop
  | name n => IsName n
  | any => True

/-- Positions count from one and fit in a machine word; names can be written, and values between
quotes. -/
def Predicate.WellFormed : Predicate → Prop
  | position n => 1 ≤ n ∧ n < UInt64.size
  | hasAttr attr => IsName attr
  | attrEquals attr value => IsName attr ∧ Quotable value
  | childEquals child value => IsName child ∧ Quotable value

/-- The tests of a move are well-formed, and so are its predicates. -/
def Move.WellFormed : Move → Prop
  | .self => True
  | .parent => True
  | .attribute test => test.WellFormed
  | .text => True
  | .child test predicates => test.WellFormed ∧ ∀ p ∈ predicates, p.WellFormed

/-- A relative path has a first step, which starts at the place itself. -/
structure LocationPath.WellFormed (path : LocationPath) : Prop where
  first : path.absolute = false → ∃ step ∈ path.steps.head?, step.descend = false
  moves : ∀ step ∈ path.steps, step.move.WellFormed

/-- A literal that can be quoted, or at least one path and well-formed ones only. -/
def WellFormed : Query → Prop
  | .literal text => Quotable text
  | .union paths => paths ≠ [] ∧ ∀ p ∈ paths, p.WellFormed

/-! ## Literals and names

What a reader gives, it has checked on the way.  Each proof goes through the branches of its reader
and keeps those that give an answer. -/

namespace Reader

/-- The value of a literal does not hold the quote that it stands in: a cut is made at the first
one. -/
theorem quotable_of_literal {s r : List Char} {v : String} (h : literal s = .ok (v, r)) :
    Quotable v := by
  cases s with
  | nil => cases h
  | cons q s =>
    rw [literal] at h
    split at h
    next hq =>
      split at h
      next value r' hc =>
        cases h
        -- the text ends at the first closing quote, so it holds none
        have hn : q ∉ value := fun hmem => by
          obtain ⟨a, b, hab⟩ := List.append_of_mem hmem
          exact not_infix_of_cutAt (List.cons_ne_nil q []) hc ⟨a, b, by simp [hab]⟩
        rw [Quotable, String.toList_ofList]
        rcases hq with rfl | rfl
        · exact Or.inl hn
        · exact Or.inr hn
      next => cases h
    next => cases h

theorem isNameStart_iff {c : Char} : isNameStart c = true ↔ isAlphabetic c = true ∨ c = '_' := by
  rw [isNameStart, Bool.or_eq_true, beq_iff_eq]

theorem isNameChar_iff {c : Char} :
    isNameChar c = true ↔ isAlphanumeric c = true ∨ c ∈ ['_', '-', '.', ':'] := by
  simp only [isNameChar, Bool.or_eq_true, beq_iff_eq, List.mem_cons, List.not_mem_nil, or_false,
    or_assoc]

/-- A name is read from its first character to the last one that it may have. -/
theorem isName_of_name {s r : List Char} {n : String} (h : name s = .ok (n, r)) : IsName n := by
  cases s with
  | nil => cases h
  | cons c s =>
    rw [name] at h
    split at h
    next hc =>
      cases h
      refine ⟨c, _, String.toList_ofList, isNameStart_iff.1 hc, fun d hd => ?_⟩
      exact isNameChar_iff.1 (List.all_eq_true.1 List.all_takeWhile d hd)
    next => cases h

/-! ## Steps

The flag of the recursion is the mark in front of the step to come, so the first step has the flag
that the reader was called with. -/

/-- A position has been compared with its bounds, and what is compared with a value is a name. -/
theorem wellFormed_of_predicate {s r : List Char} {p : Predicate}
    (h : predicate s = .ok (p, r)) : p.WellFormed := by
  unfold predicate at h
  -- digits first, then the mark of an attribute, then a child
  split at h
  next d ds r' hs =>
    split at h
    next hn => cases h; exact hn
    next => cases h
  next =>
    split at h
    next s₁ hm =>
      obtain ⟨⟨a, s₂⟩, ha, h⟩ := Answer.bind_eq_ok.1 h
      simp only at h
      split at h
      next s₃ he =>
        obtain ⟨⟨v, r'⟩, hv, h⟩ := Answer.bind_eq_ok.1 h
        cases h
        exact ⟨isName_of_name ha, quotable_of_literal hv⟩
      next => cases h; exact isName_of_name ha
    next =>
      obtain ⟨⟨a, s₂⟩, ha, h⟩ := Answer.bind_eq_ok.1 h
      simp only at h
      split at h
      next s₃ he =>
        obtain ⟨⟨v, r'⟩, hv, h⟩ := Answer.bind_eq_ok.1 h
        cases h
        exact ⟨isName_of_name ha, quotable_of_literal hv⟩
      next => cases h

theorem wellFormed_of_bracketed {s r : List Char} {p : Predicate}
    (h : bracketed s = .ok (p, r)) : p.WellFormed := by
  obtain ⟨⟨p', s'⟩, hp, h⟩ := Answer.bind_eq_ok.1 h
  simp only at h
  split at h
  · cases h; exact wellFormed_of_predicate hp
  · cases h

/-- Along the recursion of the reader. -/
theorem wellFormed_of_predicates {s r : List Char} {ps : List Predicate}
    (h : predicates s = .ok (ps, r)) : ∀ p ∈ ps, p.WellFormed := by
  fun_induction predicates s generalizing ps r with
  | case1 => cases h; simp
  | case2 => cases h
  | case3 s s' hm p r' hp ih =>
    obtain ⟨⟨more, r''⟩, hmore, h⟩ := Answer.bind_eq_ok.1 h
    cases h
    rintro q (_ | ⟨_, hq⟩)
    · exact wellFormed_of_bracketed hp
    · exact ih hmore q hq

theorem wellFormed_of_nameTest {s r : List Char} {t : NameTest} (h : nameTest s = .ok (t, r)) :
    t.WellFormed := by
  unfold nameTest at h
  split at h
  · cases h; trivial
  · obtain ⟨⟨n, r'⟩, hn, h⟩ := Answer.bind_eq_ok.1 h
    cases h
    exact isName_of_name hn

/-- The marks stand for themselves; behind `@` and in a child step the tests and predicates are
those of their readers. -/
theorem wellFormed_of_move {s r : List Char} {m : Move} (h : move s = .ok (m, r)) :
    m.WellFormed := by
  unfold move at h
  split at h
  next => cases h; trivial
  split at h
  next => cases h; trivial
  split at h
  next =>
    obtain ⟨⟨t, r'⟩, ht, h⟩ := Answer.bind_eq_ok.1 h
    cases h
    exact wellFormed_of_nameTest ht
  split at h
  next => cases h; trivial
  next =>
    obtain ⟨⟨t, r'⟩, ht, h⟩ := Answer.bind_eq_ok.1 h
    obtain ⟨⟨ps, r''⟩, hps, h⟩ := Answer.bind_eq_ok.1 h
    cases h
    exact ⟨wellFormed_of_nameTest ht, wellFormed_of_predicates hps⟩

/-- A step in front of others is the first one, with the mark that it has. -/
theorem wellFormed_cons {descend : Bool} {m : Move} {ss : List Step} (hm : m.WellFormed)
    (h : ∀ step ∈ ss, step.move.WellFormed) :
    (∃ step ∈ (Step.mk descend m :: ss).head?, step.descend = descend) ∧
      ∀ step ∈ Step.mk descend m :: ss, step.move.WellFormed :=
  ⟨⟨_, rfl, rfl⟩, List.forall_mem_cons.2 ⟨hm, h⟩⟩

/-- There is a first step, marked as it was to be, and all moves are well-formed. -/
theorem wellFormed_of_steps {descend : Bool} {s r : List Char} {ss : List Step}
    (h : steps descend s = .ok (ss, r)) :
    (∃ step ∈ ss.head?, step.descend = descend) ∧ ∀ step ∈ ss, step.move.WellFormed := by
  -- along the path: the first step descends as it was told, the others as the slashes say
  fun_induction steps descend s generalizing ss r with
  | case1 => cases h
  | case2 descend s m r₁ hm r₂ hd ih =>
    obtain ⟨⟨more, r'⟩, hmore, h⟩ := Answer.bind_eq_ok.1 h
    cases h
    exact wellFormed_cons (wellFormed_of_move hm) (ih hmore).2
  | case3 descend s m r₁ hm hd r₂ hs ih =>
    obtain ⟨⟨more, r'⟩, hmore, h⟩ := Answer.bind_eq_ok.1 h
    cases h
    exact wellFormed_cons (wellFormed_of_move hm) (ih hmore).2
  | case4 descend s m r₁ hm =>
    cases h
    exact wellFormed_cons (wellFormed_of_move hm) (List.forall_mem_nil _)

/-! ## Paths and queries -/

/-- An absolute path may begin with any step; a relative one begins as `steps false` does, with a
step from the place itself. -/
theorem wellFormed_of_path {s r : List Char} {p : LocationPath} (h : path s = .ok (p, r)) :
    p.WellFormed := by
  unfold path at h
  -- two slashes, one slash, or none, which needs a first step
  split at h
  next =>
    obtain ⟨⟨ss, r'⟩, hss, h⟩ := Answer.bind_eq_ok.1 h
    cases h
    exact ⟨nofun, (wellFormed_of_steps hss).2⟩
  split at h
  next =>
    split at h
    · cases h
      exact ⟨nofun, by simp⟩
    · obtain ⟨⟨ss, r'⟩, hss, h⟩ := Answer.bind_eq_ok.1 h
      cases h
      exact ⟨nofun, (wellFormed_of_steps hss).2⟩
  next =>
    obtain ⟨⟨ss, r'⟩, hss, h⟩ := Answer.bind_eq_ok.1 h
    cases h
    exact ⟨fun _ => (wellFormed_of_steps hss).1, (wellFormed_of_steps hss).2⟩

/-- The reader of a union gives at least the path that it begins with. -/
theorem wellFormed_of_paths {s r : List Char} {ps : List LocationPath}
    (h : paths s = .ok (ps, r)) : ps ≠ [] ∧ ∀ p ∈ ps, p.WellFormed := by
  fun_induction paths s generalizing ps r with
  | case1 => cases h
  | case2 s p r₁ hp r₂ hm ih =>
    obtain ⟨⟨more, r'⟩, hmore, h⟩ := Answer.bind_eq_ok.1 h
    cases h
    exact ⟨List.cons_ne_nil p more, List.forall_mem_cons.2 ⟨wellFormed_of_path hp, (ih hmore).2⟩⟩
  | case3 s p r₁ hp =>
    cases h
    exact ⟨List.cons_ne_nil p [], List.forall_mem_singleton.2 (wellFormed_of_path hp)⟩

/-- A query is a literal or a union, and both readers give something well-formed. -/
theorem wellFormed_of_query {s r : List Char} {q : Query} (h : query s = .ok (q, r)) :
    q.WellFormed := by
  unfold query at h
  split at h
  next =>
    obtain ⟨⟨text, r'⟩, htext, h⟩ := Answer.bind_eq_ok.1 h
    cases h
    exact quotable_of_literal htext
  next =>
    obtain ⟨⟨ps, r'⟩, hps, h⟩ := Answer.bind_eq_ok.1 h
    cases h
    exact wellFormed_of_paths hps

end Reader

/-- `parse` gives what the reader of the whole text gives; it only turns faults into offsets. -/
theorem parse_eq_ok {text : String} {q : Query} :
    parse text = .ok q ↔ Reader.whole text.toList = .ok q := by
  rw [parse]
  split
  next q' h => rw [h, Except.ok.injEq, Except.ok.injEq]
  next e h => rw [h]; simp

/-- A query that is read is well-formed. -/
theorem wellFormed_of_parse_eq_ok {text : String} {q : Query} (h : parse text = .ok q) :
    q.WellFormed := by
  obtain ⟨⟨q', r⟩, hq, h⟩ := Answer.bind_eq_ok.1 (parse_eq_ok.1 h)
  simp only at h
  split at h
  · cases h; exact Reader.wellFormed_of_query hq
  · cases h

end Query

end NetPlot
