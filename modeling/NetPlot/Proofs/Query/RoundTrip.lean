/-
  Queries read back from their canonical texts.

  1. **Steps and paths** — steps are read back up to the end of their path, and a path up to the
     end of the text or `|` (`steps_append`, `path_append`).  The marks in front of a step are told
     apart because no move begins with `/`.

  2. **Queries** — a union is told from a quoted text because no path begins with a quote, so a
     well-formed query is read back from its text (`parse_print`).

  3. **Exactness** — the queries that are read are those that are well-formed, and the printed text
     is read as the query again (`parse_print_exact`).

  **The crux** — what follows a part tells where it ends.  Each lemma therefore reads its part in
  front of any text that cannot go on with it, and these conditions are passed on from part to part.
-/
import NetPlot.Proofs.Query.Printer

namespace NetPlot.Query

open NetPlot.Text

namespace Reader

/-! ## Steps

No move begins with a slash, so the slashes in front of a step are just those that were written for
it. -/

/-- A move begins with no blank, with no mark between steps or paths and with no quote. -/
theorem exists_cons_move {m : Move} (h : m.WellFormed) :
    ∃ c s, m.chars = c :: s ∧ isBlank c = false ∧ c ∉ ['/', '|', '\'', '"'] := by
  -- a name test begins with a star or a letter
  have htest {t : NameTest} (ht : t.WellFormed) (r : List Char) :
      ∃ c s, t.chars ++ r = c :: s ∧ isBlank c = false ∧ c ∉ ['/', '|', '\'', '"'] := by
    cases t with
    | any => exact ⟨'*', r, rfl, rfl, by decide⟩
    | name n =>
      obtain ⟨c, s, hn, hstart, -⟩ := of_isName ht
      obtain ⟨hmark, -, hblank⟩ := of_isNameStart hstart
      exact ⟨c, s ++ r, congrArg (· ++ r) hn, hblank, fun hc => hmark (by simp at hc ⊢; tauto)⟩
  cases m with
  | self => exact ⟨'.', [], rfl, rfl, by decide⟩
  | parent => exact ⟨'.', ['.'], rfl, rfl, by decide⟩
  | «attribute» test => exact ⟨'@', test.chars, rfl, rfl, by decide⟩
  | text => exact ⟨'t', "ext()".toList, rfl, rfl, by decide⟩
  | child test ps => exact htest h.1 _

theorem skipBlanks_move {m : Move} (h : m.WellFormed) (rest : List Char) :
    skipBlanks (m.chars ++ rest) = m.chars ++ rest := by
  obtain ⟨c, s, hm, hb, -⟩ := exists_cons_move h
  refine skipBlanks_of_head ?_
  rw [hm]
  rintro d ⟨⟩
  exact hb

/-- The end of the text, or the mark of another path. -/
def EndsPath (rest : List Char) : Prop := ∀ c ∈ rest.head?, c = '|'

/-- What ends a path ends its last step. -/
theorem EndsPath.endsStep {rest : List Char} (h : EndsPath rest) : EndsStep rest :=
  fun c hc => Or.inr (h c hc)

/-- The mark in front of the next step ends the step before. -/
theorem endsStep_chars_append (step : Step) (rest : List Char) :
    EndsStep (step.chars ++ rest) := by
  rintro c hc
  rw [Step.chars] at hc
  split at hc <;> cases hc <;> exact Or.inl rfl

/-- With no slash behind its move a step is the last one of its path. -/
theorem steps_of_none {descend : Bool} {s r : List Char} {m : Move}
    (hm : move (skipBlanks s) = .ok (m, r)) (hr : EndsPath r) :
    steps descend s = .ok ([⟨descend, m⟩], r) := by
  have hskip := hr.endsStep.skipBlanks_eq
  -- neither `//` nor `/` follows, since the rest is empty or begins with a bar
  have hslash (mark : List Char) : afterMark? ('/' :: mark) (skipBlanks r) = none := by
    rw [hskip]
    cases r with
    | nil => rfl
    | cons c r => exact afterMark?_of_head (hr c rfl ▸ by decide) mark r
  rw [steps]
  split
  next he => cases hm.symm.trans he
  next hm' =>
    cases hm.symm.trans hm'
    split
    next hd => cases (hslash ['/']).symm.trans hd
    next =>
      split
      next hs => cases (hslash []).symm.trans hs
      next => rw [hskip]

/-- The marks of a step are read as they are written. -/
theorem steps_of_mark {descend next : Bool} {s r r' : List Char} {m : Move}
    (hm : move (skipBlanks s) = .ok (m, r))
    (hr : r = (if next then ['/', '/'] else ['/']) ++ r') (hn : ∀ c ∈ r'.head?, c ≠ '/') :
    steps descend s = (do
      let (more, r) ← steps next r'
      .ok (⟨descend, m⟩ :: more, r)) := by
  have hone : afterMark? ['/'] r' = none := by
    cases r' with
    -- without steps only the absolute path is well-formed, which is a slash alone
    | nil => rfl
    | cons c r' => exact afterMark?_of_head (hn c rfl) [] r'
  rw [steps]
  split
  next he => cases hm.symm.trans he
  next hm' =>
    cases hm.symm.trans hm'
    -- two slashes are tried first; one slash is not mistaken for two, as no move begins with one
    cases next with
    | true =>
      split
      next r'' hd =>
        rw [hr] at hd
        cases hd
        rfl
      next hd =>
        rw [hr] at hd
        cases hd
    | false =>
      split
      next hd =>
        rw [hr] at hd
        cases hone.symm.trans hd
      next =>
        split
        next r'' hs =>
          rw [hr] at hs
          cases hs
          rfl
        next hs =>
          rw [hr] at hs
          cases hs

/-- No move begins with the mark of a step or of another path. -/
theorem head_move_append {m : Move} (hm : m.WellFormed) (t : List Char) :
    ∀ d ∈ (m.chars ++ t).head?, d ≠ '/' ∧ d ≠ '|' := by
  obtain ⟨c, s, hc, -, hmark⟩ := exists_cons_move hm
  rw [hc]
  rintro d ⟨⟩
  simp at hmark
  tauto

/-- Steps are read up to the end of their path. -/
theorem steps_append (descend : Bool) {m : Move} {ss : List Step} (hm : m.WellFormed)
    (hss : ∀ step ∈ ss, step.move.WellFormed) {rest : List Char} (hr : EndsPath rest) :
    steps descend (m.chars ++ (ss.flatMap (·.chars) ++ rest)) = .ok (⟨descend, m⟩ :: ss, rest) := by
  induction ss generalizing descend m with
  | nil =>
    refine steps_of_none ?_ hr
    rw [skipBlanks_move hm]
    exact move_append hm hr.endsStep
  -- the mark of the next step ends this one; the rest is read by the induction hypothesis
  | cons step ss ih =>
    have hm' := hss step List.mem_cons_self
    have hread : move (skipBlanks (m.chars ++ (step.chars ++ (ss.flatMap (·.chars) ++ rest)))) =
        .ok (m, step.chars ++ (ss.flatMap (·.chars) ++ rest)) := by
      rw [skipBlanks_move hm]
      exact move_append hm (endsStep_chars_append step _)
    have hnext : ∀ c ∈ (step.move.chars ++ (ss.flatMap (·.chars) ++ rest)).head?, c ≠ '/' :=
      fun c hc => (head_move_append hm' _ c hc).1
    rw [List.flatMap_cons, List.append_assoc,
      steps_of_mark hread (by rw [Step.chars, List.append_assoc]) hnext,
      ih _ hm' fun s hs => hss s (List.mem_cons_of_mem step hs)]
    rfl

/-! ## Paths and queries

The first step of a relative path has no mark.  It is told from an absolute one by the first
character, which is that of a move. -/

/-- A path that begins with no slash is relative. -/
theorem path_of_head {s : List Char} (h : ∀ c ∈ s.head?, c ≠ '/') :
    path s = (do
      let (ss, r) ← steps false s
      .ok (⟨false, ss⟩, r)) := by
  have hslash (mark : List Char) : afterMark? ('/' :: mark) s = none := by
    cases s with
    | nil => rfl
    | cons c s => exact afterMark?_of_head (h c rfl) mark s
  rw [path, show afterMark? "//".toList s = none from hslash ['/'],
    show afterMark? "/".toList s = none from hslash []]

/-- A path that begins with one slash is absolute; if nothing or a bar follows, it has no steps. -/
theorem path_of_slash {s : List Char} (h : ∀ c ∈ s.head?, c ≠ '/') :
    path ('/' :: s) =
      if (skipBlanks s).head?.all (· == '|') then .ok (⟨true, []⟩, skipBlanks s)
      else (do
        let (ss, r) ← steps false (skipBlanks s)
        .ok (⟨true, ss⟩, r)) := by
  have htwo : afterMark? "//".toList ('/' :: s) = none := by
    cases s with
    | nil => rfl
    | cons c s => exact afterMark?_of_head (h c rfl) [] s
  rw [path, htwo]
  rfl

/-- A slash alone is the absolute path without steps. -/
theorem path_of_bare {rest : List Char} (hr : EndsPath rest) :
    path ('/' :: rest) = .ok (⟨true, []⟩, rest) := by
  have hslash : ∀ c ∈ rest.head?, c ≠ '/' := fun c hc => hr c hc ▸ by decide
  have hend : rest.head?.all (· == '|') = true := by
    cases rest with
    | nil => rfl
    | cons c rest => exact beq_iff_eq.2 (hr c rfl)
  rw [path_of_slash hslash, hr.endsStep.skipBlanks_eq, if_pos hend]

/-- A path is read up to the mark of another path. -/
theorem path_append {p : LocationPath} (h : p.WellFormed) (rest : List Char)
    (hr : EndsPath rest) : path (p.chars ++ rest) = .ok (p, rest) := by
  obtain ⟨absolute, ss⟩ := p
  obtain ⟨hfirst, hmoves⟩ := h
  cases ss with
  | nil =>
    cases absolute with
    | false =>
      obtain ⟨step, hstep, -⟩ := hfirst rfl
      cases hstep
    | true => exact path_of_bare hr
  | cons step ss =>
    have hm := hmoves step List.mem_cons_self
    have hss := fun s hs => hmoves s (List.mem_cons_of_mem step hs)
    have hhead := head_move_append hm (ss.flatMap (·.chars) ++ rest)
    cases absolute with
    | false =>
      -- the first step of a relative path has no mark, so it must not be taken from below
      obtain ⟨step', hstep, hdescend⟩ := hfirst rfl
      cases hstep
      have hread := steps_append false hm hss hr
      rw [LocationPath.chars, List.append_assoc, path_of_head fun d hd => (hhead d hd).1, hread]
      obtain ⟨descend, m⟩ := step
      cases hdescend
      rfl
    | true =>
      obtain ⟨descend, m⟩ := step
      have hread := steps_append descend hm hss hr
      cases descend with
      | true =>
        have htext : (⟨true, ⟨true, m⟩ :: ss⟩ : LocationPath).chars ++ rest =
            '/' :: '/' :: (m.chars ++ (ss.flatMap (·.chars) ++ rest)) := by
          simp [LocationPath.chars, Step.chars]
        rw [htext]
        change (do
          let (ss, r) ← steps true (m.chars ++ (ss.flatMap Step.chars ++ rest))
          .ok ((⟨true, ss⟩ : LocationPath), r)) = _
        rw [hread]
        rfl
      | false =>
        have htext : (⟨true, ⟨false, m⟩ :: ss⟩ : LocationPath).chars ++ rest =
            '/' :: (m.chars ++ (ss.flatMap (·.chars) ++ rest)) := by
          simp [LocationPath.chars, Step.chars]
        have hbar : (m.chars ++ (ss.flatMap (·.chars) ++ rest)).head?.all (· == '|') = false := by
          obtain ⟨c, s, hc, -⟩ := exists_cons_move hm
          rw [hc] at hhead ⊢
          exact beq_eq_false_iff_ne.2 (hhead c rfl).2
        rw [htext, path_of_slash fun d hd => (hhead d hd).1, skipBlanks_move hm, hbar, hread]
        rfl

theorem paths_of_none {s r : List Char} {p : LocationPath} (hp : path s = .ok (p, r))
    (hr : skipBlanks r = []) : paths s = .ok ([p], []) := by
  rw [paths]
  split
  next he => cases hp.symm.trans he
  next hp' =>
    cases hp.symm.trans hp'
    split
    next hm =>
      rw [hr] at hm
      cases hm
    next => rw [hr]

/-- A path with a bar behind it is followed by others. -/
theorem paths_of_bar {s r r' : List Char} {p : LocationPath} (hp : path s = .ok (p, r))
    (hr : r = '|' :: r') :
    paths s = (do
      let (more, r) ← paths (skipBlanks r')
      .ok (p :: more, r)) := by
  rw [paths]
  split
  next he => cases hp.symm.trans he
  next hp' =>
    cases hp.symm.trans hp'
    split
    next hm =>
      rw [hr] at hm
      cases hm
      rfl
    next hm =>
      rw [hr] at hm
      cases hm

/-- A path begins with no blank, no bar and no quote. -/
theorem exists_cons_path {p : LocationPath} (h : p.WellFormed) :
    ∃ c s, p.chars = c :: s ∧ isBlank c = false ∧ c ∉ ['|', '\'', '"'] := by
  obtain ⟨absolute, ss⟩ := p
  cases ss with
  | nil =>
    cases absolute with
    | false =>
      obtain ⟨step, hstep, -⟩ := h.first rfl
      cases hstep
    | true => exact ⟨'/', [], rfl, rfl, by decide⟩
  | cons step ss =>
    cases absolute with
    | false =>
      obtain ⟨c, s, hc, hb, hmark⟩ := exists_cons_move (h.moves step List.mem_cons_self)
      exact ⟨c, s ++ ss.flatMap (·.chars), congrArg (· ++ _) hc, hb,
        fun hm => hmark (List.mem_cons_of_mem _ hm)⟩
    | true =>
      obtain ⟨descend, m⟩ := step
      cases descend
      · exact ⟨'/', _, rfl, rfl, by decide⟩
      · exact ⟨'/', _, rfl, rfl, by decide⟩

/-- What all paths of a union are written as. -/
def unionChars (ps : List LocationPath) : List Char := ['|'].intercalate (ps.map (·.chars))

theorem unionChars_cons_cons (p q : LocationPath) (ps : List LocationPath) :
    unionChars (p :: q :: ps) = p.chars ++ '|' :: unionChars (q :: ps) := by
  simp [unionChars]

/-- A union begins as its first path does. -/
theorem exists_cons_union {p : LocationPath} (h : p.WellFormed) (ps : List LocationPath) :
    ∃ c s, unionChars (p :: ps) = c :: s ∧ isBlank c = false ∧ c ∉ ['|', '\'', '"'] := by
  obtain ⟨c, s, hc, hb, hmark⟩ := exists_cons_path h
  cases ps with
  | nil => exact ⟨c, s, by simpa [unionChars] using hc, hb, hmark⟩
  | cons q ps =>
    exact ⟨c, s ++ '|' :: unionChars (q :: ps), by rw [unionChars_cons_cons, hc]; rfl, hb, hmark⟩

/-- A union begins with no blank. -/
theorem skipBlanks_union {p : LocationPath} {ps : List LocationPath} (h : p.WellFormed) :
    skipBlanks (unionChars (p :: ps)) = unionChars (p :: ps) := by
  obtain ⟨c, s, hc, hb, -⟩ := exists_cons_union h ps
  refine skipBlanks_of_head ?_
  rw [hc]
  rintro d ⟨⟩
  exact hb

/-- All paths of a union are read. -/
theorem paths_union {p : LocationPath} {ps : List LocationPath}
    (h : ∀ q ∈ p :: ps, q.WellFormed) : paths (unionChars (p :: ps)) = .ok (p :: ps, []) := by
  induction ps generalizing p with
  | nil =>
    have hread := path_append (h p List.mem_cons_self) [] (by rintro c ⟨⟩)
    rw [List.append_nil] at hread
    exact paths_of_none (s := unionChars [p]) (by simpa [unionChars] using hread) rfl
  | cons q ps ih =>
    have hq := fun s hs => h s (List.mem_cons_of_mem p hs)
    have hread := path_append (h p List.mem_cons_self) ('|' :: unionChars (q :: ps))
      (by rintro c ⟨⟩; rfl)
    rw [unionChars_cons_cons, paths_of_bar hread rfl, skipBlanks_union (hq q List.mem_cons_self),
      ih hq]
    rfl

end Reader

/-- A well-formed query is read back from its canonical text. -/
theorem parse_print {q : Query} (h : q.WellFormed) : parse q.print = .ok q := by
  rw [parse_eq_ok, Reader.whole]
  cases q with
  | literal text =>
    have hskip := Reader.skipBlanks_quoted text []
    have hread := Reader.literal_quoted h []
    -- the first character decides which reader is taken
    have hquote : (quoted text).head?.any (fun c => c == '\'' || c == '"') = true := by
      rw [quoted, quoteFor]
      split <;> rfl
    rw [List.append_nil] at hskip hread
    rw [print, String.toList_ofList, hskip, Reader.query, if_pos hquote, hread]
    rfl
  | union paths =>
    obtain ⟨hne, hpaths⟩ := h
    cases paths with
    | nil => exact absurd rfl hne
    | cons p ps =>
      have hp := hpaths p List.mem_cons_self
      have hquote : ¬ (Reader.unionChars (p :: ps)).head?.any
          (fun c => c == '\'' || c == '"') = true := by
        obtain ⟨c, s, hc, -, hmark⟩ := Reader.exists_cons_union hp ps
        rw [hc]
        simp at hmark ⊢
        tauto
      have hprint : (Query.union (p :: ps)).print
          = String.ofList (Reader.unionChars (p :: ps)) := rfl
      rw [hprint, String.toList_ofList, Reader.skipBlanks_union hp, Reader.query, if_neg hquote,
        Reader.paths_union hpaths]
      rfl

/-! ## Exactness

Both directions together: printing is a right inverse of reading on what is well-formed, and reading
gives nothing else. -/

/-- All that is read is well-formed; all that is well-formed is read from its canonical text; and
so what was read from any text is read again from its canonical text. -/
theorem parse_print_exact :
    (∀ text q, parse text = .ok q → q.WellFormed) ∧
      (∀ q : Query, q.WellFormed → parse q.print = .ok q) ∧
      ∀ text q, parse text = .ok q → parse q.print = .ok q :=
  ⟨fun _ _ h => wellFormed_of_parse_eq_ok h, fun _ h => parse_print h,
    fun _ _ h => parse_print (wellFormed_of_parse_eq_ok h)⟩

/-- A path without steps, one with predicates and both kinds of marks, and texts anywhere. -/
def sample : Query := .union
  [⟨true, []⟩,
    ⟨false, [⟨false, .parent⟩,
      ⟨true, .child (.name "a.b") [.attrEquals "x" "it's", .position 2]⟩, ⟨false, .attribute .any⟩]⟩,
    ⟨true, [⟨true, .text⟩]⟩]

theorem parse_print_exact_sample :
    sample.print = "/|..//a.b[@x=\"it's\"][2]/@*|//text()" ∧ sample.WellFormed ∧
      parse sample.print = .ok sample := by
  have ha : IsName "a.b" := ⟨'a', ['.', 'b'], rfl, Or.inl (by decide +kernel),
    forall_mem_of_all (by decide +kernel)⟩
  have hx : IsName "x" := ⟨'x', [], rfl, Or.inl (by decide +kernel), by simp⟩
  have hv : Quotable "it's" := Or.inr (by decide)
  have hsize : 2 < UInt64.size := by decide
  have h : sample.WellFormed := by
    refine ⟨List.cons_ne_nil _ _, ?_⟩
    simp only [List.forall_mem_cons]
    refine ⟨⟨nofun, by simp⟩, ⟨fun _ => ⟨_, rfl, rfl⟩, ?_⟩, ⟨nofun, ?_⟩, by simp⟩
    · simp [Move.WellFormed, NameTest.WellFormed, Predicate.WellFormed, ha, hx, hv, hsize]
    · simp [Move.WellFormed]
  have hread := parse_print_exact.2.1 sample h
  exact ⟨by decide +kernel, parse_print_exact.1 _ _ hread, parse_print_exact.2.2 _ _ hread⟩

end NetPlot.Query
