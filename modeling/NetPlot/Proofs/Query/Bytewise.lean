/-
  Path queries, scanned by byte positions.

  1. **Program** — `whole` and its parts read a query from a scanner: they ask what comes next,
     count its bytes and move on by them, and cut literals and names out of the text by their
     offsets.  The predicates of a step, the steps of a path and the paths of a union are loops.

  2. **Agreement** — each part reads what the reader of its name reads from what is left, at the
     same places (`reads_literal` to `reads_whole`).  So the whole scan ends with what
     `Query.parse` answers, and with a sound record (`ends_whole`).

  3. **Errors** — an error is told at the place where it was met, which is a boundary
     (`onBoundary_of_parse`).
-/
import NetPlot.Proofs.Query.Margins
import NetPlot.Proofs.Text.Scanning

namespace NetPlot.Query.Bytewise

open NetPlot.Text NetPlot.Text.Scan

/-! ## Program

The program follows the cursor of the reader part by part.  A part that reads a name or a literal
takes slices of the text by byte offsets, and then moves the position on by the same bytes; nothing
in its form keeps the two apart from each other or on boundaries. -/

variable {α : Type}

/-- The text is wrong at the position. -/
def fault (cause : Cause) : Scan Error α := refuse (⟨·, cause⟩)

def literal : Scan Error String := do
  match ← peek with
  | some q =>
    if q = '\'' ∨ q = '"' then
      let body ← dropBytes (← rest) 1
      match body.find? [q] with
      | some n =>
        let value ← takeBytes body n
        advance (n + 2)
        return String.ofList value.chars
      | none => fault .unterminatedLiteral
    else fault .expectedLiteral
  | none => fault .expectedLiteral

def name : Scan Error String := do
  let r ← rest
  if r.chars.head?.any Reader.isNameStart then
    let n := (findWhere? (!Reader.isNameChar ·) r.chars).getD r.size
    advance n
    return String.ofList (← takeBytes r n).chars
  else fault .expectedName

/-- From the name in a predicate on, which is that of an attribute or that of a child. -/
def comparison (onAttribute : Bool) : Scan Error Predicate := do
  let n ← name
  skip
  if ← eat ['='] then
    skip
    let value ← literal
    return if onAttribute then .attrEquals n value else .childEquals n value
  else if onAttribute then return .hasAttr n else fault .expectedEquals

def predicate : Scan Error Predicate := do
  let digits := (← rest).chars.takeWhile Char.isDigit
  if digits ≠ [] then
    advance (utf8Size digits)
    if 0 < numeral 10 digits ∧ numeral 10 digits < 0x10000000000000000 then
      return .position (numeral 10 digits)
    else fault .badPosition
  else comparison (← eat ['@'])

/-- A predicate in its brackets, the opening one already read. -/
def bracketed : Scan Error Predicate := do
  skip
  let p ← predicate
  skip
  if ← eat [']'] then return p else fault .expectedBracket

/-- One more predicate after those that have been read, if one follows. -/
def predicatesRound (ps : List Predicate) :
    Scan Error (Turn (List Predicate) (List Predicate)) := do
  skip
  if ← eat ['['] then return .again (ps ++ [← bracketed]) else return .done ps

def predicates : Scan Error (List Predicate) := loop predicatesRound []

def nameTest : Scan Error NameTest := do
  if ← eat ['*'] then return .any else return .name (← name)

def move : Scan Error Move := do
  if ← eat "..".toList then return .parent
  else if ← eat ".".toList then return .self
  else if ← eat "@".toList then return .attribute (← nameTest)
  else if ← eat "text()".toList then return .text
  else
    let test ← nameTest
    return .child test (← predicates)

/-- One more step after those that have been read, and the mark behind it. -/
def stepsRound (x : Bool × List Step) : Scan Error (Turn (Bool × List Step) (List Step)) := do
  skip
  let m ← move
  let ss := x.2 ++ [⟨x.1, m⟩]
  skip
  if ← eat ['/', '/'] then return .again (true, ss)
  else if ← eat ['/'] then return .again (false, ss)
  else return .done ss

def steps (descend : Bool) : Scan Error (List Step) := loop stepsRound (descend, [])

def path : Scan Error LocationPath := do
  if ← eat "//".toList then return ⟨true, ← steps true⟩
  else if ← eat "/".toList then
    skip
    if (← peek).all (· == '|') then return ⟨true, []⟩ else return ⟨true, ← steps false⟩
  else return ⟨false, ← steps false⟩

/-- One more path after those that have been read, if a bar follows. -/
def pathsRound (ps : List LocationPath) :
    Scan Error (Turn (List LocationPath) (List LocationPath)) := do
  skip
  if ← eat ['|'] then
    skip
    return .again (ps ++ [← path])
  else return .done ps

def paths : Scan Error (List LocationPath) := do loop pathsRound [← path]

def query : Scan Error Query := do
  if (← peek).any (fun c => c == '\'' || c == '"') then return .literal (← literal)
  else return .union (← paths)

/-- A whole text. -/
def whole : Scan Error Query := do
  skip
  let q ← query
  skip
  if (← position) < (← source).size then fault .trailingInput else return q

/-! ## Literals, names and predicates

Each part of the program reads what the reader of its name reads.  The proofs follow the program
line by line; where it takes a slice or moves on, the text is written as the parts that the reader
has found in it, and the byte counts are their sizes. -/

/-- The error tells the cause and the place of the fault, and there the scanner stands. -/
def Refuses (text : List Char) (f : Reader.Fault) (e : Error) (s : Scanner) : Prop :=
  s.At text f.rest ∧ e = ⟨offset text f.rest, f.cause⟩

variable {text s : List Char}

/-- A fault is told at the place where the scanner stands. -/
theorem reads_fault (cause : Cause) :
    Reads text (Refuses text) (fault cause : Scan Error α) s (.error ⟨cause, s⟩) :=
  reads_refuse fun _ hs => ⟨hs, by rw [← hs.position_eq]⟩

/-- A character that a name may begin with is one that it may go on with. -/
theorem isNameChar_of_isNameStart {c : Char} (h : Reader.isNameStart c = true) :
    Reader.isNameChar c = true := by
  simp only [Reader.isNameStart, Bool.or_eq_true] at h
  rcases h with h | h <;> simp [Reader.isNameChar, isAlphanumeric, h]

/-- A literal: the slice behind the opening quote is searched for the closing one, and the value is
what is in front of it. -/
theorem reads_literal : Reads text (Refuses text) literal s (Reader.literal s) := by
  refine Reads.of_suffix fun hs => reads_peek.then ?_
  match s, hs with
  | [], _ => exact reads_fault _
  | q :: s, hs =>
    rw [Reader.literal]
    show Reads _ _ (if q = '\'' ∨ q = '"' then _ else _) _ _
    split
    next hq =>
      -- either quote is one byte, so the byte behind it is a boundary
      have hsize : utf8Size [q] = 1 := by rcases hq with rfl | rfl <;> rfl
      have hopen : [q] ++ s = q :: s := rfl
      have hbody : Slice.In text ⟨offset text (q :: s) + 1, s⟩ :=
        hsize ▸ (Slice.in_rest hs).right hopen
      refine reads_rest.then ((reads_dropBytes (Slice.in_rest hs) hopen hsize).then ?_)
      cases hc : cutAt [q] s with
      | none =>
        rw [Slice.find?_of_cutAt_none hc]
        exact reads_fault _
      | some cut =>
        obtain ⟨value, r⟩ := cut
        have hcut : value ++ ([q] ++ r) = s := by rw [cutAt_eq_some hc, List.append_assoc]
        have hclose : [q] ++ value ++ [q] ++ r = q :: s := by simp [← hcut]
        have htotal : utf8Size ([q] ++ value ++ [q]) = utf8Size value + 2 := by
          rw [utf8Size_append, utf8Size_append, hsize]
          omega
        rw [Slice.find?_of_cutAt_some hc]
        refine (reads_takeBytes hbody hcut rfl).then ((reads_advance hclose htotal).then ?_)
        exact reads_pure _
    next => exact reads_fault _

/-- A name: its bytes are counted up to the first character that no name has, moved on by, and cut
out of what was left before. -/
theorem reads_name : Reads text (Refuses text) name s (Reader.name s) := by
  refine Reads.of_suffix fun hs => reads_rest.then ?_
  match s, hs with
  | [], _ => exact reads_fault _
  | c :: s, hs =>
    rw [Reader.name]
    show Reads _ _ (if Reader.isNameStart c = true then _ else _) _ _
    split
    next hc =>
      -- the first character of a name is one that a name may hold as well
      have hrun : (c :: s).takeWhile Reader.isNameChar = c :: s.takeWhile Reader.isNameChar :=
        List.takeWhile_cons_of_pos (isNameChar_of_isNameStart hc)
      have hparts :
          (c :: s.takeWhile Reader.isNameChar) ++ s.dropWhile Reader.isNameChar = c :: s := by
        rw [List.cons_append, List.takeWhile_append_dropWhile]
      have hsize : utf8Size (c :: s.takeWhile Reader.isNameChar)
          = (findWhere? (!Reader.isNameChar ·) (c :: s)).getD (utf8Size (c :: s)) := by
        rw [getD_findWhere?, hrun]
      refine (reads_advance hparts hsize).then ?_
      exact (reads_takeBytes (Slice.in_rest hs) hparts hsize).then (reads_pure _)
    next => exact reads_fault _

/-- From the name in a predicate on.  The reader has the two forms of a comparison as two branches;
here they are one program with a flag. -/
theorem reads_comparison (onAttribute : Bool) :
    Reads text (Refuses text) (comparison onAttribute) s (do
      let (n, s) ← Reader.name s
      match afterMark? ['='] (skipBlanks s) with
      | some s => do
        let (value, r) ← Reader.literal (skipBlanks s)
        .ok (if onAttribute then .attrEquals n value else .childEquals n value, r)
      | none =>
        if onAttribute then .ok (.hasAttr n, skipBlanks s)
        else .error ⟨.expectedEquals, skipBlanks s⟩) := by
  refine reads_name.bind fun n s _ => reads_skip.then (reads_ifEat ?_ ?_)
  · intro r hr
    simp only [hr]
    exact reads_skip.then (reads_literal.map _)
  · intro hr
    simp only [hr]
    cases onAttribute with
    | true => exact reads_pure _
    | false => exact reads_fault _

/-- A predicate is a number if a digit comes next, and else a comparison. -/
theorem reads_predicate : Reads text (Refuses text) predicate s (Reader.predicate s) := by
  refine reads_rest.then ?_
  have hparts : s.takeWhile Char.isDigit ++ s.dropWhile Char.isDigit = s :=
    List.takeWhile_append_dropWhile
  rw [Reader.predicate]
  -- digits in front make it a position; else a mark tells an attribute from a child
  split
  next d ds r hrun =>
    obtain ⟨hdigits, hr⟩ := Prod.mk.inj hrun
    rw [hdigits, hr] at hparts
    simp only [hdigits, ne_eq, reduceCtorEq, not_false_eq_true, if_true]
    refine (reads_advance hparts rfl).then ?_
    split
    · exact reads_pure _
    · exact reads_fault _
  next r hrun =>
    obtain ⟨hdigits, -⟩ := Prod.mk.inj hrun
    simp only [hdigits, ne_eq, not_true_eq_false, if_false]
    split
    next r hr => exact (reads_eat_some hr).then (reads_comparison true)
    next hr => exact (reads_eat_none hr).then (reads_comparison false)

/-- A predicate, blanks on both sides of it and the closing bracket. -/
theorem reads_bracketed : Reads text (Refuses text) bracketed s (Reader.bracketed s) := by
  refine reads_skip.then (reads_predicate.bind fun p s _ => reads_skip.then (reads_ifEat ?_ ?_))
  · intro r hr
    simp only [hr]
    exact reads_pure p
  · intro hr
    simp only [hr]
    exact reads_fault _

/-! ## Steps and paths

The loops of the program gather what they read behind what they have; the readers put what they read
in front of what their own recursion gives.  `behind` says that both come to the same list, and the
`leads_` lemmas say for one round how it brings the answer on. -/

/-- What has been read, with what a reader gives behind it. -/
def behind {β : Type} (xs : List β) (answer : Reader.Answer (List β × List Char)) :
    Reader.Answer (List β × List Char) := do
  let (more, r) ← answer
  .ok (xs ++ more, r)

theorem behind_nil {β : Type} (answer : Reader.Answer (List β × List Char)) :
    behind [] answer = answer := by
  cases answer <;> rfl

/-- One more item behind what has been read is one more in front of what is to come. -/
theorem behind_concat {β : Type} (xs : List β) (x : β)
    (answer : Reader.Answer (List β × List Char)) :
    behind (xs ++ [x]) answer = behind xs (do let (more, r) ← answer; .ok (x :: more, r)) := by
  cases answer with
  | error f => rfl
  | ok v => simp only [behind, bind, Except.bind, List.append_assoc, List.singleton_append]

/-- A round of the predicates is the last one if no bracket follows; else it takes one predicate and
leaves a shorter text. -/
theorem leads_predicates (ps : List Predicate) (s : List Char) : ∃ turn,
    Reads text (Refuses text) (predicatesRound ps) s turn ∧
      Leads (fun ps s => behind ps (Reader.predicates s)) ps s turn := by
  -- no bracket ends the list, a bracket gives one more predicate or the fault inside it
  cases hm : afterMark? ['['] (skipBlanks s) with
  | none =>
    refine ⟨.ok (.done ps, skipBlanks s),
      reads_skip.then ((reads_eat_none hm).then (reads_pure _)), ?_⟩
    simp only [Leads, Reader.predicates_eq, hm, behind, bind, Except.bind, List.append_nil]
  | some s' =>
    refine ⟨_, reads_skip.then ((reads_eat_some hm).then (reads_bracketed.map _)), ?_⟩
    cases hp : Reader.bracketed s' with
    | error f =>
      show behind ps (Reader.predicates s) = .error f
      rw [Reader.predicates_eq, hm]
      simp only [hp]
      rfl
    | ok v =>
      obtain ⟨p, r⟩ := v
      refine ⟨?_, ?_⟩
      · have h₁ := length_skipBlanks_le s
        have h₂ := length_afterMark? hm
        have h₃ := Reader.length_of_bracketed hp
        omega
      · show behind ps (Reader.predicates s) = behind (ps ++ [p]) (Reader.predicates r)
        rw [behind_concat, Reader.predicates_eq s, hm]
        simp only [hp]
        rfl

/-- The loop over the predicates reads what the recursion of the reader does. -/
theorem reads_predicates : Reads text (Refuses text) predicates s (Reader.predicates s) :=
  behind_nil (Reader.predicates s) ▸ reads_loop _ leads_predicates [] s

/-- A star or a name. -/
theorem reads_nameTest : Reads text (Refuses text) nameTest s (Reader.nameTest s) := by
  refine reads_ifEat ?_ ?_
  · intro r hr
    rw [Reader.nameTest, hr]
    exact reads_pure _
  · intro hr
    rw [Reader.nameTest, hr]
    exact reads_name.map _

/-- The marks of a move are tried in the order of the reader; what none of them begins is a child
step with its predicates. -/
theorem reads_move : Reads text (Refuses text) move s (Reader.move s) := by
  rw [Reader.move]
  -- the marks are tried in this order, and a name comes last
  refine reads_ifEat (fun r h₁ => ?_) fun h₁ => ?_
  · simp only [h₁]
    exact reads_pure _
  refine reads_ifEat (fun r h₂ => ?_) fun h₂ => ?_
  · simp only [h₁, h₂]
    exact reads_pure _
  refine reads_ifEat (fun r h₃ => ?_) fun h₃ => ?_
  · simp only [h₁, h₂, h₃]
    exact reads_nameTest.map _
  refine reads_ifEat (fun r h₄ => ?_) fun h₄ => ?_
  · simp only [h₁, h₂, h₃, h₄]
    exact reads_pure _
  simp only [h₁, h₂, h₃, h₄]
  exact reads_nameTest.bind fun test r _ => reads_predicates.map _

/-- A round of the steps takes a move and the slashes behind it, and is the last one without them.
-/
theorem leads_steps (x : Bool × List Step) (s : List Char) : ∃ turn,
    Reads text (Refuses text) (stepsRound x) s turn ∧
      Leads (fun x s => behind x.2 (Reader.steps x.1 s)) x s turn := by
  obtain ⟨descend, ss⟩ := x
  cases hm : Reader.move (skipBlanks s) with
  | error f =>
    refine ⟨.error f, reads_skip.then (Reads.stop (hm ▸ reads_move)), ?_⟩
    show behind ss (Reader.steps descend s) = .error f
    rw [Reader.steps_eq, hm]
    rfl
  | ok v =>
    obtain ⟨m, r⟩ := v
    have hmove : Reads text (Refuses text) move (skipBlanks s) (.ok (m, r)) := hm ▸ reads_move
    -- a move takes at least one character, so the rest gets shorter whichever slashes follow
    have hlength : r.length < s.length :=
      Nat.lt_of_lt_of_le (Reader.length_of_move hm) (length_skipBlanks_le s)
    have hskip := length_skipBlanks_le r
    have hsteps := Reader.steps_eq descend s
    rw [hm] at hsteps
    cases hd : afterMark? ['/', '/'] (skipBlanks r) with
    | some r' =>
      refine ⟨_, reads_skip.then (hmove.then (reads_skip.then ((reads_eat_some hd).then
        (reads_pure _)))), ?_, ?_⟩
      · have := length_afterMark? hd
        omega
      · show behind ss (Reader.steps descend s)
          = behind (ss ++ [⟨descend, m⟩]) (Reader.steps true r')
        rw [behind_concat, hsteps]
        simp only [bind, Except.bind, hd]
    | none =>
      cases hs : afterMark? ['/'] (skipBlanks r) with
      | some r' =>
        refine ⟨_, reads_skip.then (hmove.then (reads_skip.then ((reads_eat_none hd).then
          ((reads_eat_some hs).then (reads_pure _))))), ?_, ?_⟩
        · have := length_afterMark? hs
          omega
        · show behind ss (Reader.steps descend s)
            = behind (ss ++ [⟨descend, m⟩]) (Reader.steps false r')
          rw [behind_concat, hsteps]
          simp only [bind, Except.bind, hd, hs]
      | none =>
        refine ⟨_, reads_skip.then (hmove.then (reads_skip.then ((reads_eat_none hd).then
          ((reads_eat_none hs).then (reads_pure _))))), ?_⟩
        show behind ss (Reader.steps descend s) = .ok (ss ++ [⟨descend, m⟩], skipBlanks r)
        rw [hsteps]
        simp only [behind, bind, Except.bind, hd, hs]

/-- The loop over the steps reads what the recursion of the reader does. -/
theorem reads_steps (descend : Bool) :
    Reads text (Refuses text) (steps descend) s (Reader.steps descend s) :=
  behind_nil (Reader.steps descend s) ▸ reads_loop _ leads_steps (descend, []) s

/-- The slashes in front of a path, and its steps; a single slash may stand alone at the end or
before a bar. -/
theorem reads_path : Reads text (Refuses text) path s (Reader.path s) := by
  rw [Reader.path]
  refine reads_ifEat (fun r h₁ => ?_) fun h₁ => ?_
  · simp only [h₁]
    exact (reads_steps true).map _
  refine reads_ifEat (fun r h₂ => ?_) fun h₂ => ?_
  · simp only [h₁, h₂]
    refine reads_skip.then (reads_peek.then ?_)
    split
    · exact reads_pure _
    · exact (reads_steps false).map _
  simp only [h₁, h₂]
  exact (reads_steps false).map _

/-- The paths behind those that have been read. -/
def morePaths (ps : List LocationPath) (s : List Char) :
    Reader.Answer (List LocationPath × List Char) :=
  match afterMark? ['|'] (skipBlanks s) with
  | some r => behind ps (Reader.paths (skipBlanks r))
  | none => .ok (ps, skipBlanks s)

/-- The paths behind those that have been read begin with one that must be there. -/
theorem behind_paths (ps : List LocationPath) (s : List Char) :
    behind ps (Reader.paths s) = (do let (p, r) ← Reader.path s; morePaths (ps ++ [p]) r) := by
  rw [Reader.paths_eq]
  cases Reader.path s with
  | error f => rfl
  | ok v =>
    obtain ⟨p, r⟩ := v
    simp only [bind, Except.bind, morePaths]
    cases afterMark? ['|'] (skipBlanks r) with
    | some r' => exact (behind_concat ps p _).symm
    | none => rfl

/-- A round of the paths takes a bar and a path, and is the last one without a bar. -/
theorem leads_paths (ps : List LocationPath) (s : List Char) : ∃ turn,
    Reads text (Refuses text) (pathsRound ps) s turn ∧ Leads morePaths ps s turn := by
  cases hm : afterMark? ['|'] (skipBlanks s) with
  | none =>
    refine ⟨.ok (.done ps, skipBlanks s),
      reads_skip.then ((reads_eat_none hm).then (reads_pure _)), ?_⟩
    simp only [Leads, morePaths, hm]
  | some s' =>
    refine ⟨_, reads_skip.then ((reads_eat_some hm).then (reads_skip.then (reads_path.map _))), ?_⟩
    -- behind the bar a path must follow, so the rest is that path and what `morePaths` says behind
    -- it
    have hmore : morePaths ps s
        = (do let (p, r) ← Reader.path (skipBlanks s'); morePaths (ps ++ [p]) r) := by
      rw [morePaths, hm]
      exact behind_paths ps _
    cases hp : Reader.path (skipBlanks s') with
    | error f =>
      show morePaths ps s = .error f
      rw [hmore, hp]
      rfl
    | ok v =>
      obtain ⟨p, r⟩ := v
      refine ⟨?_, ?_⟩
      · have h₁ := length_skipBlanks_le s
        have h₂ := length_afterMark? hm
        have h₃ := length_skipBlanks_le s'
        have h₄ := Reader.length_of_path hp
        simp only [List.length_singleton] at h₂
        omega
      · rw [hmore, hp]
        rfl

/-- The first path is read before the loop, the others by its rounds. -/
theorem reads_paths : Reads text (Refuses text) paths s (Reader.paths s) := by
  rw [← behind_nil (Reader.paths s), behind_paths]
  exact reads_path.bind fun p r _ => reads_loop _ leads_paths _ r

/-! ## Whole texts -/

/-- The next character decides between a literal and paths, in the scan as in the reader. -/
theorem reads_query : Reads text (Refuses text) query s (Reader.query s) := by
  refine reads_peek.then ?_
  rw [Reader.query]
  split
  · exact reads_literal.map _
  · exact reads_paths.map _

/-- Nothing but blanks may be left behind the query of a whole text. -/
theorem reads_whole : Reads text (Refuses text) whole s (do
    let q ← Reader.whole s
    .ok (q, [])) := by
  rw [Reader.whole]
  cases hq : Reader.query (skipBlanks s) with
  | error f => exact reads_skip.then (Reads.stop (hq ▸ reads_query))
  | ok v =>
    obtain ⟨q, r⟩ := v
    have hquery : Reads text (Refuses text) query (skipBlanks s) (.ok (q, r)) := hq ▸ reads_query
    refine reads_skip.then (hquery.then (reads_skip.then (Reads.of_suffix fun hr => ?_)))
    refine reads_position.then (reads_source.then ?_)
    simp only [bind, Except.bind, Slice.size, offset_lt_size_iff hr]
    -- behind the query only blanks may stand, and the position tells whether they do
    by_cases hrest : skipBlanks r = []
    · simp only [hrest, ne_eq, not_true_eq_false, if_false, if_true]
      exact reads_pure q
    · simp only [hrest, ne_eq, not_false_eq_true, if_false, if_true]
      exact reads_fault _

/-- The scan of a text ends with the text as a query, or with what is wrong with it and where. -/
theorem ends_whole (text : String) : Ends whole text.toList (parse text) := by
  refine ends_of_reads _ (fun f => ⟨offset text.toList f.rest, f.cause⟩) reads_whole ?_
    fun f e s h => ⟨h.2, h.1.text_eq, h.1.sound⟩
  rw [parse]
  cases Reader.whole text.toList <;> rfl

/-- An error tells a boundary of the text. -/
theorem onBoundary_of_parse {text : String} {e : Error} (h : parse text = .error e) :
    OnBoundary text.toList e.offset := by
  rw [parse] at h
  cases hw : Reader.whole text.toList with
  | ok q =>
    rw [hw] at h
    cases h
  | error f =>
    rw [hw] at h
    cases h
    have hreads : Reads text.toList (Refuses text.toList) whole text.toList _ := reads_whole
    rw [hw] at hreads
    obtain ⟨e, s, hs, -⟩ := exists_refused hreads
    exact onBoundary_offset hs.suffix

end NetPlot.Query.Bytewise
