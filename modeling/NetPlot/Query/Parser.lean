/-
  Reading path queries.

  1. **Program** — one reader per part of the language (`literal`, `name`, `predicate`, `move`,
     `path`); each takes the text that is left and gives what it read with the text left after
     it, or a `Fault`: a cause with the text left where it was met.  `Query.parse` reads a whole
     text and turns the place of a fault into a byte offset.

  2. **Rules** — the longer mark wins (`//` before `/`, `..` before `.`, `text()` before a name).
     Blanks are skipped between the parts of a path but not inside an attribute step.  Names are
     as long as possible and may hold `-`, `.` and `:`.

  3. **Progress** — no reader gives back more than it got, and a step takes at least one
     character (`length_of_move`), which is why the loops over steps and paths end.
-/
import NetPlot.Query.Basic
import NetPlot.Text.Cut
import NetPlot.Text.Letter
import NetPlot.Text.Numeral

namespace NetPlot.Query.Reader

open NetPlot.Text

/-- A cause, and what was left of the text when it was met. -/
structure Fault where
  cause : Cause
  rest : List Char
  deriving DecidableEq, Repr

/-- What a reader answers: a value with the text left, or a fault. -/
abbrev Answer := Except Fault

/-! ## Literals and names -/

/-- A text in either kind of quotes, ended by the same kind. -/
def literal : List Char → Answer (String × List Char)
  | [] => .error ⟨.expectedLiteral, []⟩
  | q :: s =>
    if q = '\'' ∨ q = '"' then
      match cutAt [q] s with
      | some (value, r) => .ok (String.ofList value, r)
      | none => .error ⟨.unterminatedLiteral, q :: s⟩
    else .error ⟨.expectedLiteral, q :: s⟩

/-- A character with which a name may begin. -/
def isNameStart (c : Char) : Bool := isAlphabetic c || c == '_'

/-- A character of a name. -/
def isNameChar (c : Char) : Bool :=
  isAlphanumeric c || c == '_' || c == '-' || c == '.' || c == ':'

/-- A name begins with a letter or underscore and goes on as long as it can. -/
def name : List Char → Answer (String × List Char)
  | [] => .error ⟨.expectedName, []⟩
  | c :: s =>
    if isNameStart c then
      let (run, r) := splitRun isNameChar s
      .ok (String.ofList (c :: run), r)
    else .error ⟨.expectedName, c :: s⟩

theorem length_of_literal {s r : List Char} {v : String} (h : literal s = .ok (v, r)) :
    r.length < s.length := by
  cases s with
  | nil => cases h
  | cons q s =>
    rw [literal] at h
    split at h
    · split at h
      next hc => have := length_of_cutAt hc; cases h; simp at *; omega
      next => cases h
    · cases h

theorem length_of_name {s r : List Char} {v : String} (h : name s = .ok (v, r)) :
    r.length < s.length := by
  cases s with
  | nil => cases h
  | cons c s =>
    rw [name] at h
    split at h
    · cases h
      have := length_splitRun isNameChar s
      simp only [splitRun, List.length_cons] at *; omega
    · cases h

/-! ## Predicates -/

/-- The inside of the brackets of a predicate. -/
def predicate (s : List Char) : Answer (Predicate × List Char) :=
  match splitRun Char.isDigit s with
  | (d :: ds, r) =>
    if 0 < numeral 10 (d :: ds) ∧ numeral 10 (d :: ds) < 0x10000000000000000 then
      .ok (.position (numeral 10 (d :: ds)), r)
    else .error ⟨.badPosition, r⟩
  | ([], _) =>
    match afterMark? ['@'] s with
    | some s => do
      let (attr, s) ← name s
      match afterMark? ['='] (skipBlanks s) with
      | some s => do
        let (value, r) ← literal (skipBlanks s)
        .ok (.attrEquals attr value, r)
      | none => .ok (.hasAttr attr, skipBlanks s)
    | none => do
      let (child, s) ← name s
      match afterMark? ['='] (skipBlanks s) with
      | some s => do
        let (value, r) ← literal (skipBlanks s)
        .ok (.childEquals child value, r)
      | none => .error ⟨.expectedEquals, skipBlanks s⟩

theorem length_of_predicate {s r : List Char} {p : Predicate} (h : predicate s = .ok (p, r)) :
    r.length < s.length := by
  unfold predicate at h
  split at h
  next d ds r' hs =>
    have := length_of_splitRun hs
    split at h
    · cases h; simp at this; omega
    · cases h
  next =>
    split at h
    next s₁ hm =>
      have h₁ := length_afterMark? hm
      simp only [bind, Except.bind] at h
      split at h
      · cases h
      next v hn =>
        have h₂ := length_of_name hn
        have h₃ := length_skipBlanks_le v.2
        split at h
        next s₂ he =>
          have h₄ := length_afterMark? he
          split at h
          · cases h
          next w hl =>
            have h₅ := length_of_literal hl
            have h₆ := length_skipBlanks_le s₂
            cases h; omega
        next => cases h; omega
    next =>
      simp only [bind, Except.bind] at h
      split at h
      · cases h
      next v hn =>
        have h₂ := length_of_name hn
        have h₃ := length_skipBlanks_le v.2
        split at h
        next s₂ he =>
          have h₄ := length_afterMark? he
          split at h
          · cases h
          next w hl =>
            have h₅ := length_of_literal hl
            have h₆ := length_skipBlanks_le s₂
            cases h; omega
        next => cases h

/-- A predicate in its brackets, the opening one already read. -/
def bracketed (s : List Char) : Answer (Predicate × List Char) := do
  let (p, s) ← predicate (skipBlanks s)
  match afterMark? [']'] (skipBlanks s) with
  | some r => .ok (p, r)
  | none => .error ⟨.expectedBracket, skipBlanks s⟩

theorem length_of_bracketed {s r : List Char} {p : Predicate} (h : bracketed s = .ok (p, r)) :
    r.length < s.length := by
  simp only [bracketed, bind, Except.bind] at h
  split at h
  · cases h
  next v hv =>
    have h₁ := length_of_predicate hv
    have h₂ := length_skipBlanks_le s
    have h₃ := length_skipBlanks_le v.2
    split at h
    next hm => have h₄ := length_afterMark? hm; cases h; omega
    next => cases h

/-- As many predicates as follow, with blanks around them. -/
def predicates (s : List Char) : Answer (List Predicate × List Char) :=
  match _hm : afterMark? ['['] (skipBlanks s) with
  | none => .ok ([], skipBlanks s)
  | some s' =>
    match _hp : bracketed s' with
    | .error e => .error e
    | .ok (p, r) => do
      let (ps, r) ← predicates r
      .ok (p :: ps, r)
termination_by s.length
decreasing_by
  have h₁ := length_skipBlanks_le s
  have h₂ := length_afterMark? _hm
  have h₃ := length_of_bracketed _hp
  omega

theorem length_of_predicates {s r : List Char} {ps : List Predicate}
    (h : predicates s = .ok (ps, r)) : r.length ≤ s.length := by
  fun_induction predicates s generalizing ps r with
  | case1 s hm => cases h; exact length_skipBlanks_le s
  | case2 => cases h
  | case3 s s' hm p r' hp ih =>
    simp only [bind, Except.bind] at h
    split at h
    · cases h
    next v hv =>
      cases h
      have h₁ := length_skipBlanks_le s
      have h₂ := length_afterMark? hm
      have h₃ := length_of_bracketed hp
      have h₄ := ih hv
      omega

/-! ## Steps and paths -/

/-- `*` or a name. -/
def nameTest (s : List Char) : Answer (NameTest × List Char) :=
  match afterMark? ['*'] s with
  | some r => .ok (.any, r)
  | none => do
    let (n, r) ← name s
    .ok (.name n, r)

/-- The move of one step. -/
def move (s : List Char) : Answer (Move × List Char) :=
  if let some r := afterMark? "..".toList s then .ok (.parent, r)
  else if let some r := afterMark? ".".toList s then .ok (.self, r)
  else if let some r := afterMark? "@".toList s then do
    let (test, r) ← nameTest r
    .ok (.attribute test, r)
  else if let some r := afterMark? "text()".toList s then .ok (.text, r)
  else do
    let (test, r) ← nameTest s
    let (ps, r) ← predicates r
    .ok (.child test ps, r)

theorem length_of_nameTest {s r : List Char} {t : NameTest} (h : nameTest s = .ok (t, r)) :
    r.length < s.length := by
  unfold nameTest at h
  split at h
  next hm => have := length_afterMark? hm; cases h; simp at this; omega
  next =>
    simp only [bind, Except.bind] at h
    split at h
    · cases h
    next hn => have := length_of_name hn; cases h; exact this

/-- A move takes at least one character. -/
theorem length_of_move {s r : List Char} {m : Move} (h : move s = .ok (m, r)) :
    r.length < s.length := by
  unfold move at h
  split at h
  next hm => have := length_afterMark? hm; cases h; simp at this; omega
  split at h
  next hm => have := length_afterMark? hm; cases h; simp at this; omega
  split at h
  next hm =>
    have := length_afterMark? hm
    simp only [bind, Except.bind] at h
    split at h
    · cases h
    next hn => have := length_of_nameTest hn; cases h; omega
  split at h
  next hm => have := length_afterMark? hm; cases h; simp at this; omega
  simp only [bind, Except.bind] at h
  split at h
  · cases h
  next hn =>
    have := length_of_nameTest hn
    split at h
    · cases h
    next hp => have := length_of_predicates hp; cases h; omega

/-- One step or more, parted by `/` or `//`; `descend` belongs to the first of them. -/
def steps (descend : Bool) (s : List Char) : Answer (List Step × List Char) :=
  match _hm : move (skipBlanks s) with
  | .error e => .error e
  | .ok (m, r) =>
    match _hd : afterMark? ['/', '/'] (skipBlanks r) with
    | some r' => do
      let (more, r') ← steps true r'
      .ok (⟨descend, m⟩ :: more, r')
    | none =>
      match _hs : afterMark? ['/'] (skipBlanks r) with
      | some r' => do
        let (more, r') ← steps false r'
        .ok (⟨descend, m⟩ :: more, r')
      | none => .ok ([⟨descend, m⟩], skipBlanks r)
termination_by s.length
decreasing_by
  · have h₁ := length_skipBlanks_le s
    have h₂ := length_of_move _hm
    have h₃ := length_skipBlanks_le r
    have h₄ := length_afterMark? _hd
    omega
  · have h₁ := length_skipBlanks_le s
    have h₂ := length_of_move _hm
    have h₃ := length_skipBlanks_le r
    have h₄ := length_afterMark? _hs
    omega

theorem length_of_steps {descend : Bool} {s r : List Char} {ss : List Step}
    (h : steps descend s = .ok (ss, r)) : r.length ≤ s.length := by
  fun_induction steps descend s generalizing ss r with
  | case1 => cases h
  | case2 _ s m r₁ hm r₂ hd ih =>
    simp only [bind, Except.bind] at h
    split at h
    · cases h
    next hv =>
      cases h
      have h₁ := length_skipBlanks_le s
      have h₂ := length_of_move hm
      have h₃ := length_skipBlanks_le r₁
      have h₄ := length_afterMark? hd
      have h₅ := ih hv
      omega
  | case3 _ s m r₁ hm _ r₂ hs ih =>
    simp only [bind, Except.bind] at h
    split at h
    · cases h
    next hv =>
      cases h
      have h₁ := length_skipBlanks_le s
      have h₂ := length_of_move hm
      have h₃ := length_skipBlanks_le r₁
      have h₄ := length_afterMark? hs
      have h₅ := ih hv
      omega
  | case4 _ s m r₁ hm =>
    cases h
    have h₁ := length_skipBlanks_le s
    have h₂ := length_of_move hm
    have h₃ := length_skipBlanks_le r₁
    omega

/-- A path; a single `/` before the end or before `|` is the path without steps. -/
def path (s : List Char) : Answer (LocationPath × List Char) :=
  if let some r := afterMark? "//".toList s then do
    let (ss, r) ← steps true r
    .ok (⟨true, ss⟩, r)
  else if let some r := afterMark? "/".toList s then
    if (skipBlanks r).head?.all (· == '|') then .ok (⟨true, []⟩, skipBlanks r)
    else do
      let (ss, r) ← steps false (skipBlanks r)
      .ok (⟨true, ss⟩, r)
  else do
    let (ss, r) ← steps false s
    .ok (⟨false, ss⟩, r)

theorem length_of_path {s r : List Char} {p : LocationPath} (h : path s = .ok (p, r)) :
    r.length ≤ s.length := by
  unfold path at h
  split at h
  next hm =>
    have := length_afterMark? hm
    simp only [bind, Except.bind] at h
    split at h
    · cases h
    next hs => have := length_of_steps hs; cases h; omega
  split at h
  next r₁ hm =>
    have := length_afterMark? hm
    have := length_skipBlanks_le r₁
    split at h
    · cases h; omega
    · simp only [bind, Except.bind] at h
      split at h
      · cases h
      next hs => have := length_of_steps hs; cases h; omega
  simp only [bind, Except.bind] at h
  split at h
  · cases h
  next hs => have := length_of_steps hs; cases h; omega

/-- One path or more, parted by `|`. -/
def paths (s : List Char) : Answer (List LocationPath × List Char) :=
  match _hp : path s with
  | .error e => .error e
  | .ok (p, r) =>
    match _hm : afterMark? ['|'] (skipBlanks r) with
    | some r' => do
      let (more, r') ← paths (skipBlanks r')
      .ok (p :: more, r')
    | none => .ok ([p], skipBlanks r)
termination_by s.length
decreasing_by
  have h₁ := length_of_path _hp
  have h₂ := length_skipBlanks_le r
  have h₃ := length_afterMark? _hm
  have h₄ := length_skipBlanks_le r'
  simp only [List.length_cons] at h₃
  omega

/-! ## Queries -/

/-- A query at the front of a text. -/
def query (s : List Char) : Answer (Query × List Char) :=
  if s.head?.any fun c => c == '\'' || c == '"' then do
    let (text, r) ← literal s
    .ok (.literal text, r)
  else do
    let (ps, r) ← paths s
    .ok (.union ps, r)

/-- The query that a whole text is, blanks at both ends aside. -/
def whole (s : List Char) : Answer Query := do
  let (q, r) ← query (skipBlanks s)
  if skipBlanks r = [] then .ok q else .error ⟨.trailingInput, skipBlanks r⟩

end NetPlot.Query.Reader

namespace NetPlot.Query

/-- The query that a text is, or what is wrong with the text and where. -/
def parse (text : String) : Except Error Query :=
  match Reader.whole text.toList with
  | .ok q => .ok q
  | .error e => .error ⟨Text.offset text.toList e.rest, e.cause⟩

end NetPlot.Query
