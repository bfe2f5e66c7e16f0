/-
  Label specifications, scanned by byte positions.

  1. **Program** — `template` goes over a text character by character and looks at what follows
     each `$`; `spec` goes from block to block, finds where each one closes and moves on behind
     that.  Both are one loop.  The columns of a block are texts of their own, on which the scans
     of a template and of a query run (`within`).

  2. **Agreement** — the scans end with what `Template.parse` and `Spec.parse` answer, and with
     sound records (`ends_template`, `ends_spec`): what a loop has gathered stands in front of what
     is read from the rest, as `joined` says of segments and `Spec.withBlocks` of blocks.

  3. **Errors** — the offset that an error tells is a boundary of the text it is about
     (`Error.Located`).
-/
import NetPlot.Proofs.Label.Grammar
import NetPlot.Proofs.Query.Bytewise

namespace NetPlot.Label

open NetPlot.Text NetPlot.Text.Scan

/-! ## Errors

An offset counts from the front of the text that the error is about: of the specification, or of the
column that was read as a query. -/

/-- The offset in the error is a boundary: of the text, or of the query that is wrong. -/
def Error.Located (text : List Char) : Error → Prop
  | unterminated _ offset => OnBoundary text offset
  | unexpectedText _ offset => OnBoundary text offset
  | invalidQuery query error => OnBoundary query.toList error.offset

namespace Spec

/-- A specification with the columns of one more block. -/
def withBlock (spec : Spec) (b : Block) : Spec :=
  match b.kind with
  | .binding => { spec with bindings := spec.bindings ++ b.columns }
  | .row => if b.columns = [] then spec else { spec with rows := spec.rows ++ [b.columns] }

/-- A specification with more blocks. -/
def withBlocks (spec : Spec) (bs : List Block) : Spec :=
  ⟨spec.bindings ++ (ofBlocks bs).bindings, spec.rows ++ (ofBlocks bs).rows⟩

theorem withBlocks_nil (spec : Spec) : spec.withBlocks [] = spec := by
  simp [withBlocks, ofBlocks]

/-- The columns of a block are put in place as soon as it has been read, or with all others at the
end. -/
theorem withBlocks_cons (spec : Spec) (b : Block) (bs : List Block) :
    spec.withBlocks (b :: bs) = (spec.withBlock b).withBlocks bs := by
  obtain ⟨kind, cols⟩ := b
  cases kind with
  | binding => simp [withBlocks, withBlock, ofBlocks]
  | row =>
    by_cases hc : cols = []
    · simp [withBlocks, withBlock, ofBlocks, hc]
    · simp [withBlocks, withBlock, ofBlocks, hc]

/-- The loop begins with the empty specification and so ends with that of the blocks alone. -/
theorem withBlocks_empty (bs : List Block) : empty.withBlocks bs = ofBlocks bs := by
  simp [withBlocks, empty]

end Spec

namespace Bytewise

variable {ε φ : Type}

/-! ## Templates

The program keeps the text that it has read since the last reference apart from the segments before
it, and flushes it when a reference follows or the text ends.  `Segment.split` grows a text segment
from its front instead.  `joined` is what both come to. -/

/-- Segments, and the text that has been read behind them. -/
def flush (segments : List Segment) (literal : List Char) : List Segment :=
  if literal = [] then segments else segments ++ [.text literal]

/-- Past the digits behind the `$` at `start` if they make a reference; which is it? -/
def reference? (start : Nat) : Scan ε (Option Nat) := do
  let digits := (← dropBytes (← source) (start + 1)).chars.takeWhile Char.isDigit
  let n := numeral 10 digits
  if 0 < n ∧ n < 0x10000000000000000 then
    nextTimes (utf8Size digits)
    return some n
  else return none

/-- One more character, or one more reference, behind what has been read. -/
def templateRound (x : List Segment × List Char) :
    Scan ε (Turn (List Segment × List Char) (List Segment)) := do
  match ← next with
  | none => return .done (flush x.1 x.2)
  | some (start, c) =>
    if c = '$' then
      match ← reference? start with
      | some n => return .again (flush x.1 x.2 ++ [.reference n], [])
      | none => return .again (x.1, x.2 ++ [c])
    else return .again (x.1, x.2 ++ [c])

def template : Scan ε Template := do return ⟨← loop templateRound ([], [])⟩

/-- Segments and a text, with more segments behind them. -/
def joined (x : List Segment × List Char) (more : List Segment) : List Segment :=
  x.1 ++ x.2.foldr Segment.consText more

/-- A text does not grow into what begins with no text. -/
theorem foldr_consText {segments : List Segment} (h : ∀ s, .text s ∉ segments.head?)
    (literal : List Char) :
    literal.foldr Segment.consText segments = flush [] literal ++ segments := by
  induction literal with
  | nil => rfl
  | cons c literal ih =>
    rw [List.foldr_cons, ih]
    cases literal with
    | nil =>
      -- only a text could take the characters in, and none is at the front
      match segments, h with
      | [], _ => rfl
      | .reference n :: r, _ => rfl
      | .text s :: r, h => exact absurd rfl (h s)
    | cons d literal => rfl

/-- At the end the text that is still apart becomes the last segment. -/
theorem joined_nil (x : List Segment × List Char) : joined x [] = flush x.1 x.2 := by
  rw [joined, foldr_consText (by simp), List.append_nil]
  by_cases h : x.2 = [] <;> simp [flush, h]

/-- Before a reference the text that is still apart becomes a segment. -/
theorem joined_reference (x : List Segment × List Char) (n : Nat) (more : List Segment) :
    joined x (.reference n :: more) = joined (flush x.1 x.2 ++ [.reference n], []) more := by
  rw [joined, foldr_consText (by simp)]
  by_cases h : x.2 = [] <;> simp [joined, flush, h]

/-- A character that is no reference goes to the text that is kept apart. -/
theorem joined_consText (x : List Segment × List Char) (c : Char) (more : List Segment) :
    joined x (Segment.consText c more) = joined (x.1, x.2 ++ [c]) more := by
  rw [joined, joined, List.foldr_append]
  rfl

variable {text s : List Char} {Refused : φ → ε → Scanner → Prop}

/-- Digits have one byte each: the program counts the bytes of a run of digits and passes as many
characters. -/
theorem utf8Size_of_isDigit {digits : List Char} (h : ∀ c ∈ digits, c.isDigit = true) :
    utf8Size digits = digits.length := by
  induction digits with
  | nil => rfl
  | cons c digits ih =>
    obtain ⟨hc, hdigits⟩ := List.forall_mem_cons.1 h
    have hone : c.utf8Size = 1 := by
      simp only [Char.isDigit, Bool.and_eq_true, decide_eq_true_eq] at hc
      exact Char.utf8Size_eq_one_iff.2 (UInt32.le_trans hc.2 (by decide))
    rw [utf8Size, hone, ih hdigits, List.length_cons, Nat.add_comm]

/-- What follows a dollar sign is looked at from the byte behind it, and passed if it is a
reference. -/
theorem reads_reference? (hs : '$' :: s <:+ text) :
    Reads text Refused (reference? (offset text ('$' :: s))) s
      (.ok ((Segment.reference? s).map (·.1), ((Segment.reference? s).map (·.2)).getD s)) := by
  obtain ⟨before, htext⟩ := hs
  have hfront : (before ++ ['$']) ++ s = text := by rw [List.append_assoc]; exact htext
  -- the dollar sign has one byte, so the byte behind it is a boundary
  have hsize : utf8Size (before ++ ['$']) = offset text ('$' :: s) + 1 := by
    rw [← htext, offset_append, utf8Size_append]
    rfl
  refine reads_source.then ((reads_dropBytes (Slice.in_source text) hfront hsize).then ?_)
  rw [Segment.reference?_eq]
  show Reads _ _ (if _ then _ else _) _ _
  split
  next hn =>
    have hrun : s.takeWhile Char.isDigit ++ s.dropWhile Char.isDigit = s :=
      List.takeWhile_append_dropWhile
    have hlength : (s.takeWhile Char.isDigit).length = utf8Size (s.takeWhile Char.isDigit) :=
      (utf8Size_of_isDigit isDigit_of_mem_takeWhile).symm
    exact (reads_nextTimes hrun hlength).then (reads_pure _)
  next => exact reads_pure none

/-- A round takes a character, and with a dollar sign the reference that it begins. -/
theorem leads_template (x : List Segment × List Char) (s : List Char) : ∃ turn,
    Reads text Refused (templateRound x) s turn ∧
      Leads (fun x s => .ok (joined x (Segment.split s), [])) x s turn := by
  cases s with
  | nil =>
    refine ⟨_, reads_next_nil.then (reads_pure _), ?_⟩
    simp only [Leads, Segment.split, joined_nil]
  | cons c s =>
    by_cases hc : c = '$'
    · subst hc
      -- behind a dollar sign the digits are looked at, and taken if they make a reference
      cases href : Segment.reference? s with
      | some v =>
        obtain ⟨n, r⟩ := v
        refine ⟨.ok (.again (flush x.1 x.2 ++ [.reference n], []), r), Reads.of_suffix fun hs => ?_,
          Nat.lt_succ_of_le (Segment.length_of_reference? href), ?_⟩
        · refine (reads_next_cons '$').then ((reads_reference? hs).then ?_)
          simp only [href, Option.map_some, Option.getD_some]
          exact reads_pure _
        · simp only [Segment.split_reference href, joined_reference]
      | none =>
        refine ⟨.ok (.again (x.1, x.2 ++ ['$']), s), Reads.of_suffix fun hs => ?_,
          Nat.lt_succ_self _, ?_⟩
        · refine (reads_next_cons '$').then ((reads_reference? hs).then ?_)
          simp only [href, Option.map_none, Option.getD_none]
          exact reads_pure _
        · simp only [Segment.split_dollar href, joined_consText]
    · refine ⟨.ok (.again (x.1, x.2 ++ [c]), s), (reads_next_cons c).then ?_,
        Nat.lt_succ_self _, ?_⟩
      · simp only [hc, if_false]
        exact reads_pure _
      · simp only [Segment.split_of_ne hc, joined_consText]

/-- The scan of a text ends with the text as a template. -/
theorem ends_template (text : String) :
    Ends (template : Scan ε Template) text.toList (.ok (Template.parse text)) := by
  have hloop : Reads text.toList (fun (_ : Empty) (_ : ε) _ => False) template text.toList
      (.ok (Template.parse text, [])) :=
    (reads_loop _ leads_template ([], []) text.toList).map Template.mk
  exact ends_of_reads (.ok (Template.parse text)) Empty.elim hloop rfl fun f => f.elim

/-! ## Specifications

A round of the loop passes the blanks, reads one block and moves the position on behind it.  The
columns are scanned as texts of their own; what is wrong with one of them refuses the whole text. -/

/-- A column, which is a text of its own. -/
def column (text : String) : Scan Error Template := do
  match ← within text.toList (template (ε := Empty)) with
  | .error e => nomatch e
  | .ok t =>
    if t.hasReferences then return t
    else
      match ← within text.toList Query.Bytewise.whole with
      | .ok _ => return t
      | .error e => refuse fun _ => .invalidQuery text e

def columns (body : List Char) : Scan Error (List Template) := (columnTexts body).mapM column

/-- The kind of block that a slice begins with, and what follows its opening mark. -/
def opened? (v : Slice) : Option (BlockKind × Slice) :=
  match v.afterMark? BlockKind.binding.opening with
  | some body => some (.binding, body)
  | none => (v.afterMark? BlockKind.row.opening).map (.row, ·)

/-- Past a block of which the part behind the opening mark is `body`. -/
def block (kind : BlockKind) (body : Slice) : Scan Error Block := do
  match body.find? kind.closing with
  | some n =>
    let cols ← columns (← takeBytes body n).chars
    advance (utf8Size kind.opening + n + utf8Size kind.closing)
    return ⟨kind, cols⟩
  | none => refuse (.unterminated kind)

/-- One more block, if one follows. -/
def specRound (spec : Spec) : Scan Error (Turn Spec Spec) := do
  let r ← rest
  passBlanks r
  let trimmed := r.skipBlanks
  if trimmed.chars = [] then return .done spec
  else
    match opened? trimmed with
    | some (kind, body) => return .again (spec.withBlock (← block kind body))
    | none => refuse (.unexpectedText (String.ofList (trimmed.chars.takeWhile (!isBlank ·))))

def spec : Scan Error Spec := loop specRound Spec.empty

/-- The scanner is sound where the text is refused, and the error is the same and well placed. -/
def Refuses (text : List Char) (e e' : Error) (s : Scanner) : Prop :=
  s.text = text ∧ s.Sound ∧ e' = e ∧ e.Located text

/-- A column is scanned as a template, and as a query too if it has no reference. -/
theorem reads_column (column : String) :
    Reads text (Refuses text) (Bytewise.column column) s (do
      let t ← Label.column column
      .ok (t, s)) := by
  refine (reads_within (ends_template column)).then ?_
  rw [Label.column]
  show Reads _ _ (if _ then _ else _) _ _
  -- a column with a reference is not read as a query
  split
  next => exact reads_pure _
  next =>
    refine (reads_within (Query.Bytewise.ends_whole column)).then ?_
    cases hq : Query.parse column with
    | ok q => exact reads_pure _
    | error e =>
      exact reads_refuse fun sc hs =>
        ⟨hs.text_eq, hs.sound, rfl, Query.Bytewise.onBoundary_of_parse hq⟩

/-- The columns of a block, one after the other up to the first that is refused; the scanner of the
block stays where it is. -/
theorem reads_columns (body : List Char) :
    Reads text (Refuses text) (columns body) s (do
      let cols ← Label.columns body
      .ok (cols, s)) := by
  rw [columns, Label.columns]
  -- over the columns of the block; `still` because none of them moves the scanner
  induction columnTexts body with
  | nil => exact reads_pure []
  | cons column more ih =>
    rw [List.mapM_cons, List.mapM_cons]
    simp only [bind_assoc, pure_bind]
    exact (reads_column column).still fun t _ => ih.still fun ts _ => reads_pure (t :: ts)

/-- A slice begins with a block as its characters do. -/
theorem opened?_eq (v : Slice) :
    opened? v = (Label.opened? v.chars).map fun (kind, r) =>
      (kind, ⟨v.start + utf8Size kind.opening, r⟩) := by
  simp only [opened?, Label.opened?, Slice.afterMark?]
  cases afterMark? BlockKind.binding.opening v.chars with
  | some r => rfl
  | none => cases afterMark? BlockKind.row.opening v.chars <;> rfl

/-- The block that opens where `s` begins in the text, with `r` behind its opening mark. -/
def blockAt (text s : List Char) (kind : BlockKind) (r : List Char) :
    Except Error (Block × List Char) :=
  match cutAt kind.closing r with
  | some (content, r) => do
    let cols ← Label.columns content
    .ok (⟨kind, cols⟩, r)
  | none => .error (.unterminated kind (offset text s))

/-- A block: what is in front of its closing mark is cut out, its columns are read, and the position
moves on by the sizes of the three parts. -/
theorem reads_block {kind : BlockKind} {body : Slice} (hbody : body.In text)
    (hs : kind.opening ++ body.chars = s) :
    Reads text (Refuses text) (block kind body) s (blockAt text s kind body.chars) := by
  rw [blockAt]
  cases hc : cutAt kind.closing body.chars with
  | none =>
    rw [block, Slice.find?_of_cutAt_none hc]
    exact reads_refuse fun sc hat =>
      ⟨hat.text_eq, hat.sound, by rw [hat.position_eq], onBoundary_offset hat.suffix⟩
  | some cut =>
    obtain ⟨content, r⟩ := cut
    -- the parts of the block in the text: opening mark, content, closing mark, and what follows
    have hcut : content ++ (kind.closing ++ r) = body.chars := by
      rw [cutAt_eq_some hc, List.append_assoc]
    have hblock : kind.opening ++ content ++ kind.closing ++ r = s := by
      rw [← hs, ← hcut, List.append_assoc, List.append_assoc]
    have hsize : utf8Size (kind.opening ++ content ++ kind.closing)
        = utf8Size kind.opening + utf8Size content + utf8Size kind.closing := by
      rw [utf8Size_append, utf8Size_append]
    rw [block, Slice.find?_of_cutAt_some hc]
    refine (reads_takeBytes hbody hcut rfl).then ?_
    exact (reads_columns content).still fun cols _ =>
      (reads_advance hblock hsize).then (reads_pure _)

/-- A round over what is left where a block opens. -/
theorem reads_specRound {spec : Spec} {kind : BlockKind} {r : List Char}
    (hblank : skipBlanks s ≠ []) (ho : Label.opened? (skipBlanks s) = some (kind, r)) :
    Reads text (Refuses text) (specRound spec) s (do
      let (b, r) ← blockAt text (skipBlanks s) kind r
      .ok (.again (spec.withBlock b), r)) := by
  refine Reads.of_suffix fun hs => reads_rest.then (reads_passBlanks.then ?_)
  have hopening : kind.opening ++ r = skipBlanks s := (eq_of_opened? ho).symm
  have hbody := (Slice.in_rest hs).skipBlanks.right hopening
  simp only [opened?_eq, Slice.skipBlanks, hblank, ho, if_false, Option.map_some] at hbody ⊢
  exact (reads_block hbody hopening).map _

/-- The blocks of what is left count behind those that have been read. -/
theorem leads_spec (spec : Spec) (s : List Char) : ∃ turn,
    Reads text (Refuses text) (specRound spec) s turn ∧
      Leads (fun spec s => do
        let bs ← blocks text s
        .ok (spec.withBlocks bs, [])) spec s turn := by
  by_cases hblank : skipBlanks s = []
  · refine ⟨.ok (.done spec, []), ?_, ?_⟩
    · refine reads_rest.then (reads_passBlanks.then ?_)
      simp only [Slice.skipBlanks, hblank, if_true]
      exact reads_pure _
    · simp only [Leads, blocks_of_blank hblank, bind, Except.bind, Spec.withBlocks_nil]
  cases ho : Label.opened? (skipBlanks s) with
  | none =>
    refine ⟨.error (.unexpectedText (String.ofList ((skipBlanks s).takeWhile (!isBlank ·)))
      (offset text (skipBlanks s))), ?_, ?_⟩
    · refine reads_rest.then (reads_passBlanks.then ?_)
      simp only [opened?_eq, Slice.skipBlanks, hblank, ho, if_false, Option.map_none]
      exact reads_refuse fun sc hat =>
        ⟨hat.text_eq, hat.sound, by rw [hat.position_eq], onBoundary_offset hat.suffix⟩
    · simp only [Leads, blocks_of_not_opened hblank ho, bind, Except.bind]
  | some v =>
    obtain ⟨kind, r⟩ := v
    refine ⟨_, reads_specRound hblank ho, ?_⟩
    cases hc : cutAt kind.closing r with
    | none =>
      simp only [Leads, blockAt, hc, blocks_of_not_closed ho hc, bind, Except.bind]
    | some cut =>
      obtain ⟨content, r'⟩ := cut
      simp only [blockAt, hc]
      -- a block whose columns are refused ends the loop with their error; any other leaves less
      cases hcols : Label.columns content with
      | error e =>
        simp only [Leads, blocks_of_opened ho hc, hcols, bind, Except.bind]
      | ok cols =>
        refine ⟨?_, ?_⟩
        · show r'.length < s.length
          have h₁ := length_skipBlanks_le s
          have h₂ := length_of_opened? ho
          have h₃ := length_of_cutAt hc
          omega
        · simp only [blocks_of_opened ho hc, hcols, bind, Except.bind]
          cases blocks text r' with
          | error e => rfl
          | ok bs => simp only [Spec.withBlocks_cons]

/-- The whole text, from the empty specification on. -/
theorem reads_spec (text : String) :
    Reads text.toList (Refuses text.toList) spec text.toList (do
      let spec ← Spec.parse text
      .ok (spec, [])) := by
  have h : Reads text.toList (Refuses text.toList) spec text.toList _ :=
    reads_loop _ leads_spec Spec.empty text.toList
  rw [Spec.parse]
  cases hb : blocks text.toList text.toList with
  | ok bs => simpa only [hb, bind, Except.bind, Spec.withBlocks_empty] using h
  | error e => simpa only [hb, bind, Except.bind] using h

/-- The scan of a text ends with the text as a specification, or with what is wrong with it. -/
theorem ends_spec (text : String) : Ends spec text.toList (Spec.parse text) := by
  refine ends_of_reads _ id (reads_spec text) ?_ fun e e' s h => ⟨h.2.2.1, h.1, h.2.1⟩
  cases Spec.parse text <;> rfl

/-- The offset in an error is a boundary. -/
theorem located_of_parse {text : String} {e : Error} (h : Spec.parse text = .error e) :
    e.Located text.toList := by
  have hreads := reads_spec text
  rw [h] at hreads
  obtain ⟨e', s, -, -, -, hlocated⟩ := exists_refused hreads
  exact hlocated

end Bytewise

/-! ## The main result -/

/-- Reading a text as a query, as a label specification or as a template never cuts a character:
the scan that moves by byte positions ends with what the reader answers and has not crashed; all
its positions are boundaries and none is in front of an earlier one, all its slices lie between
boundaries, and each round of a loop that another one follows takes at least one byte.  The offset
that a refusal tells is a boundary as well. -/
theorem scans_on_boundaries (text : String) :
    (Ends Query.Bytewise.whole text.toList (Query.parse text) ∧
      ∀ e, Query.parse text = .error e → OnBoundary text.toList e.offset) ∧
    (Ends Bytewise.spec text.toList (Spec.parse text) ∧
      ∀ e, Spec.parse text = .error e → e.Located text.toList) ∧
    Ends (ε := Empty) Bytewise.template text.toList (.ok (Template.parse text)) :=
  ⟨⟨Query.Bytewise.ends_whole text, fun _ => Query.Bytewise.onBoundary_of_parse⟩,
    ⟨Bytewise.ends_spec text, fun _ => Bytewise.located_of_parse⟩, Bytewise.ends_template text⟩

end NetPlot.Label
