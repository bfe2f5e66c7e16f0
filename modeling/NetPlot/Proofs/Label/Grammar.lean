/-
  The grammar of label specifications.

  1. **Grammar** — a text `IsWritten` as blocks with blanks in front of each and at the end.  A
     `WrittenBlock` shows its parts: those between the separators are its columns, trimmed, and it
     ends at the first mark that can close it (`Proper`).  A text `IsColumn` if it refers to a bound
     value or is a query.

  2. **Offences** — `Offends` says what may be wrong behind proper blocks: text outside of blocks, a
     block that is not closed, or a block with a column that is none.

  3. **Reader** — a proper block is read as it is written, in front of any text
     (`blocks_chars_append`), so blocks that are written alike are the same (`chars_append_inj`).
     Behind proper blocks of columns, every text is at its end or offends (`exists_written`), and
     that settles what the reader gives (`parse_iff_written`).

  **The crux** — a block ends at the first mark that can close it, so what stands in a block is
  limited by its marks and not by quotes.  With this said of each block, a text has at most one way
  to be written.
-/
import Mathlib.Data.List.Infix
import NetPlot.Proofs.Label.Reference
import NetPlot.Proofs.Label.RoundTrip

namespace NetPlot.Label

open NetPlot.Text

/-! ## Columns

The reader asks two questions about a column, and both are answered by its text: does a segment
refer, and if not, is the whole a query? -/

/-- Somewhere a `$` stands in front of a run of digits that is a number from one on and fits in 64
bits. -/
def Refers (s : List Char) : Prop :=
  ∃ front digits rest, s = front ++ '$' :: (digits ++ rest) ∧
    (∀ c ∈ digits, c.isDigit = true) ∧ (∀ c ∈ rest.head?, c.isDigit = false) ∧
    1 ≤ numeral 10 digits ∧ numeral 10 digits < 0x10000000000000000

/-- A text that can be a column: it refers to a bound value, or it is a query. -/
def IsColumn (text : String) : Prop := Refers text.toList ∨ ∃ q, Query.parse text = .ok q

/-- A reference anywhere in the text, said of the place where its digits stand. -/
theorem refers_iff {s : List Char} : Refers s ↔ ∃ digits, RefersBy s digits := by
  constructor
  · rintro ⟨front, digits, rest, h, hdigits, hrest, hn⟩
    exact ⟨digits, ⟨front, rest, h, hrest⟩, hdigits, hn⟩
  · rintro ⟨digits, ⟨front, rest, h, hrest⟩, hdigits, hn⟩
    exact ⟨front, digits, rest, h, hdigits, hrest, hn⟩

/-- A text refers to a bound value if and only if one of its segments is a reference. -/
theorem exists_reference_iff (s : List Char) :
    (∃ n, .reference n ∈ Segment.split s) ↔ Refers s := by
  rw [refers_iff]
  constructor
  · rintro ⟨n, hmem⟩
    obtain ⟨digits, hrefers, -⟩ := reference_mem_split_iff.1 hmem
    exact ⟨digits, hrefers⟩
  · rintro ⟨digits, hrefers⟩
    exact ⟨_, reference_mem_split_iff.2 ⟨digits, hrefers, rfl⟩⟩

/-- A template has references exactly if its text refers to a bound value. -/
theorem hasReferences_iff {text : String} :
    (Template.parse text).hasReferences = true ↔ Refers text.toList := by
  rw [← exists_reference_iff, Template.hasReferences, List.any_eq_true]
  constructor
  · rintro ⟨s | n, hmem, h⟩
    · cases h
    · exact ⟨n, hmem⟩
  · rintro ⟨n, hmem⟩
    exact ⟨_, hmem, rfl⟩

/-- A text that can be a column is read as the template of its text. -/
theorem column_of_isColumn {text : String} (h : IsColumn text) :
    column text = .ok (Template.parse text) := by
  by_cases hr : (Template.parse text).hasReferences = true
  · simp only [column, hr, if_true]
  · obtain ⟨q, hq⟩ := h.resolve_left (mt hasReferences_iff.2 hr)
    simp only [column, hr, hq]
    rfl

/-- A text that neither refers nor is a query is refused with the error of the query. -/
theorem column_of_invalid {text : String} {e : Query.Error} (hr : ¬ Refers text.toList)
    (hq : Query.parse text = .error e) : column text = .error (.invalidQuery text e) := by
  simp only [column, mt hasReferences_iff.1 hr, hq]
  rfl

/-- A text is no column for one reason alone. -/
theorem exists_error_of_not_isColumn {text : String} (h : ¬ IsColumn text) :
    ¬ Refers text.toList ∧ ∃ e, Query.parse text = .error e := by
  refine ⟨fun hr => h (Or.inl hr), ?_⟩
  cases hq : Query.parse text with
  | ok q => exact absurd (Or.inr ⟨q, hq⟩) h
  | error e => exact ⟨e, rfl⟩

/-! ## Grammar

The grammar says which texts are blocks without saying how they are found.  `Proper` has the two
conditions that make the parts unique: no separator inside of a part, no closing mark before the
end. -/

/-- A block as it is written: blanks, the opening mark, texts parted by `&&`, the closing mark. -/
structure WrittenBlock where
  gap : List Char
  kind : BlockKind
  parts : List (List Char)

namespace WrittenBlock

/-- What stands between the marks. -/
def body (w : WrittenBlock) : List Char := ['&', '&'].intercalate w.parts

/-- The whole text of a block. -/
def chars (w : WrittenBlock) : List Char := w.gap ++ w.kind.opening ++ w.body ++ w.kind.closing

/-- The parts without the blanks around them, those left empty aside. -/
def columnTexts (w : WrittenBlock) : List String :=
  ((w.parts.map trimChars).filter (· ≠ [])).map String.ofList

/-- The columns as templates. -/
def columns (w : WrittenBlock) : List Template := w.columnTexts.map Template.parse

/-- Blanks stand in front of the block, no separator is inside of a part, and the block is not
closed before its end. -/
structure Proper (w : WrittenBlock) : Prop where
  blank : ∀ c ∈ w.gap, isBlank c = true
  ne_nil : w.parts ≠ []
  unparted : ∀ p ∈ w.parts, ¬ ['&', '&'] <:+: p
  first : ∀ p ∈ w.parts.dropLast, p.getLast? ≠ some '&'
  unclosed : ¬ w.kind.closing <:+: w.body
  last : w.kind = .binding → w.body.getLast? ≠ some '>'

/-- Every column is one. -/
def IsRead (w : WrittenBlock) : Prop := ∀ text ∈ w.columnTexts, IsColumn text

end WrittenBlock

/-- A text that consists of blocks and of blanks at the end. -/
structure IsWritten (s : List Char) (ws : List WrittenBlock) (gap : List Char) : Prop where
  eq : s = ws.flatMap WrittenBlock.chars ++ gap
  proper : ∀ w ∈ ws, w.Proper
  blank : ∀ c ∈ gap, isBlank c = true

/-- What is wrong with a text that is left at a place. -/
inductive Offends (place : Nat) (s : List Char) : Error → Prop where
  /-- It begins with neither a blank nor a block. -/
  | unexpected (hne : s ≠ []) (hb : ∀ c ∈ s.head?, isBlank c = false)
      (ho : ∀ kind : BlockKind, ¬ kind.opening <+: s) :
      Offends place s (.unexpectedText (String.ofList (s.takeWhile (!isBlank ·))) place)
  /-- It begins with a block that is not closed. -/
  | unterminated (kind : BlockKind) {r : List Char} (hs : s = kind.opening ++ r)
      (hc : ¬ kind.closing <:+: r) : Offends place s (.unterminated kind place)
  /-- It begins with a block that has a column which is none, and this is the first one. -/
  | invalid {w : WrittenBlock} {r : List Char} {before after : List String} {text : String}
      {e : Query.Error} (hs : s = w.chars ++ r) (hgap : w.gap = []) (hw : w.Proper)
      (hcols : w.columnTexts = before ++ text :: after) (hb : ∀ t ∈ before, IsColumn t)
      (hr : ¬ Refers text.toList) (hq : Query.parse text = .error e) :
      Offends place s (.invalidQuery text e)

/-! ## Reader

Both directions go through `blocks`: what is written is read so, block by block, and what is left
when no further block can be taken off is the end of the text or an offence.  Since reading is a
function, this also shows that a text can be written in one way only. -/

/-- Behind the opening mark of a kind, a block of this kind is open. -/
theorem opened?_opening_append (kind : BlockKind) (r : List Char) :
    opened? (kind.opening ++ r) = some (kind, r) := by
  cases kind <;> rfl

theorem eq_of_opened? {s r : List Char} {kind : BlockKind} (h : opened? s = some (kind, r)) :
    s = kind.opening ++ r := by
  unfold opened? at h
  split at h
  next hm => cases h; exact afterMark?_eq_some.1 hm
  next =>
    simp only [Option.map_eq_some_iff, Prod.mk.injEq] at h
    obtain ⟨r', hm, rfl, rfl⟩ := h
    exact afterMark?_eq_some.1 hm

/-- No block opens where the text begins with neither opening mark. -/
theorem opened?_eq_none {s : List Char} :
    opened? s = none ↔ ∀ kind : BlockKind, ¬ kind.opening <+: s := by
  constructor
  · rintro h kind ⟨r, rfl⟩
    rw [opened?_opening_append] at h
    cases h
  · intro h
    cases ho : opened? s with
    | none => rfl
    | some x => exact absurd ⟨x.2, (eq_of_opened? ho).symm⟩ (h x.1)

/-- Blocks begin with no blank, so blanks in front of them are told apart. -/
theorem BlockKind.isBlank_of_head {kind : BlockKind} (r : List Char) :
    ∀ c ∈ (kind.opening ++ r).head?, isBlank c = false := by
  cases kind <;> rintro c ⟨⟩ <;> rfl

theorem skipBlanks_append {gap s : List Char} (hg : ∀ c ∈ gap, isBlank c = true)
    (hs : ∀ c ∈ s.head?, isBlank c = false) : skipBlanks (gap ++ s) = s :=
  congrArg Prod.snd (splitRun_of_run hg hs)

theorem skipBlanks_eq_nil {gap : List Char} (h : ∀ c ∈ gap, isBlank c = true) :
    skipBlanks gap = [] := by
  simpa using skipBlanks_append (s := []) h (by simp)

/-- A text is its blanks at the front and what a skip leaves. -/
theorem exists_gap (s : List Char) :
    ∃ gap, s = gap ++ skipBlanks s ∧ ∀ c ∈ gap, isBlank c = true :=
  ⟨s.takeWhile isBlank, List.takeWhile_append_dropWhile.symm,
    fun c hc => List.all_eq_true.1 List.all_takeWhile c hc⟩

/-- Where no block opens, the text up to the next blank is unexpected. -/
theorem blocks_of_not_opened {text s : List Char} (hne : skipBlanks s ≠ [])
    (ho : opened? (skipBlanks s) = none) :
    blocks text s =
      .error (.unexpectedText (String.ofList ((skipBlanks s).takeWhile (!isBlank ·)))
        (offset text (skipBlanks s))) := by
  rw [blocks, if_neg hne]
  split
  next => rfl
  next hs => cases ho.symm.trans hs

/-- A block that is not closed is reported where it opens. -/
theorem blocks_of_not_closed {text s r : List Char} {kind : BlockKind}
    (ho : opened? (skipBlanks s) = some (kind, r)) (hc : cutAt kind.closing r = none) :
    blocks text s = .error (.unterminated kind (offset text (skipBlanks s))) := by
  -- a block has been opened, so the text is not at its end
  have hne : skipBlanks s ≠ [] := by
    intro he
    rw [he] at ho
    cases ho
  rw [blocks, if_neg hne]
  split
  next hn => cases ho.symm.trans hn
  next kind' r' hs =>
    obtain ⟨rfl, rfl⟩ : kind = kind' ∧ r = r' := by simpa using ho.symm.trans hs
    split
    next => rfl
    next hs' => cases hc.symm.trans hs'

namespace WrittenBlock

variable {w : WrittenBlock}

/-- The mark at the end of a proper block is the first one that can close it. -/
theorem Proper.cutAt_closing (h : w.Proper) (r : List Char) :
    cutAt w.kind.closing (w.body ++ w.kind.closing ++ r) = some (w.body, r) := by
  refine (cutAt_eq_some_iff w.kind.closing_ne_nil).2 ⟨rfl, ?_⟩
  have hun := h.unclosed
  have hlast := h.last
  cases hk : w.kind with
  | binding =>
    rw [hk] at hun hlast
    exact fun hi => (doubled_infix_concat_iff.1 hi).elim hun (hlast rfl)
  | row =>
    rw [hk] at hun
    simpa [BlockKind.closing] using hun

/-- The parts of a proper block are the pieces between the separators. -/
theorem Proper.pieces_body (h : w.Proper) : pieces '&' ['&'] w.body = w.parts :=
  pieces_intercalate_mark h.ne_nil h.unparted fun p hp hi =>
    (doubled_infix_concat_iff.1 hi).elim (h.unparted p (List.dropLast_subset _ hp)) (h.first p hp)

/-- The blanks in front of a proper block are all that is skipped. -/
theorem Proper.skipBlanks_chars_append (h : w.Proper) (r : List Char) :
    skipBlanks (w.chars ++ r) = w.kind.opening ++ (w.body ++ w.kind.closing ++ r) := by
  have hchars : w.chars ++ r = w.gap ++ (w.kind.opening ++ (w.body ++ w.kind.closing ++ r)) := by
    simp only [chars, List.append_assoc]
  rw [hchars]
  exact skipBlanks_append h.blank (BlockKind.isBlank_of_head _)

/-- What is cut out of a text makes a proper block. -/
theorem proper_of_cutAt {gap r body r' : List Char} {kind : BlockKind}
    (hg : ∀ c ∈ gap, isBlank c = true) (hc : cutAt kind.closing r = some (body, r')) :
    (WrittenBlock.mk gap kind (pieces '&' ['&'] body)).Proper ∧
      gap ++ (kind.opening ++ r) = (WrittenBlock.mk gap kind (pieces '&' ['&'] body)).chars ++ r' := by
  obtain ⟨rfl, hfirst⟩ := (cutAt_eq_some_iff kind.closing_ne_nil).1 hc
  have hbody : (WrittenBlock.mk gap kind (pieces '&' ['&'] body)).body = body :=
    intercalate_pieces '&' ['&'] body
  refine ⟨⟨hg, pieces_ne_nil _ _ _, fun p => not_infix_of_mem_pieces, ?_, ?_, ?_⟩, ?_⟩
  · exact fun p hp hl => not_infix_of_mem_dropLast_pieces hp (doubled_infix_concat_iff.2 (Or.inr hl))
  · rw [hbody]
    exact not_infix_of_cutAt kind.closing_ne_nil hc
  · rintro rfl hl
    rw [hbody] at hl
    exact hfirst (doubled_infix_concat_iff.2 (Or.inr hl))
  · simp only [chars, hbody, List.append_assoc]

/-- A proper block is read as it is written, whatever follows. -/
theorem Proper.blocks_chars_append (h : w.Proper) (text r : List Char) :
    blocks text (w.chars ++ r) = (do
      let cols ← w.columnTexts.mapM column
      let more ← blocks text r
      .ok (⟨w.kind, cols⟩ :: more)) := by
  have ho : opened? (skipBlanks (w.chars ++ r)) =
      some (w.kind, w.body ++ w.kind.closing ++ r) := by
    rw [h.skipBlanks_chars_append, opened?_opening_append]
  rw [blocks_of_opened ho (h.cutAt_closing r), Label.columns, Label.columnTexts, h.pieces_body,
    columnTexts]

/-- Proper blocks that are written alike are the same, and what follows them is too. -/
theorem Proper.chars_append_inj {w' : WrittenBlock} {r r' : List Char} (h : w.Proper)
    (h' : w'.Proper) (he : w.chars ++ r = w'.chars ++ r') : w = w' ∧ r = r' := by
  -- the reader sees one text, so it opens, cuts and parts both blocks alike
  have hopened := congrArg (fun s => opened? (skipBlanks s)) he
  simp only [h.skipBlanks_chars_append, h'.skipBlanks_chars_append, opened?_opening_append,
    Option.some.injEq, Prod.mk.injEq] at hopened
  obtain ⟨hkind, hrest⟩ := hopened
  have hcut := h.cutAt_closing r
  rw [hrest, hkind, h'.cutAt_closing, Option.some.injEq, Prod.mk.injEq] at hcut
  obtain ⟨hbody, rfl⟩ := hcut
  have hparts : w.parts = w'.parts := by rw [← h.pieces_body, ← hbody, h'.pieces_body]
  have hgap : w.gap = w'.gap := by
    have hchars := List.append_cancel_right he
    simp only [chars, hkind, hbody, List.append_assoc, List.append_cancel_right_eq] at hchars
    exact hchars
  obtain ⟨gap, kind, parts⟩ := w
  obtain rfl : gap = w'.gap := hgap
  obtain rfl : kind = w'.kind := hkind
  obtain rfl : parts = w'.parts := hparts
  exact ⟨rfl, rfl⟩

/-- The block that is read. -/
def block (w : WrittenBlock) : Block := ⟨w.kind, w.columns⟩

/-- Proper blocks of columns are read one after the other. -/
theorem blocks_flatMap_append {ws : List WrittenBlock} (h : ∀ w ∈ ws, w.Proper ∧ w.IsRead)
    (text r : List Char) :
    blocks text (ws.flatMap chars ++ r) = (blocks text r).map (ws.map block ++ ·) := by
  induction ws with
  | nil => cases hr : blocks text r <;> simp [Except.map, hr]
  | cons w ws ih =>
    obtain ⟨hw, hread⟩ := h w List.mem_cons_self
    have hcols : w.columnTexts.mapM column = .ok w.columns :=
      Answer.mapM_eq_ok fun t ht => column_of_isColumn (hread t ht)
    rw [List.flatMap_cons, List.append_assoc, hw.blocks_chars_append, hcols,
      ih fun x hx => h x (List.mem_cons_of_mem w hx)]
    cases blocks text r <;> rfl

end WrittenBlock

open WrittenBlock

/-- A text that offends is refused. -/
theorem Offends.blocks_eq {text front gap s : List Char} {e : Error}
    (h : Offends (utf8Size front) s e) (ht : text = front ++ s)
    (hg : ∀ c ∈ gap, isBlank c = true) : blocks text (gap ++ s) = .error e := by
  have hplace : offset text s = utf8Size front := by rw [ht, offset_append]
  cases h with
  | unexpected hne hb ho =>
    have hskip : skipBlanks (gap ++ s) = s := skipBlanks_append hg hb
    rw [blocks_of_not_opened (by rwa [hskip]) (by rw [hskip, opened?_eq_none.2 ho]), hskip, hplace]
  | @unterminated kind r hs hc =>
    have hskip : skipBlanks (gap ++ s) = s :=
      skipBlanks_append hg (hs ▸ BlockKind.isBlank_of_head _)
    have ho : opened? (skipBlanks (gap ++ s)) = some (kind, r) := by
      rw [hskip, hs, opened?_opening_append]
    rw [blocks_of_not_closed ho (cutAt_eq_none.2 hc), hskip, hplace]
  | @invalid w r before after column e hs hgap hw hcols hb hr hq =>
    -- the blanks in front belong to the block
    have hw' : (WrittenBlock.mk gap w.kind w.parts).Proper :=
      ⟨hg, hw.ne_nil, hw.unparted, hw.first, hw.unclosed, hw.last⟩
    have hchars : gap ++ s = (WrittenBlock.mk gap w.kind w.parts).chars ++ r := by
      simp only [hs, chars, hgap, body, List.nil_append, List.append_assoc]
    have hmap : (WrittenBlock.mk gap w.kind w.parts).columnTexts.mapM Label.column =
        .error (.invalidQuery column e) := by
      show w.columnTexts.mapM Label.column = _
      rw [hcols]
      exact Answer.mapM_eq_error (fun t ht => column_of_isColumn (hb t ht))
        (column_of_invalid hr hq) after
    rw [hchars, hw'.blocks_chars_append, hmap]
    rfl

/-- All members of a list have a property, or there is a first one that has it not. -/
theorem forall_or_exists_first {α : Type} (P : α → Prop) (l : List α) :
    (∀ a ∈ l, P a) ∨ ∃ before a after, l = before ++ a :: after ∧ (∀ b ∈ before, P b) ∧ ¬ P a := by
  induction l with
  | nil => exact Or.inl fun a ha => absurd ha List.not_mem_nil
  | cons a l ih =>
    by_cases ha : P a
    · rcases ih with hall | ⟨before, b, after, rfl, hb, hn⟩
      · exact Or.inl (List.forall_mem_cons.2 ⟨ha, hall⟩)
      · exact Or.inr ⟨a :: before, b, after, rfl, List.forall_mem_cons.2 ⟨ha, hb⟩, hn⟩
    · exact Or.inr ⟨[], a, l, rfl, fun b hb => absurd hb List.not_mem_nil, ha⟩

/-- A text is blank, or it offends behind its blanks, or it begins with a proper block of columns. -/
theorem written_step (place : Nat) (s : List Char) :
    (∀ c ∈ s, isBlank c = true) ∨
      (∃ gap r e, s = gap ++ r ∧ (∀ c ∈ gap, isBlank c = true) ∧
        Offends (place + utf8Size gap) r e) ∨
      ∃ (w : WrittenBlock) (r : List Char), s = w.chars ++ r ∧ w.Proper ∧ w.IsRead ∧
        r.length < s.length := by
  obtain ⟨gap, hs, hgap⟩ := exists_gap s
  by_cases hne : skipBlanks s = []
  · rw [hne, List.append_nil] at hs
    exact Or.inl (hs ▸ hgap)
  refine Or.inr ?_
  cases ho : opened? (skipBlanks s) with
  | none =>
    have hb : ∀ c ∈ (skipBlanks s).head?, isBlank c = false := head?_dropWhile_class
    exact Or.inl ⟨gap, skipBlanks s, _, hs, hgap, .unexpected hne hb (opened?_eq_none.1 ho)⟩
  | some x =>
    obtain ⟨kind, r⟩ := x
    have hopen : skipBlanks s = kind.opening ++ r := eq_of_opened? ho
    cases hc : cutAt kind.closing r with
    | none =>
      exact Or.inl ⟨gap, skipBlanks s, _, hs, hgap, .unterminated kind hopen (cutAt_eq_none.1 hc)⟩
    | some y =>
      obtain ⟨body, r'⟩ := y
      obtain ⟨hw, hchars⟩ := proper_of_cutAt hgap hc
      rw [← hopen, ← hs] at hchars
      -- either all columns can be read, or the first that cannot is the offence
      rcases forall_or_exists_first IsColumn
        (WrittenBlock.mk gap kind (pieces '&' ['&'] body)).columnTexts with hread | hfirst
      · have hlt : r'.length < s.length := by
          have hlen := length_of_opened? ho
          have hcut := length_of_cutAt hc
          have hskip := length_skipBlanks_le s
          omega
        exact Or.inr ⟨_, r', hchars, hw, hread, hlt⟩
      · -- the block without the blanks in front of it has the same columns
        obtain ⟨before, text, after, hcols, hb, hbad⟩ := hfirst
        obtain ⟨hr, e, hq⟩ := exists_error_of_not_isColumn hbad
        have hnone : ∀ c ∈ ([] : List Char), isBlank c = true := fun _ hmem => nomatch hmem
        obtain ⟨hw', hchars'⟩ := proper_of_cutAt hnone hc
        rw [← hopen, List.nil_append] at hchars'
        exact Or.inl ⟨gap, skipBlanks s, _, hs, hgap, .invalid hchars' rfl hw' hcols hb hr hq⟩

/-- Behind proper blocks of columns and blanks, a text is at its end or offends. -/
theorem exists_written (place : Nat) (s : List Char) :
    ∃ (ws : List WrittenBlock) (gap r : List Char), s = ws.flatMap chars ++ gap ++ r ∧
      (∀ w ∈ ws, w.Proper ∧ w.IsRead) ∧ (∀ c ∈ gap, isBlank c = true) ∧
      (r = [] ∨ ∃ e, Offends (place + utf8Size (ws.flatMap chars ++ gap)) r e) := by
  -- on what is left: a block that is read leaves less
  induction hn : s.length using Nat.strong_induction_on generalizing place s with
  | _ n ih =>
    rcases written_step place s with hblank | ⟨gap, r, e, rfl, hgap, he⟩ | ⟨w, r, rfl, hw, hread, hlt⟩
    · exact ⟨[], s, [], by simp, by simp, hblank, Or.inl rfl⟩
    · exact ⟨[], gap, r, by simp, by simp, hgap, Or.inr ⟨e, by simpa using he⟩⟩
    · obtain ⟨ws, gap, r', rfl, hws, hgap, hend⟩ :=
        ih r.length (hn ▸ hlt) (place + utf8Size w.chars) r rfl
      refine ⟨w :: ws, gap, r', ?_, List.forall_mem_cons.2 ⟨⟨hw, hread⟩, hws⟩, hgap, ?_⟩
      · rw [List.flatMap_cons]
        simp only [List.append_assoc]
      · simpa only [List.flatMap_cons, utf8Size_append, Nat.add_assoc] using hend

/-- Two ways to write a text as blocks are the same. -/
theorem IsWritten.unique {s : List Char} {ws ws' : List WrittenBlock} {gap gap' : List Char}
    (h : IsWritten s ws gap) (h' : IsWritten s ws' gap') : ws = ws' ∧ gap = gap' := by
  -- no block is blank, so both lists come to their end together
  have hblank : ∀ {w : WrittenBlock} {r gap : List Char}, w.Proper →
      (∀ c ∈ gap, isBlank c = true) → gap ≠ w.chars ++ r := by
    rintro w r _ hw hg rfl
    have hskip := hw.skipBlanks_chars_append r
    rw [skipBlanks_eq_nil hg] at hskip
    cases hk : w.kind <;> rw [hk] at hskip <;> cases hskip
  induction ws generalizing s ws' with
  | nil =>
    cases ws' with
    | nil => exact ⟨rfl, by simpa using h.eq.symm.trans h'.eq⟩
    | cons w' ws' =>
      have he : gap = w'.chars ++ (ws'.flatMap chars ++ gap') := by
        simpa using h.eq.symm.trans h'.eq
      exact absurd he (hblank (h'.proper w' List.mem_cons_self) h.blank)
  | cons w ws ih =>
    have hw := h.proper w List.mem_cons_self
    cases ws' with
    | nil =>
      have he : gap' = w.chars ++ (ws.flatMap chars ++ gap) := by
        simpa using h'.eq.symm.trans h.eq
      exact absurd he (hblank hw h'.blank)
    | cons w' ws' =>
      have he : w.chars ++ (ws.flatMap chars ++ gap) = w'.chars ++ (ws'.flatMap chars ++ gap') := by
        simpa using h.eq.symm.trans h'.eq
      obtain ⟨rfl, hrest⟩ := hw.chars_append_inj (h'.proper w' List.mem_cons_self) he
      obtain ⟨rfl, hgap⟩ := ih ⟨rfl, fun x hx => h.proper x (List.mem_cons_of_mem w hx), h.blank⟩
        ⟨hrest, fun x hx => h'.proper x (List.mem_cons_of_mem w hx), h'.blank⟩
      exact ⟨rfl, hgap⟩

namespace Spec

/-- The specification that written blocks describe. -/
def ofWritten (ws : List WrittenBlock) : Spec where
  bindings := (ws.filter (·.kind = .binding)).flatMap (·.columns)
  rows := ((ws.filter (·.kind = .row)).map (·.columns)).filter (· ≠ [])

/-- The program makes the same specification of the blocks that it reads. -/
theorem ofBlocks_map_block (ws : List WrittenBlock) : ofBlocks (ws.map block) = ofWritten ws := by
  simp only [ofBlocks, ofWritten, List.filter_map, List.flatMap_map, List.map_map]
  rfl

/-- What is written properly is read as it is written. -/
theorem parse_of_isWritten {text : String} {ws : List WrittenBlock} {gap : List Char}
    (h : IsWritten text.toList ws gap) (hread : ∀ w ∈ ws, w.IsRead) :
    parse text = .ok (ofWritten ws) := by
  have hblocks := blocks_flatMap_append (fun w hw => ⟨h.proper w hw, hread w hw⟩) text.toList gap
  rw [← h.eq, blocks_of_blank (skipBlanks_eq_nil h.blank)] at hblocks
  rw [parse, hblocks, ← ofBlocks_map_block]
  simp [Except.map, bind, Except.bind]

/-- What offends behind proper blocks is refused for this reason. -/
theorem parse_of_offends {text : String} {ws : List WrittenBlock} {gap r : List Char} {e : Error}
    (h : text.toList = ws.flatMap chars ++ gap ++ r) (hws : ∀ w ∈ ws, w.Proper ∧ w.IsRead)
    (hgap : ∀ c ∈ gap, isBlank c = true)
    (he : Offends (utf8Size (ws.flatMap chars ++ gap)) r e) : parse text = .error e := by
  have hblocks := blocks_flatMap_append hws text.toList (gap ++ r)
  rw [← List.append_assoc, ← h, he.blocks_eq h hgap] at hblocks
  rw [parse, hblocks]
  rfl

/-- A text that is read consists of blocks of columns. -/
theorem exists_isWritten {text : String} {spec : Spec} (h : parse text = .ok spec) :
    ∃ ws gap, IsWritten text.toList ws gap ∧ (∀ w ∈ ws, w.IsRead) ∧ spec = ofWritten ws := by
  obtain ⟨ws, gap, r, htext, hws, hgap, hend⟩ := exists_written 0 text.toList
  rw [Nat.zero_add] at hend
  -- the text is at its end, or it offends and is refused
  rcases hend with rfl | ⟨e, he⟩
  · have hw : IsWritten text.toList ws gap :=
      ⟨by rw [htext, List.append_nil], fun w hw => (hws w hw).1, hgap⟩
    have hread := fun w hw => (hws w hw).2
    rw [parse_of_isWritten hw hread] at h
    exact ⟨ws, gap, hw, hread, (Except.ok.inj h).symm⟩
  · rw [parse_of_offends htext hws hgap he] at h
    cases h

/-- **The grammar.**  A text is read if and only if it consists of blocks of columns with blanks
between them, in the one way in which it can.  The specification has the columns of all binding
blocks and those of each row block that has any.  Otherwise the first block from the left that
offends is reported, with the number of bytes in front of it. -/
theorem parse_iff_written (text : String) :
    (∀ spec, parse text = .ok spec ↔
      ∃ ws gap, IsWritten text.toList ws gap ∧ (∀ w ∈ ws, w.IsRead) ∧ spec = ofWritten ws) ∧
    (∀ ws gap ws' gap', IsWritten text.toList ws gap → IsWritten text.toList ws' gap' →
      ws = ws' ∧ gap = gap') ∧
    (∀ e, parse text = .error e ↔
      ∃ (ws : List WrittenBlock) (gap r : List Char), text.toList = ws.flatMap chars ++ gap ++ r ∧
        (∀ w ∈ ws, w.Proper ∧ w.IsRead) ∧ (∀ c ∈ gap, isBlank c = true) ∧
        Offends (String.ofList (ws.flatMap chars ++ gap)).utf8ByteSize r e) := by
  simp only [utf8ByteSize_ofList]
  -- every text is written as blocks or offends, and either settles what is read
  obtain ⟨ws, gap, r, htext, hws, hgap, hend⟩ := exists_written 0 text.toList
  rw [Nat.zero_add] at hend
  refine ⟨fun spec => ⟨exists_isWritten, ?_⟩, fun _ _ _ _ h h' => h.unique h',
    fun e => ⟨fun herror => ?_, ?_⟩⟩
  · rintro ⟨ws, gap, hw, hread, rfl⟩
    exact parse_of_isWritten hw hread
  · rcases hend with rfl | ⟨e', he⟩
    · have hw : IsWritten text.toList ws gap :=
        ⟨by rw [htext, List.append_nil], fun w hw => (hws w hw).1, hgap⟩
      rw [parse_of_isWritten hw fun w hw => (hws w hw).2] at herror
      cases herror
    · rw [parse_of_offends htext hws hgap he] at herror
      cases herror
      exact ⟨ws, gap, r, htext, hws, hgap, he⟩
  · rintro ⟨ws, gap, r, htext, hws, hgap, he⟩
    exact parse_of_offends htext hws hgap he

/-- Behind a wide blank, a row and a binding, a third `>` stands outside of all blocks. -/
theorem parse_iff_written_stray :
    ∃ (ws : List WrittenBlock) (gap r : List Char),
      "\u3000\x7b@a&&&$2\x7d<<$1>>>".toList = ws.flatMap chars ++ gap ++ r ∧
        (∀ w ∈ ws, w.Proper ∧ w.IsRead) ∧ (∀ c ∈ gap, isBlank c = true) ∧
        Offends (String.ofList (ws.flatMap chars ++ gap)).utf8ByteSize r
          (.unexpectedText ">" 18) :=
  ((parse_iff_written _).2.2 _).1 (by decide +kernel)

end Spec

end NetPlot.Label
