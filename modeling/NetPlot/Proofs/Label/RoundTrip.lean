/-
  Specifications read back from their canonical text.

  1. **Columns** — a column that was read `Fits` the block it stood in: written out it is read
     back as itself, it is trimmed and not empty, and it holds neither `&&` nor the mark that
     closes the block (`fits_of_columns`).  Columns that fit are the columns of the body that
     they are joined to (`columns_body`).

  2. **Blocks** — a block of columns that fit is read back in front of any text (`blocks_joined`).

  3. **Specifications** — reading gathers the bindings into one block and drops empty rows, and
     what it gives is read back from its canonical text (`parse_display_of_parse`).

  The canonical text is a normal form: writing what was read from it gives the same text again. This
  is part of what makes a configuration valid.
-/
import NetPlot.Label.Spec
import NetPlot.Proofs.Answer
import NetPlot.Proofs.Label.Template

namespace NetPlot.Label

open NetPlot.Text

/-! ## Columns

`Fits` collects what the reader makes sure of without saying so.  It is what the writer needs: a
column that fits is found between its separators again, and trimming gives it back. -/

/-- A column that can stand in a block of the kind, between separators and blanks. -/
structure Fits (kind : BlockKind) (t : Template) : Prop where
  reads : column t.display = .ok t
  ne_nil : t.display.toList ≠ []
  trimmed : Trimmed t.display.toList
  unparted : ¬ ['&', '&'] <:+: t.display.toList
  unclosed : ¬ kind.closing <:+: t.display.toList

/-- Whichever way a column is accepted, it is the template of its text. -/
theorem column_eq_ok {text : String} {t : Template} (h : column text = .ok t) :
    t = Template.parse text := by
  simp only [column] at h
  split at h
  · cases h; rfl
  · split at h
    · cases h; rfl
    · cases h

/-- A column is read back from the text that it is written as. -/
theorem column_display {text : String} {t : Template} (h : column text = .ok t) :
    column t.display = .ok t := by
  obtain rfl := column_eq_ok h
  by_cases hr : (Template.parse text).hasReferences = true
  · simp only [column, Template.parse_display_parse, hr, if_true]
  · rw [Template.display_parse_of_not_hasReferences (Bool.eq_false_iff.2 hr), h]

theorem BlockKind.closing_ne_nil (kind : BlockKind) : kind.closing ≠ [] := by
  cases kind <;> exact List.cons_ne_nil _ _

/-- A trimmed text without the marks around it is read as a column that fits. -/
theorem fits_of_column {kind : BlockKind} {text : String} {t : Template}
    (h : column text = .ok t) (hne : text.toList ≠ []) (ht : Trimmed text.toList)
    (hp : ¬ ['&', '&'] <:+: text.toList) (hc : ¬ kind.closing <:+: text.toList) :
    Fits kind t := by
  -- a column is written as its text is, and writing changes neither ends nor marks
  have hwritten : t.display.toList = Segment.written text.toList := by
    rw [column_eq_ok h, Template.toList_display_parse]
  refine ⟨column_display h, ?_, ?_, ?_, ?_⟩ <;> rw [hwritten]
  · rw [ne_eq, ← List.head?_eq_none_iff, Segment.head?_written, List.head?_eq_none_iff]
    exact hne
  · exact Segment.trimmed_written ht
  · exact fun hi => hp (Segment.infix_of_infix_written (List.cons_ne_nil _ _)
      (forall_mem_of_all (by decide)) hi)
  · have hplain : ∀ c ∈ kind.closing, c ≠ '$' ∧ c.isDigit = false :=
      forall_mem_of_all (by cases kind <;> decide)
    exact fun hi => hc (Segment.infix_of_infix_written kind.closing_ne_nil hplain hi)

/-- The texts of the columns are the parts of the body, trimmed and not empty. -/
theorem mem_columnTexts {body : List Char} {text : String} (h : text ∈ columnTexts body) :
    text.toList ≠ [] ∧ ∃ p ∈ pieces '&' ['&'] body, text.toList = trimChars p := by
  simp only [columnTexts, List.mem_map, List.mem_filter, decide_eq_true_eq] at h
  obtain ⟨cs, ⟨⟨p, hp, rfl⟩, hne⟩, rfl⟩ := h
  rw [String.toList_ofList]
  exact ⟨hne, p, hp, rfl⟩

/-- The columns of a block fit into it. -/
theorem fits_of_columns {kind : BlockKind} {body : List Char} {cols : List Template}
    (h : columns body = .ok cols) (hc : ¬ kind.closing <:+: body) : ∀ t ∈ cols, Fits kind t := by
  intro t ht
  obtain ⟨text, htext, hcol⟩ := Answer.exists_of_mem_mapM h t ht
  obtain ⟨hne, p, hp, hp'⟩ := mem_columnTexts htext
  refine fits_of_column hcol hne ?_ ?_ ?_ <;> rw [hp']
  · exact trimmed_trimChars p
  · exact fun hi => not_infix_of_mem_pieces hp (hi.trans (isInfix_trimChars p))
  · exact fun hi => hc (hi.trans ((isInfix_trimChars p).trans (infix_of_mem_pieces hp)))

/-- The columns of a body with the separators between them. -/
def joinColumns (cols : List Template) : List Char := (Spec.displayColumns cols).toList

theorem joinColumns_nil : joinColumns [] = [] := rfl

theorem joinColumns_singleton (t : Template) : joinColumns [t] = t.display.toList := rfl

/-- Between two columns stands a separator with a blank on each side. -/
theorem joinColumns_cons_cons (t u : Template) (cols : List Template) :
    joinColumns (t :: u :: cols) =
      t.display.toList ++ ' ' :: '&' :: '&' :: ' ' :: joinColumns (u :: cols) := by
  simp [joinColumns, Spec.displayColumns, String.toList_intercalate]

/-- No mark of the block is between the columns either. -/
theorem not_closing_infix_join {kind : BlockKind} {cols : List Template}
    (h : ∀ t ∈ cols, Fits kind t) : ¬ kind.closing <:+: joinColumns cols := by
  have hsep : ' ' ∉ kind.closing ∧ '&' ∉ kind.closing := by cases kind <;> decide
  have hempty : ¬ kind.closing <:+: [] := fun hi => kind.closing_ne_nil (List.infix_nil.1 hi)
  induction cols with
  | nil => exact hempty
  | cons t cols ih =>
    have ht := (h t List.mem_cons_self).unclosed
    cases cols with
    | nil => exact ht
    | cons u cols =>
      have hrest := ih fun v hv => h v (List.mem_cons_of_mem t hv)
      rw [joinColumns_cons_cons]
      intro hi
      -- the closing holds no blank, so it stands before the separator or behind it, never across
      rcases infix_append_cons hsep.1 hi with hi | hi
      · exact ht hi
      refine hrest (infix_of_infix_append (s := ['&', '&', ' ']) kind.closing_ne_nil ?_ hi)
      simp [hsep]

/-- A blank behind a column keeps it apart from a separator. -/
theorem not_parting_infix_spaced {kind : BlockKind} {t : Template} (h : Fits kind t)
    {r : List Char} (hr : ¬ ['&', '&'] <:+: r) :
    ¬ ['&', '&'] <:+: ' ' :: t.display.toList ++ ' ' :: r := fun hi => by
  rcases infix_append_cons (by decide) hi with hi | hi
  · exact h.unparted (infix_of_infix_append (s := [' ']) (List.cons_ne_nil _ _)
      (forall_mem_of_all (by decide)) hi)
  · exact hr hi

/-- Cut at the separators, the body falls into its columns, each with its blanks: the induction is
on the columns, and the blank in front of a separator shows that none begins earlier. -/
theorem pieces_join {kind : BlockKind} {t : Template} {cols : List Template}
    (h : ∀ u ∈ t :: cols, Fits kind u) :
    pieces '&' ['&'] (' ' :: joinColumns (t :: cols) ++ [' ']) =
      (t :: cols).map fun u => ' ' :: u.display.toList ++ [' '] := by
  induction cols generalizing t with
  | nil =>
    rw [joinColumns_singleton]
    exact pieces_of_not_infix (not_parting_infix_spaced (h t List.mem_cons_self) (by decide))
  | cons u cols ih =>
    have ht := not_parting_infix_spaced (h t List.mem_cons_self) (r := ['&']) (by decide)
    have hjoin : ' ' :: joinColumns (t :: u :: cols) ++ [' '] =
        (' ' :: t.display.toList ++ [' ']) ++ ['&', '&'] ++
          (' ' :: joinColumns (u :: cols) ++ [' ']) := by
      simp [joinColumns_cons_cons]
    rw [hjoin, pieces_append_mark (by simpa using ht),
      ih fun v hv => h v (List.mem_cons_of_mem t hv)]
    rfl

/-- The body of a block of columns that fit is split into their texts. -/
theorem columnTexts_join {kind : BlockKind} {cols : List Template}
    (h : ∀ t ∈ cols, Fits kind t) :
    columnTexts (' ' :: joinColumns cols ++ [' ']) = cols.map (·.display) := by
  -- the blanks that have been put around a column are the only ones to trim
  have htrim : cols.map (trimChars ∘ fun t : Template => ' ' :: t.display.toList ++ [' ']) =
      cols.map fun t => t.display.toList :=
    List.map_congr_left fun t ht => trimChars_spaced (h t ht).trimmed
  -- no column is empty, so none is dropped
  have hkept : (cols.map fun t => t.display.toList).filter (· ≠ []) =
      cols.map fun t => t.display.toList := by
    rw [List.filter_eq_self]
    intro cs hcs
    obtain ⟨t, ht, rfl⟩ := List.mem_map.1 hcs
    exact decide_eq_true (h t ht).ne_nil
  cases cols with
  | nil =>
    rw [columnTexts, joinColumns_nil, pieces_of_not_infix (by decide)]
    rfl
  | cons t cols =>
    rw [columnTexts, pieces_join h, List.map_map, htrim, hkept, List.map_map]
    exact List.map_congr_left fun u _ => String.ofList_toList

/-- The body of a block of columns that fit is read as these columns. -/
theorem columns_join {kind : BlockKind} {cols : List Template}
    (h : ∀ t ∈ cols, Fits kind t) : columns (' ' :: joinColumns cols ++ [' ']) = .ok cols := by
  rw [columns, columnTexts_join h]
  exact Answer.mapM_map_eq_ok fun t ht => (h t ht).reads

/-! ## Blocks

A block that is read back may have any text behind it, so the statement is about a block in front of
a text, and the induction over the blocks goes through. -/

/-- The text of a block. -/
def Block.chars (b : Block) : List Char :=
  b.kind.opening ++ (' ' :: joinColumns b.columns ++ [' ']) ++ b.kind.closing

/-- The opening mark is taken off, and the blank behind it stays. -/
theorem opened?_append (kind : BlockKind) (r : List Char) :
    opened? (kind.opening ++ ' ' :: r) = some (kind, ' ' :: r) := by
  cases kind <;> rfl

/-- A body without the closing mark ends at the one that is put behind it. -/
theorem cutAt_closing_spaced {kind : BlockKind} {body : List Char}
    (h : ¬ kind.closing <:+: body) (r : List Char) :
    cutAt kind.closing ((' ' :: body ++ [' ']) ++ kind.closing ++ r) =
      some (' ' :: body ++ [' '], r) := by
  refine (cutAt_eq_some_iff kind.closing_ne_nil).2 ⟨rfl, fun hi => ?_⟩
  have hspace : ' ' ∉ kind.closing := by cases kind <;> decide
  -- neither the blanks nor a part of the mark can complete one
  rw [List.append_assoc] at hi
  rcases infix_append_cons hspace hi with hi | hi
  · rcases infix_append_cons (s := []) hspace hi with hi | hi
    · exact kind.closing_ne_nil (List.infix_nil.1 hi)
    · exact h hi
  · have hle := hi.length_le
    cases kind <;> simp [BlockKind.closing] at hle

/-- The body of a block of columns that fit ends at its closing mark. -/
theorem cutAt_closing {kind : BlockKind} {cols : List Template} (h : ∀ t ∈ cols, Fits kind t)
    (r : List Char) :
    cutAt kind.closing ((' ' :: joinColumns cols ++ [' ']) ++ kind.closing ++ r) =
      some (' ' :: joinColumns cols ++ [' '], r) :=
  cutAt_closing_spaced (not_closing_infix_join h) r

theorem blocks_of_blank {text s : List Char} (h : skipBlanks s = []) : blocks text s = .ok [] := by
  rw [blocks, if_pos h]

/-- One step of the reader: it opens a block, cuts its body out and goes on behind the mark. -/
theorem blocks_of_opened {text s body r r' : List Char} {kind : BlockKind}
    (ho : opened? (skipBlanks s) = some (kind, r)) (hc : cutAt kind.closing r = some (body, r')) :
    blocks text s = (do
      let cols ← columns body
      let more ← blocks text r'
      .ok (⟨kind, cols⟩ :: more)) := by
  have hne : skipBlanks s ≠ [] := by
    intro he
    rw [he] at ho
    cases ho
  rw [blocks, if_neg hne]
  split
  next hn => cases ho.symm.trans hn
  next kind' r'' hs =>
    obtain ⟨rfl, rfl⟩ : kind = kind' ∧ r = r'' := by simpa using ho.symm.trans hs
    split
    next hn => cases hc.symm.trans hn
    next hs' => cases hc.symm.trans hs'; rfl

/-- The columns of all blocks fit. -/
theorem fits_of_blocks {text s : List Char} {bs : List Block} (h : blocks text s = .ok bs) :
    ∀ b ∈ bs, ∀ t ∈ b.columns, Fits b.kind t := by
  fun_induction blocks text s generalizing bs with
  | case1 => cases h; simp
  | case2 => cases h
  | case3 => cases h
  | case4 s hs kind r ho body r' hc ih =>
    obtain ⟨cols, hcols, h⟩ := Answer.bind_eq_ok.1 h
    obtain ⟨more, hmore, h⟩ := Answer.bind_eq_ok.1 h
    cases h
    rintro b (_ | ⟨_, hb⟩)
    · exact fits_of_columns hcols (not_infix_of_cutAt kind.closing_ne_nil hc)
    · exact ih hmore b hb

/-- Blocks begin with their mark. -/
theorem skipBlanks_joined (bs : List Block) :
    skipBlanks ([' '].intercalate (bs.map Block.chars)) = [' '].intercalate (bs.map Block.chars) := by
  refine skipBlanks_of_head ?_
  cases bs with
  | nil => simp
  | cons b bs =>
    obtain ⟨kind, cols⟩ := b
    cases bs <;> cases kind <;> simp [Block.chars, BlockKind.opening] <;> rfl

/-- The blocks behind the first one, blanks in front aside. -/
theorem exists_joined_tail (b : Block) (bs : List Block) :
    ∃ tail, [' '].intercalate ((b :: bs).map Block.chars) = b.chars ++ tail ∧
      skipBlanks tail = [' '].intercalate (bs.map Block.chars) := by
  cases bs with
  | nil => exact ⟨[], by simp, rfl⟩
  | cons c bs =>
    refine ⟨' ' :: [' '].intercalate ((c :: bs).map Block.chars), by simp, ?_⟩
    rw [skipBlanks_space, skipBlanks_joined]

/-- Blocks with a blank between them are read back. -/
theorem blocks_joined {text s : List Char} {bs : List Block}
    (h : ∀ b ∈ bs, ∀ t ∈ b.columns, Fits b.kind t)
    (hs : skipBlanks s = [' '].intercalate (bs.map Block.chars)) : blocks text s = .ok bs := by
  induction bs generalizing s with
  | nil => exact blocks_of_blank hs
  | cons b bs ih =>
    have hb := h b List.mem_cons_self
    obtain ⟨tail, hjoin, htail⟩ := exists_joined_tail b bs
    have ho : opened? (skipBlanks s) =
        some (b.kind, (' ' :: joinColumns b.columns ++ [' ']) ++ b.kind.closing ++ tail) := by
      rw [hs, hjoin]
      simpa [Block.chars] using
        opened?_append b.kind (joinColumns b.columns ++ ' ' :: (b.kind.closing ++ tail))
    rw [blocks_of_opened ho (cutAt_closing hb tail), columns_join hb,
      ih (fun c hc => h c (List.mem_cons_of_mem b hc)) htail]
    rfl

/-! ## Specifications

Reading forgets in which block a binding stood and that a row was empty.  Both are forgotten for
good, so the canonical text has nothing left to forget, and reading it gives the same again. -/

namespace Spec

/-- The blocks that a specification is written as. -/
def toBlocks (spec : Spec) : List Block :=
  (if spec.bindings = [] then [] else [⟨.binding, spec.bindings⟩]) ++
    spec.rows.map fun row => ⟨.row, row⟩

/-- A specification is displayed as its blocks with a blank between them. -/
theorem toList_display (spec : Spec) :
    spec.display.toList = [' '].intercalate (spec.toBlocks.map Block.chars) := by
  rw [display, String.toList_intercalate, toBlocks, List.map_append, List.map_append]
  congr 2
  · split <;> simp [Block.chars, joinColumns, BlockKind.opening, BlockKind.closing]
  · simp [Block.chars, joinColumns, BlockKind.opening, BlockKind.closing, Function.comp_def]

/-- What reading gathers is gathered again from the blocks it is written as. -/
theorem ofBlocks_toBlocks {spec : Spec} (h : ∀ row ∈ spec.rows, row ≠ []) :
    ofBlocks spec.toBlocks = spec := by
  obtain ⟨bindings, rows⟩ := spec
  have hrows : rows.filter (· ≠ []) = rows :=
    List.filter_eq_self.2 fun row hrow => decide_eq_true (h row hrow)
  by_cases hb : bindings = []
  · simpa [ofBlocks, toBlocks, hb, List.filter_map, Function.comp_def] using hrows
  · simpa [ofBlocks, toBlocks, hb, List.filter_map, Function.comp_def] using hrows

/-- A specification read from a text has no empty row, and is written as blocks of columns that
fit. -/
theorem fits_of_parse {text : String} {spec : Spec} (h : parse text = .ok spec) :
    (∀ row ∈ spec.rows, row ≠ []) ∧ ∀ b ∈ spec.toBlocks, ∀ t ∈ b.columns, Fits b.kind t := by
  obtain ⟨bs, hbs, he⟩ := Answer.bind_eq_ok.1 h
  cases he
  have hfit := fits_of_blocks hbs
  refine ⟨fun row hrow => of_decide_eq_true (List.mem_filter.1 hrow).2, fun b hb => ?_⟩
  rcases List.mem_append.1 hb with hb | hb
  · -- the bindings of all blocks stand in one
    obtain rfl : b = ⟨.binding, (ofBlocks bs).bindings⟩ := by
      split at hb
      · exact absurd hb List.not_mem_nil
      · exact List.mem_singleton.1 hb
    intro t ht
    obtain ⟨c, hc, ht⟩ := List.mem_flatMap.1 ht
    obtain ⟨hc, hk⟩ := List.mem_filter.1 hc
    exact of_decide_eq_true hk ▸ hfit c hc t ht
  -- a row keeps the columns of the block that it was read from
  · obtain ⟨row, hrow, rfl⟩ := List.mem_map.1 hb
    obtain ⟨c, hc, rfl⟩ := List.mem_map.1 (List.mem_filter.1 hrow).1
    obtain ⟨hc, hk⟩ := List.mem_filter.1 hc
    exact fun t ht => of_decide_eq_true hk ▸ hfit c hc t ht

/-- A specification of columns that fit is read from its canonical text. -/
theorem parse_display_of_fits {spec : Spec} (hrows : ∀ row ∈ spec.rows, row ≠ [])
    (hfit : ∀ b ∈ spec.toBlocks, ∀ t ∈ b.columns, Fits b.kind t) :
    parse spec.display = .ok spec := by
  have hskip : skipBlanks spec.display.toList =
      [' '].intercalate (spec.toBlocks.map Block.chars) := by
    rw [toList_display, skipBlanks_joined]
  rw [parse, blocks_joined hfit hskip]
  exact congrArg Except.ok (ofBlocks_toBlocks hrows)

/-- A specification that was read from a text is read again from its canonical text, so writing it
once more gives the same text. -/
theorem parse_display_of_parse {text : String} {spec : Spec} (h : parse text = .ok spec) :
    parse spec.display = .ok spec ∧ (parse spec.display).map display = .ok spec.display := by
  obtain ⟨hrows, hfit⟩ := fits_of_parse h
  have hread : parse spec.display = .ok spec := parse_display_of_fits hrows hfit
  exact ⟨hread, by rw [hread]; rfl⟩

/-- Bindings and a row with separators, closing marks and `$` in them. -/
def sample : Spec where
  bindings := [⟨[.reference 3, .text ['>']]⟩, ⟨[.text ['\'', '\x7d', '\'']]⟩]
  rows := [[⟨[.text ['\'', 'a', '\'']]⟩, ⟨[.reference 1, .text ['&']]⟩,
    ⟨[.text ['&', ' ', '$', '0'], .reference 2]⟩]]

/-- The blanks, the order of blocks and a leading zero change, and after that nothing does. -/
theorem parse_display_of_parse_sample :
    parse "\x7b'a'&&$01& &&& $0$2\x7d <<$3> >> \x7b \x7d<<'\x7d'>>" = .ok sample ∧
      sample.display = "<< $3> && '\x7d' >> \x7b 'a' && $1& && & $0$2 \x7d" ∧
      parse sample.display = .ok sample ∧
      (parse sample.display).map display = .ok sample.display := by
  have h : parse "\x7b'a'&&$01& &&& $0$2\x7d <<$3> >> \x7b \x7d<<'\x7d'>>" = .ok sample := by
    decide +kernel
  exact ⟨h, by decide +kernel, parse_display_of_parse h⟩

end Spec

end NetPlot.Label
