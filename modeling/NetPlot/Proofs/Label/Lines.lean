/-
  Labels read back from their lines.

  1. **Program** — `readLine` takes a line apart at ` : `, a blank line being a record without
     fields; `readLines` does so with every line of a text, and an empty text has none.

  2. **Marks** — a field that is shown holds neither a blank nor a line feed, so the fields of a
     record are the pieces of its line (`readLine_lineChars`), and the lines of records the pieces
     of their text (`pieces_linesOf`).

  3. **Ends** — the records of a label are those that are shown with empty ones behind them
     (`exists_shownLines`), and these are what is cut off when line feeds are (`rdropWhile_linesOf`).

  4. **Round trip** — a label is read back as the records that it shows (`readLines_pretty`), so it
     loses nothing else (`pretty_decodes`).
-/
import Mathlib.Data.List.DropRight
import NetPlot.Proofs.Label.Record

namespace NetPlot.Label

open NetPlot.Text

/-! ## Reading -/

/-- The fields of a line; a blank line has none. -/
def readLine (line : List Char) : List String :=
  if line = [] then [] else (pieces ' ' [':', ' '] line).map String.ofList

/-- The fields of all lines of a text; an empty text has no lines. -/
def readLines (text : String) : List (List String) :=
  if text = "" then [] else (pieces '\n' [] text.toList).map readLine

/-- Records as a text: a line for each, with ` : ` between its fields. -/
def linesOf (records : List (List String)) : String :=
  "\n".intercalate (records.map fun fields => " : ".intercalate fields)

/-! ## Marks

Fields are made of field characters, lines of fields and of ` : ` between them, texts of lines and
of line feeds.  Each mark has a character that the level inside lacks, so it is found where it was
put. -/

/-- A field as it is shown: not empty, and free of marks. -/
structure IsField (field : String) : Prop where
  ne_empty : field ≠ ""
  chars : ∀ c ∈ field.toList, isFieldChar c = true

/-- Sanitising leaves field characters only, and empty fields are not shown. -/
theorem isField_of_mem_shown {record : List String} {field : String} (h : field ∈ shown record) :
    IsField field := by
  obtain ⟨hmem, hne⟩ := List.mem_filter.mp h
  obtain ⟨raw, -, rfl⟩ := List.mem_map.mp hmem
  exact ⟨of_decide_eq_true hne, fun c hc => sanitize_chars hc⟩

theorem IsField.not_mem {field : String} (h : IsField field) {c : Char}
    (hc : isFieldChar c = false) : c ∉ field.toList := fun hmem => by
  cases (h.chars c hmem).symm.trans hc

/-- A line as characters. -/
def lineChars (fields : List String) : List Char :=
  [' ', ':', ' '].intercalate (fields.map String.toList)

theorem lineChars_eq (fields : List String) :
    lineChars fields = (" : ".intercalate fields).toList := by
  rw [String.toList_intercalate]
  rfl

/-- The text of records is their lines with line feeds between them. -/
theorem toList_linesOf (records : List (List String)) :
    (linesOf records).toList = ['\n'].intercalate (records.map lineChars) := by
  rw [linesOf, String.toList_intercalate, List.map_map]
  exact congrArg _ (List.map_congr_left fun fields _ => (lineChars_eq fields).symm)

section

variable {fields : List String} {records : List (List String)}

/-- The line of a record with fields is not blank, so it is not taken for a record without any. -/
theorem lineChars_ne_nil (h : ∀ f ∈ fields, IsField f) (hne : fields ≠ []) :
    lineChars fields ≠ [] := by
  obtain ⟨f, fields, rfl⟩ := List.exists_cons_of_ne_nil hne
  have hf : f.toList ≠ [] := fun he =>
    (h f List.mem_cons_self).ne_empty (String.toList_inj.mp he)
  cases fields <;> simp [lineChars, hf]

theorem newline_not_mem_lineChars (h : ∀ f ∈ fields, IsField f) : '\n' ∉ lineChars fields := by
  rw [lineChars_eq]
  refine fun hmem => forall_mem_intercalate (P := ('\n' ≠ ·)) (by simp) (fun f hf c hc he => ?_) _
    hmem rfl
  exact (h f hf).not_mem (c := '\n') rfl (he ▸ hc)

/-- A mark between two blanks does not begin inside of a text without blanks in front of it. -/
theorem not_mark_infix {field : List Char} (h : ' ' ∉ field) :
    ¬ [' ', ':', ' '] <:+: field ++ [' ', ':', ' '].dropLast := by
  intro hi
  have hcount := hi.sublist.count_le ' '
  rw [List.count_append, List.count_eq_zero_of_not_mem h] at hcount
  exact absurd hcount (by decide)

/-- The fields of a record are read back from its line. -/
theorem readLine_lineChars (h : ∀ f ∈ fields, IsField f) : readLine (lineChars fields) = fields := by
  by_cases hnil : fields = []
  · subst hnil
    rfl
  -- no field has a blank, so the mark occurs between fields only
  have hblank : ∀ s ∈ fields.map String.toList, ' ' ∉ s := by
    intro s hs
    obtain ⟨f, hf, rfl⟩ := List.mem_map.mp hs
    exact (h f hf).not_mem rfl
  have hpieces : pieces ' ' [':', ' '] (lineChars fields) = fields.map String.toList :=
    pieces_intercalate_mark (by simpa using hnil)
      (fun s hs hi => hblank s hs (hi.subset List.mem_cons_self))
      fun s hs => not_mark_infix (hblank s (List.dropLast_subset _ hs))
  rw [readLine, if_neg (lineChars_ne_nil h hnil), hpieces, List.map_map]
  simp [Function.comp_def]

/-- The lines of records are the pieces of their text. -/
theorem pieces_linesOf (h : ∀ fields ∈ records, ∀ f ∈ fields, IsField f) (hne : records ≠ []) :
    pieces '\n' [] (linesOf records).toList = records.map lineChars := by
  rw [toList_linesOf]
  refine pieces_intercalate (by simpa using hne) fun s hs => ?_
  obtain ⟨fields, hf, rfl⟩ := List.mem_map.mp hs
  exact newline_not_mem_lineChars (h fields hf)

/-- Cut at the line feeds and read line by line, the records are there again. -/
theorem map_readLine_pieces (h : ∀ fields ∈ records, ∀ f ∈ fields, IsField f)
    (hne : records ≠ []) : (pieces '\n' [] (linesOf records).toList).map readLine = records := by
  rw [pieces_linesOf h hne, List.map_map]
  exact (List.map_congr_left fun fields hf => readLine_lineChars (h fields hf)).trans
    (List.map_id records)

/-- An empty text would be read as a blank line. -/
theorem linesOf_ne_empty (h : ∀ fields ∈ records, ∀ f ∈ fields, IsField f) (hne : records ≠ [])
    (hlast : records.getLast? ≠ some []) : linesOf records ≠ "" := by
  intro he
  have hread := map_readLine_pieces h hne
  rw [he, pieces_of_not_infix (by decide)] at hread
  exact hlast (hread ▸ rfl)

/-! ## Ends

Cutting line feeds off the end of the text and leaving empty records out at the end of the list come
to the same, since an empty record adds a line feed and nothing else. -/

theorem rdropWhile_eq_self {α : Type} [DecidableEq α] {l : List α} {a : α}
    (h : l.getLast? ≠ some a) : l.rdropWhile (· = a) = l := by
  rw [List.rdropWhile_eq_self_iff]
  intro hne he
  exact h ((List.getLast?_eq_some_getLast hne).trans (congrArg some (of_decide_eq_true he)))

/-- Cutting an item off the end as often as it stands there leaves what does not end in it. -/
theorem rdropWhile_append_replicate {α : Type} [DecidableEq α] {l : List α} {a : α}
    (h : l.getLast? ≠ some a) (n : Nat) :
    (l ++ List.replicate n a).rdropWhile (· = a) = l := by
  induction n with
  | zero => rw [List.replicate_zero, List.append_nil, rdropWhile_eq_self h]
  | succ n ih =>
    rw [List.replicate_succ', ← List.append_assoc]
    exact (List.rdropWhile_concat_pos (· = a) _ a (decide_eq_true rfl)).trans ih

theorem linesOf_singleton (fields : List String) :
    (linesOf [fields]).toList = lineChars fields := by
  rw [toList_linesOf, List.map_singleton, List.intercalate_singleton]

/-- One more record puts a line feed and a line at the end. -/
theorem toList_linesOf_concat (hne : records ≠ []) (fields : List String) :
    (linesOf (records ++ [fields])).toList =
      (linesOf records).toList ++ '\n' :: lineChars fields := by
  rw [toList_linesOf, toList_linesOf, List.map_append, List.map_singleton]
  induction records with
  | nil => exact absurd rfl hne
  | cons first records ih =>
    cases records with
    | nil => simp
    | cons second records =>
      have ih := ih (List.cons_ne_nil second records)
      rw [List.map_cons, List.cons_append, List.intercalate_cons_of_ne_nil (by simp), ih,
        List.intercalate_cons_of_ne_nil (by simp)]
      simp only [List.append_assoc]

/-- A text does not end in a line feed if its last line is not blank. -/
theorem getLast?_linesOf (h : ∀ fields ∈ records, ∀ f ∈ fields, IsField f)
    (hlast : records.getLast? ≠ some []) : (linesOf records).toList.getLast? ≠ some '\n' := by
  cases records using List.reverseRecOn with
  | nil => exact nofun
  | append_singleton records fields =>
    have hfields := h fields (by simp)
    -- the last line has fields, and a field does not end in a line feed
    have hne : lineChars fields ≠ [] :=
      lineChars_ne_nil hfields fun he => hlast (by rw [he, List.getLast?_concat])
    have hnot : (lineChars fields).getLast? ≠ some '\n' := fun he =>
      newline_not_mem_lineChars hfields (List.mem_of_getLast? he)
    by_cases hnil : records = []
    · rwa [hnil, List.nil_append, linesOf_singleton]
    · rwa [toList_linesOf_concat hnil, List.getLast?_append_of_ne_nil _ (List.cons_ne_nil _ _),
        List.getLast?_cons_of_ne_nil hne]

/-- Empty records at the end are line feeds at the end. -/
theorem rdropWhile_linesOf (h : ∀ fields ∈ records, ∀ f ∈ fields, IsField f)
    (hlast : records.getLast? ≠ some []) (n : Nat) :
    (linesOf (records ++ List.replicate n [])).toList.rdropWhile (· = '\n') =
      (linesOf records).toList := by
  induction n with
  | zero =>
    rw [List.replicate_zero, List.append_nil, rdropWhile_eq_self (getLast?_linesOf h hlast)]
  | succ n ih =>
    rw [List.replicate_succ', ← List.append_assoc]
    -- one more empty record is one more line feed, but for the first line of all
    by_cases hnil : records ++ List.replicate n [] = []
    · obtain ⟨rfl, -⟩ := List.append_eq_nil_iff.mp hnil
      rw [hnil, List.nil_append, linesOf_singleton]
      rfl
    · rw [toList_linesOf_concat hnil, ← ih]
      exact List.rdropWhile_concat_pos _ _ _ (decide_eq_true rfl)

end

section

variable {rows : Rows} {records : List (List String)} {n : Nat}

theorem shownLines_eq (rows : Rows) :
    shownLines rows = (rows.flatten.map shown).rdropWhile (· = []) := rfl

/-- What is left out at the end of a label are empty records. -/
theorem exists_shownLines (rows : Rows) :
    ∃ n, rows.flatten.map shown = shownLines rows ++ List.replicate n [] := by
  have hempty : ∀ fields ∈ (rows.flatten.map shown).rtakeWhile (· = []), fields = [] :=
    fun fields hf => of_decide_eq_true
      (List.mem_rtakeWhile_imp (p := fun x => decide (x = [])) hf)
  refine ⟨((rows.flatten.map shown).rtakeWhile (· = [])).length, ?_⟩
  rw [← List.eq_replicate_iff.mpr ⟨rfl, hempty⟩, shownLines_eq, List.rdropWhile_append_rtakeWhile]

/-- The last record that is shown is not empty. -/
theorem getLast?_shownLines (rows : Rows) : (shownLines rows).getLast? ≠ some [] := by
  intro he
  have hne : shownLines rows ≠ [] := fun h => by
    rw [h] at he
    cases he
  rw [List.getLast?_eq_some_getLast hne, Option.some.injEq] at he
  exact List.rdropWhile_last_not _ _ hne (decide_eq_true he)

/-- Only one list of records can be what a label shows. -/
theorem shownLines_eq_of_append (h : rows.flatten.map shown = records ++ List.replicate n [])
    (hlast : records.getLast? ≠ some []) : shownLines rows = records := by
  rw [shownLines_eq, h, rdropWhile_append_replicate hlast]

theorem isField_of_mem_shownLines {fields : List String} (h : fields ∈ shownLines rows) :
    ∀ f ∈ fields, IsField f := by
  have hmem : fields ∈ rows.flatten.map shown := (List.rdropWhile_prefix _ _).subset h
  obtain ⟨record, -, rfl⟩ := List.mem_map.mp hmem
  exact fun f hf => isField_of_mem_shown hf

/-! ## Round trip

What a label shows is a list of records whose last one is not empty.  The text determines this list
and nothing more, so labels are written alike exactly if they show the same. -/

theorem pretty_eq (rows : Rows) : pretty rows = linesOf (shownLines rows) := rfl

/-- A label is read back as the records that it shows. -/
theorem readLines_pretty (rows : Rows) : readLines (pretty rows) = shownLines rows := by
  have hfields : ∀ fields ∈ shownLines rows, ∀ f ∈ fields, IsField f :=
    fun fields => isField_of_mem_shownLines
  rw [pretty_eq, readLines]
  by_cases hnil : shownLines rows = []
  · rw [hnil]
    rfl
  · rw [if_neg (linesOf_ne_empty hfields hnil (getLast?_shownLines rows)),
      map_readLine_pieces hfields hnil]

example : readLines (pretty [[["mealy", "s y"], ["+", ""]], [], [["", "plus"], []]]) =
    [["mealy", "sy"], [], ["plus"]] := by decide +kernel

/-- Labels are written alike if and only if they show the same records. -/
theorem pretty_eq_pretty_iff {rows' : Rows} :
    pretty rows' = pretty rows ↔ shownLines rows' = shownLines rows := by
  constructor
  · intro h
    rw [← readLines_pretty, h, readLines_pretty]
  · intro h
    rw [pretty_eq, h, pretty_eq]

/-- **Lines.**  Take the records of all rows, each as its sanitised fields without the empty ones, and
leave out the empty records at the end.  The text of a label does not end in a line feed, and it is
empty if no record is left.  Otherwise its pieces between line feeds are the lines of these records
one by one: a line is blank if the record is empty, and else its pieces between ` : ` are the fields.
It is what is left of the text of all records when the line feeds at its end are cut off.  So another
label has the same text if and only if it has the same records, empty ones at the end aside. -/
theorem pretty_decodes (rows : Rows) :
    ∃ (records : List (List String)) (n : Nat),
      rows.flatten.map (fun record => (record.map sanitize).filter (· ≠ "")) =
        records ++ List.replicate n [] ∧
      records.getLast? ≠ some [] ∧
      (pretty rows).toList.getLast? ≠ some '\n' ∧
      (records = [] → pretty rows = "") ∧
      (records ≠ [] → (pieces '\n' [] (pretty rows).toList).map readLine = records) ∧
      (pretty rows).toList =
        (linesOf (records ++ List.replicate n [])).toList.rdropWhile (· = '\n') ∧
      ∀ rows' : Rows, pretty rows' = pretty rows ↔
        ∃ n', rows'.flatten.map (fun record => (record.map sanitize).filter (· ≠ "")) =
          records ++ List.replicate n' [] := by
  -- all lines are the shown ones and, behind them, lines that have been trimmed away
  obtain ⟨n, hn⟩ := exists_shownLines rows
  have hlast := getLast?_shownLines rows
  have hfields : ∀ fields ∈ shownLines rows, ∀ f ∈ fields, IsField f :=
    fun fields => isField_of_mem_shownLines
  refine ⟨shownLines rows, n, hn, hlast, getLast?_linesOf hfields hlast, fun hnil => ?_,
    map_readLine_pieces hfields, (rdropWhile_linesOf hfields hlast n).symm, fun rows' => ?_⟩
  · rw [pretty_eq, hnil]
    rfl
  · rw [pretty_eq_pretty_iff]
    constructor
    · intro h
      obtain ⟨n', hn'⟩ := exists_shownLines rows'
      exact ⟨n', h ▸ hn'⟩
    · rintro ⟨n', hn'⟩
      exact shownLines_eq_of_append hn' hlast

end

end NetPlot.Label
