/-
  Sheets: entries at the top, and sections of entries.

  A sheet is written with a line for each entry, a header in front of each section and idle lines
  around them.  Read back, its entries are in the table where they were written
  (`foldlM_lines`), so a text of its lines is read as the sheet (`parse?_sheet`).
-/
import NetPlot.Proofs.Toml.Lines

namespace NetPlot.Toml

/-- Entries of one table, with plain values. -/
abbrev Entry := String × Plain

/-- Entries at the top behind some remarks, and sections. -/
structure Sheet where
  remarks : Nat
  top : List Entry
  sections : List (String × List Entry)

/-- The lines of entries. -/
def entryLines (es : List Entry) : List Line := es.map fun e => .entry e.1 e.2

/-- The entries while they are read. -/
def leaves (es : List Entry) : Fields := es.map fun e => (e.1, .leaf e.2.value)

/-- The entries of a table. -/
def values (es : List Entry) : List (String × Value) :=
  sortEntries (es.map fun e => (e.1, e.2.value))

namespace Sheet

/-- The lines of a sheet; an idle line is in front of each section. -/
def lines (sheet : Sheet) : List Line :=
  List.replicate sheet.remarks .idle ++ (entryLines sheet.top ++
    sheet.sections.flatMap fun x => .idle :: .header x.1 :: entryLines x.2)

/-- The sections while they are read. -/
def tables (sections : List (String × List Entry)) : Fields :=
  sections.map fun x => (x.1, .table .header (leaves x.2))

/-- What a sheet says. -/
def entries (sheet : Sheet) : List (String × Value) :=
  sortEntries (sheet.top.map (fun e => (e.1, e.2.value)) ++
    sheet.sections.map fun x => (x.1, .table (values x.2)))

/-- No key stands twice in one table. -/
structure Distinct (sheet : Sheet) : Prop where
  outer : (sheet.top.map Prod.fst ++ sheet.sections.map Prod.fst).Nodup
  inner : ∀ x ∈ sheet.sections, (x.2.map Prod.fst).Nodup

end Sheet

/-! ## Fresh keys

A key that is not there yet is put at the end, at the top as well as in a section, and the entries
so far stay as they are. -/

section

variable {es inner : Fields} {k name : String} {v : Plain}

/-- A fresh key is put behind all others. -/
theorem put_of_lookup_none (n : Node) (h : es.lookup k = none) : es.put k n = es ++ [(k, n)] := by
  induction es with
  | nil => rfl
  | cons e es ih =>
    obtain ⟨k', n'⟩ := e
    rw [List.lookup_cons] at h
    -- no entry so far has the key, so each is passed
    by_cases hk : k = k'
    · simp [hk] at h
    · have hne : (k == k') = false := beq_false_of_ne hk
      rw [hne] at h
      rw [Fields.put, if_neg (Ne.symm hk), ih h, List.cons_append]

/-- An entry with a fresh key is added, never refused. -/
theorem addHere_of_fresh (v : Value) (h : inner.lookup k = none) :
    Fields.addHere ⟨[], k⟩ v inner = some (inner ++ [(k, .leaf v)]) := by
  rw [Fields.addHere, Fields.alongPath, h, put_of_lookup_none _ h]
  rfl

/-- An entry at the top comes after the others. -/
theorem apply_entry_top (h : inner.lookup k = none) :
    Line.apply ⟨[], inner⟩ (.entry k v) = some ⟨[], inner ++ [(k, .leaf v.value)]⟩ := by
  rw [Line.apply, Fields.addEntry, Fields.alongPath, addHere_of_fresh v.value h]
  rfl

theorem lookup_concat (h : es.lookup name = none) (n : Node) :
    (es ++ [(name, n)]).lookup name = some n := by
  rw [← put_of_lookup_none n h, Fields.lookup_put]

/-- A key that stands last is replaced in its place. -/
theorem put_concat (h : es.lookup name = none) (n n' : Node) :
    Fields.put name n' (es ++ [(name, n)]) = es ++ [(name, n')] := by
  induction es with
  | nil => simp [Fields.put]
  | cons e es ih =>
    obtain ⟨k', m⟩ := e
    rw [List.lookup_cons] at h
    by_cases hk : name = k'
    · simp [hk] at h
    · have hne : (name == k') = false := beq_false_of_ne hk
      rw [hne] at h
      rw [List.cons_append, Fields.put, if_neg (Ne.symm hk), ih h, List.cons_append]

/-- An entry of a section comes after the others there. -/
theorem apply_entry_section (hname : es.lookup name = none) (h : inner.lookup k = none) :
    Line.apply ⟨[name], es ++ [(name, .table .header inner)]⟩ (.entry k v) =
      some ⟨[name], es ++ [(name, .table .header (inner ++ [(k, .leaf v.value)]))]⟩ := by
  rw [Line.apply, Fields.addEntry, Fields.alongPath, lookup_concat hname]
  simp only [Bool.false_eq_true, false_and, if_false, Fields.alongPath]
  rw [addHere_of_fresh v.value h, Option.map_some, put_concat hname]
  rfl

/-- A header opens a section. -/
theorem apply_header (header : List String) (h : es.lookup name = none) :
    Line.apply ⟨header, es⟩ (.header name) = some ⟨[name], es ++ [(name, .table .header [])]⟩ := by
  rw [Line.apply, Fields.openTable, Fields.alongPath]
  simp only [h]
  rw [put_of_lookup_none _ h]
  rfl

theorem lookup_eq_none_of_not_mem (h : k ∉ es.map Prod.fst) : es.lookup k = none := by
  rw [List.lookup_eq_none_iff]
  intro e he
  exact bne_iff_ne.2 fun heq => h (heq ▸ List.mem_map_of_mem he)

end

/-! ## Reading

The lines are gone through from the first to the last, with the table read so far.  Its last entry
is the only one that a line may still add to. -/

theorem map_fst_leaves (es : List Entry) : (leaves es).map Prod.fst = es.map Prod.fst := by
  rw [leaves, List.map_map]
  rfl

/-- Entries come one after the other, wherever they are put. -/
theorem foldlM_entryLines (place : Fields → Reading)
    (hplace : ∀ inner k v, inner.lookup k = none →
      Line.apply (place inner) (.entry k v) = some (place (inner ++ [(k, .leaf v.value)])))
    (inner : Fields) {es : List Entry} (h : (inner.map Prod.fst ++ es.map Prod.fst).Nodup) :
    (entryLines es).foldlM Line.apply (place inner) = some (place (inner ++ leaves es)) := by
  induction es generalizing inner with
  | nil => simp [entryLines, leaves]
  | cons e es ih =>
    obtain ⟨k, v⟩ := e
    -- the keys are apart, so no line meets an entry that is there
    have hfresh : k ∉ inner.map Prod.fst := fun hk =>
      (List.nodup_append.1 h).2.2 k hk k List.mem_cons_self rfl
    have hnodup : ((inner ++ [(k, Node.leaf v.value)]).map Prod.fst ++ es.map Prod.fst).Nodup := by
      rw [List.map_append, List.append_assoc]
      exact h
    have hline := hplace inner k v (lookup_eq_none_of_not_mem hfresh)
    calc (entryLines ((k, v) :: es)).foldlM Line.apply (place inner)
        = (Line.apply (place inner) (.entry k v)).bind
            ((entryLines es).foldlM Line.apply) := rfl
      _ = some (place (inner ++ [(k, .leaf v.value)] ++ leaves es)) := by
          rw [hline, Option.bind_some, ih _ hnodup]
      _ = some (place (inner ++ leaves ((k, v) :: es))) := by
          rw [List.append_assoc]
          rfl

/-- A section comes after all that was read before. -/
theorem foldlM_section {es : Fields} {name : String} {inner : List Entry} (header : List String)
    (hname : name ∉ es.map Prod.fst) (h : (inner.map Prod.fst).Nodup) :
    (Line.header name :: entryLines inner).foldlM Line.apply ⟨header, es⟩ =
      some ⟨[name], es ++ [(name, .table .header (leaves inner))]⟩ := by
  have hnone := lookup_eq_none_of_not_mem hname
  rw [List.foldlM_cons, apply_header header hnone]
  exact foldlM_entryLines (fun inner => ⟨[name], es ++ [(name, .table .header inner)]⟩)
    (fun _ _ _ => apply_entry_section hnone) [] h

/-- Section by section, by induction: each is put at the end, its name being fresh, and its entries
into it. -/
theorem foldlM_sections {sections : List (String × List Entry)} {es : Fields}
    (header : List String)
    (houter : (es.map Prod.fst ++ sections.map Prod.fst).Nodup)
    (hinner : ∀ x ∈ sections, (x.2.map Prod.fst).Nodup) :
    ((sections.flatMap fun x => .idle :: .header x.1 :: entryLines x.2).foldlM Line.apply
      ⟨header, es⟩).map (·.fields) = some (es ++ Sheet.tables sections) := by
  induction sections generalizing header es with
  | nil => simp [Sheet.tables]
  | cons x sections ih =>
    obtain ⟨name, inner⟩ := x
    obtain ⟨hx, hinner⟩ := List.forall_mem_cons.1 hinner
    -- the section is new, and what it adds leaves the names of the later ones apart
    have hfresh : name ∉ es.map Prod.fst := fun hname =>
      (List.nodup_append.1 houter).2.2 name hname name List.mem_cons_self rfl
    have hnodup : ((es ++ [(name, Node.table .header (leaves inner))]).map Prod.fst ++
        sections.map Prod.fst).Nodup := by
      rw [List.map_append, List.append_assoc]
      exact houter
    calc ((((name, inner) :: sections).flatMap fun x =>
            .idle :: .header x.1 :: entryLines x.2).foldlM Line.apply ⟨header, es⟩).map (·.fields)
        = (((Line.header name :: entryLines inner) ++ sections.flatMap fun x =>
            .idle :: .header x.1 :: entryLines x.2).foldlM Line.apply ⟨header, es⟩).map
              (·.fields) := rfl
      _ = some (es ++ [(name, .table .header (leaves inner))] ++ Sheet.tables sections) := by
          rw [List.foldlM_append, foldlM_section header hfresh hx]
          exact ih [name] hnodup hinner
      _ = some (es ++ Sheet.tables ((name, inner) :: sections)) := by
          rw [List.append_assoc]
          rfl

theorem foldlM_idle (n : Nat) (x : Reading) :
    (List.replicate n Line.idle).foldlM Line.apply x = some x := by
  induction n with
  | zero => rfl
  | succ n ih => exact ih

/-- The lines of a sheet say what the sheet says. -/
theorem foldlM_lines {sheet : Sheet} (h : sheet.Distinct) :
    (sheet.lines.foldlM Line.apply ⟨[], []⟩).map (·.fields) =
      some (leaves sheet.top ++ Sheet.tables sheet.sections) := by
  obtain ⟨htop, -, -⟩ := List.nodup_append.1 h.outer
  have houter := h.outer
  rw [← map_fst_leaves] at houter
  rw [Sheet.lines, List.foldlM_append, foldlM_idle]
  change (((entryLines sheet.top ++ _).foldlM Line.apply ⟨[], []⟩).map _) = _
  rw [List.foldlM_append, foldlM_entryLines (fun inner => ⟨[], inner⟩)
    (fun _ _ _ => apply_entry_top) [] htop]
  exact foldlM_sections [] houter h.inner

theorem freezeEntries_eq_map (es : Fields) :
    freezeEntries es = es.map fun e => (e.1, e.2.freeze) := by
  induction es with
  | nil => rw [freezeEntries, List.map_nil]
  | cons e es ih => rw [freezeEntries, ih, List.map_cons]

/-- What has been read of a sheet is what the sheet says. -/
theorem freeze_sheet (sheet : Sheet) :
    Fields.freeze (leaves sheet.top ++ Sheet.tables sheet.sections) = sheet.entries := by
  have hleaves : ∀ es : List Entry,
      (leaves es).map (fun e => (e.1, e.2.freeze)) = es.map fun e => (e.1, e.2.value) := by
    intro es
    rw [leaves, List.map_map]
    refine List.map_congr_left fun e _ => ?_
    simp [Node.freeze]
  rw [Fields.freeze, freezeEntries_eq_map, List.map_append, hleaves, Sheet.entries, Sheet.tables,
    List.map_map]
  congr 2
  refine List.map_congr_left fun x _ => ?_
  simp [Node.freeze, freezeEntries_eq_map, hleaves, values]

/-- A text of the lines of a sheet is read as the sheet. -/
theorem parse?_sheet {sheet : Sheet} {text : List String} (hkeys : sheet.Distinct)
    (hlength : sheet.lines.length = text.length)
    (hlines : ∀ line ∈ sheet.lines.zip text, line.1.WellFormed ∧ line.1.IsWritten line.2)
    (hmark : (text.flatMap fun s => s.toList ++ ['\n']).head? ≠ some '\ufeff') :
    parse? (String.join (text.map (· ++ "\n"))) = some sheet.entries := by
  have htext : (String.join (text.map (· ++ "\n"))).toList =
      text.flatMap fun s => s.toList ++ ['\n'] := by
    simp [String.toList_join, List.flatMap_map]
  have hzip : (text.flatMap fun s => s.toList ++ ['\n']) =
      (sheet.lines.zip text).flatMap fun line => line.2.toList ++ ['\n'] := by
    rw [← List.flatMap_map (f := Prod.snd) (g := fun s : String => s.toList ++ ['\n']),
      List.map_snd_zip (Nat.le_of_eq hlength.symm)]
  rw [parse?, htext, if_neg hmark, hzip, statements?_lines hlines,
    List.map_fst_zip (Nat.le_of_eq hlength), foldlM_lines hkeys, Option.map_some, freeze_sheet]

end NetPlot.Toml
