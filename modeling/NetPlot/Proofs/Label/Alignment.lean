/-
  Labels whose columns stay in line.

  1. **Columns** — a row of an evaluated label has as its `j`-th fields the values of its `j`-th
     column, and then empty ones (`hasColumn_evaluate`).

  2. **Rows** — with this for all columns, and as many records as the longest of them has values,
     columns and records are `Aligned`.  Zipping at least one column aligns (`aligned_zipLongest`).

  3. **Queries** — a column without references is the same text whatever is bound
     (`render_parse_of_not_refers`), so it is the query that was found when the specification was
     read, and only a column with a reference may turn out to be none (`aligned_evaluate`).
-/
import NetPlot.Proofs.Label.Grammar
import NetPlot.Proofs.Label.Inward

namespace NetPlot.Label

open NetPlot.Xml

/-! ## Columns

Columns are zipped over the length of the longest one.  A column is thus followed by empty fields in
its own place, whatever the other columns are. -/

/-- The `j`-th fields of records are some values, and then empty ones. -/
structure HasColumn (records : List (List String)) (j : Nat) (values : List String) : Prop where
  enough : values.length ≤ records.length
  field : ∀ (k : Nat) (record : List String), records[k]? = some record →
    record[j]? = some (values.getD k "")

/-- No column is longer than the longest one. -/
theorem length_le_longest {columns : List (List String)} {values : List String}
    (h : values ∈ columns) : values.length ≤ longest columns := by
  rw [longest]
  induction columns with
  | nil => cases h
  | cons column columns ih =>
    rw [List.map_cons, List.foldr_cons]
    rcases List.mem_cons.1 h with rfl | h
    · exact Nat.le_max_left ..
    · exact Nat.le_trans (ih h) (Nat.le_max_right ..)

/-- Zipping puts a column where it stands among the others, with empty texts once it has run out. -/
theorem hasColumn_zipLongest {columns : List (List String)} {j : Nat} {values : List String}
    (h : columns[j]? = some values) : HasColumn (zipLongest columns) j values where
  enough := by
    rw [length_zipLongest]
    exact length_le_longest (List.mem_of_getElem? h)
  field k record hk := by
    obtain ⟨hlt, rfl⟩ := List.getElem?_eq_some_iff.1 hk
    rw [getElem_zipLongest hlt, List.getElem?_map, h, Option.map_some]

/-- The values of a column are in the fields of its row. -/
theorem hasColumn_evaluate {spec : Spec} {c : Cursor} {i j : Nat} {row : List Template}
    {t : Template} {records : List (List String)} (hrow : spec.rows[i]? = some row)
    (hrecords : (spec.evaluate c)[i]? = some records) (ht : row[j]? = some t) :
    HasColumn records j (t.evaluate (spec.bound c) c) := by
  rw [Spec.evaluate, List.getElem?_map, hrow, Option.map_some, Option.some.injEq] at hrecords
  subst hrecords
  exact hasColumn_zipLongest (by rw [List.getElem?_map, ht, Option.map_some])

/-! ## Rows

`Aligned` puts together what holds of each column: it is the statement about a row as a whole, and
no column of it can be shifted against another. -/

/-- Columns and the records made of them: a record has a field for each column, there are as many
records as the longest column has values, and the `j`-th fields are the values of column `j` and
nothing but empty texts behind them. -/
structure Aligned (columns records : List (List String)) : Prop where
  width : ∀ record ∈ records, record.length = columns.length
  count : (columns.map List.length).max? = some records.length
  fields : ∀ (j : Nat) (values : List String), columns[j]? = some values →
    records.map (·[j]?) = (values ++ List.replicate (records.length - values.length) "").map some

/-- The fields in a place, read from the first record to the last. -/
theorem HasColumn.map_field {records : List (List String)} {j : Nat} {values : List String}
    (h : HasColumn records j values) :
    records.map (·[j]?) =
      (values ++ List.replicate (records.length - values.length) "").map some := by
  -- the values are no more than the records, so the filled list has as many
  have hlength : (values ++ List.replicate (records.length - values.length) "").length =
      records.length := by
    rw [List.length_append, List.length_replicate]
    exact Nat.add_sub_of_le h.enough
  refine List.ext_getElem (by rw [List.length_map, List.length_map, hlength]) fun k hk _ => ?_
  rw [List.length_map] at hk
  rw [List.getElem_map, List.getElem_map, h.field k _ (List.getElem?_eq_getElem hk),
    List.getElem_append, List.getD_eq_getElem?_getD]
  split
  next hlt => rw [List.getElem?_eq_getElem hlt, Option.getD_some]
  next hge => rw [List.getElem?_eq_none (Nat.le_of_not_lt hge), List.getElem_replicate]; rfl

/-- The longest length is the maximum of the lengths, where there are any. -/
theorem longest_eq_max? {columns : List (List String)} (h : columns ≠ []) :
    (columns.map List.length).max? = some (longest columns) := by
  induction columns with
  | nil => exact absurd rfl h
  | cons column columns ih =>
    rw [longest, List.map_cons, List.foldr_cons, List.max?_cons]
    by_cases hnil : columns = []
    · simp [hnil]
    · rw [ih hnil]
      rfl

/-- At least one column, zipped, is in line with its records. -/
theorem aligned_zipLongest {columns : List (List String)} (h : columns ≠ []) :
    Aligned columns (zipLongest columns) where
  width record hrecord := by
    obtain ⟨i, hi, rfl⟩ := List.mem_iff_getElem.1 hrecord
    rw [getElem_zipLongest hi, List.length_map]
  count := by rw [length_zipLongest, longest_eq_max? h]
  fields _ _ hvalues := (hasColumn_zipLongest hvalues).map_field

/-! ## Queries -/

/-- A column without references is the query that it was read as, whatever is bound. -/
theorem render_parse_of_not_refers {text : String} (h : ¬ Refers text.toList)
    (values : List String) : (Template.parse text).render values = text := by
  have hplain : (Template.parse text).hasReferences = false :=
    Bool.eq_false_iff.2 (mt hasReferences_iff.1 h)
  rw [Template.render_eq_display hplain, Template.display_parse_of_not_hasReferences hplain]

namespace Spec

/-- Each column of a specification was a text in one of the blocks. -/
theorem exists_columnText {ws : List WrittenBlock} {t : Template}
    (h : t ∈ (ofWritten ws).bindings ∨ ∃ row ∈ (ofWritten ws).rows, t ∈ row) :
    ∃ w ∈ ws, ∃ text ∈ w.columnTexts, t = Template.parse text := by
  have hcolumn : ∃ w ∈ ws, t ∈ w.columns := by
    rcases h with h | ⟨row, hrow, ht⟩
    · obtain ⟨w, hw, ht⟩ := List.mem_flatMap.1 h
      exact ⟨w, List.mem_of_mem_filter hw, ht⟩
    · obtain ⟨w, hw, rfl⟩ := List.mem_map.1 (List.mem_of_mem_filter hrow)
      exact ⟨w, List.mem_of_mem_filter hw, ht⟩
  obtain ⟨w, hw, ht⟩ := hcolumn
  obtain ⟨text, htext, rfl⟩ := List.mem_map.1 ht
  exact ⟨w, hw, text, htext, rfl⟩

/-- **Alignment.**  The label of every element has just the rows of its specification.  In each, the
records are in line with the values of the columns: none is lost or moved, and only where a column
has run out are there empty fields.  A column that refers to no bound value is, whatever is bound,
the query that its text was found to be when the specification was read; so only a column or a
binding with a reference can be left without a query. -/
theorem aligned_evaluate {text : String} {spec : Spec} (h : parse text = .ok spec) :
    (∀ c : Cursor, (spec.evaluate c).length = spec.rows.length ∧
      ∀ (i : Nat) (row : List Template), spec.rows[i]? = some row →
        ∃ records, (spec.evaluate c)[i]? = some records ∧
          Aligned (row.map fun t => t.evaluate (spec.bound c) c) records) ∧
    (∃ ws gap, IsWritten text.toList ws gap ∧ spec = ofWritten ws ∧
      ∀ w ∈ ws, ∀ column ∈ w.columnTexts, ¬ Refers column.toList →
        ∃ q, Query.parse column = .ok q ∧ ∀ values,
          Query.parse ((Template.parse column).render values) = .ok q ∧
          ∀ c, (Template.parse column).evaluate values c = q.evaluate c) ∧
    ∀ t, (t ∈ spec.bindings ∨ ∃ row ∈ spec.rows, t ∈ row) →
      ∀ values e, Query.parse (t.render values) = .error e → t.hasReferences = true := by
  -- the grammar says which text each column was, and that it refers or is a query
  obtain ⟨ws, gap, hw, hread, rfl⟩ := exists_isWritten h
  have hquery : ∀ w ∈ ws, ∀ column ∈ w.columnTexts, ¬ Refers column.toList →
      ∃ q, Query.parse column = .ok q := fun w hmem column hcolumn hplain =>
    (hread w hmem column hcolumn).resolve_left hplain
  refine ⟨fun c => ⟨List.length_map .., fun i row hrow => ⟨_, ?_, aligned_zipLongest ?_⟩⟩,
    ⟨ws, gap, hw, rfl, fun w hmem column hcolumn hplain => ?_⟩, fun t ht values e he => ?_⟩
  · rw [evaluate, List.getElem?_map, hrow, Option.map_some]
  · rw [ne_eq, List.map_eq_nil_iff]
    exact (fits_of_parse h).1 row (List.mem_of_getElem? hrow)
  · obtain ⟨q, hq⟩ := hquery w hmem column hcolumn hplain
    have hrender : ∀ values, Query.parse ((Template.parse column).render values) = .ok q :=
      fun values => by rw [render_parse_of_not_refers hplain, hq]
    refine ⟨q, hq, fun values => ⟨hrender values, fun c => ?_⟩⟩
    rw [Template.evaluate, hrender]
  · obtain ⟨w, hmem, column, hcolumn, rfl⟩ := exists_columnText ht
    refine hasReferences_iff.2 ?_
    -- without a reference the text is the query it was read as, and could not fail
    by_contra hplain
    obtain ⟨q, hq⟩ := hquery w hmem column hcolumn hplain
    rw [render_parse_of_not_refers hplain, hq] at he
    cases he

/-- A row with a long, a short and a broken column, and one without values. -/
def ragged : Spec where
  bindings := [Template.parse "@v"]
  rows := [[Template.parse "port/@name", Template.parse "'$1'", Template.parse "$1["],
    [Template.parse "@none"]]

/-- The short column fills up, and the broken one is empty throughout; the records are as many as
the long one has values. -/
theorem aligned_evaluate_ragged :
    let port (name : String) : Element := ⟨"port", [⟨false, "name", name⟩], "", []⟩
    let e : Element := ⟨"p", [⟨false, "v", "x"⟩], "", [port "a", port "a", port "b"]⟩
    parse "<< @v >> \x7b port/@name && '$1' && $1[ \x7d \x7b @none \x7d" = .ok ragged ∧
      ∃ records, (ragged.evaluate (.ofRoot e))[0]? = some records ∧
        Aligned [["a", "a", "b"], ["x"], []] records := by
  intro port e
  have h : parse "<< @v >> \x7b port/@name && '$1' && $1[ \x7d \x7b @none \x7d" = .ok ragged := by
    decide +kernel
  have hvalues : (([Template.parse "port/@name", Template.parse "'$1'", Template.parse "$1["]).map
      fun t => t.evaluate (ragged.bound (.ofRoot e)) (.ofRoot e)) =
        [["a", "a", "b"], ["x"], []] := by decide +kernel
  obtain ⟨records, hrecords, haligned⟩ := ((aligned_evaluate h).1 (.ofRoot e)).2 0 _ rfl
  exact ⟨h, records, hrecords, hvalues ▸ haligned⟩

end Spec

end NetPlot.Label
