/-
  Labels evaluated at a place of a document.

  1. **Program** — the bound columns are evaluated first and give the values for `$1`, `$2`, ….
     Then each row puts them into its columns, evaluates those, and zips the results: the `i`-th
     record holds the `i`-th value of every column.  A column that is no query once the values are
     put in has no values.

  2. **Zipping** — `zipLongest` pads short columns at their end (`length_zipLongest`,
     `field_zipLongest`), so no value changes its record.
-/
import NetPlot.Label.Spec
import NetPlot.Query.Select

namespace NetPlot.Label

open NetPlot.Xml

/-- An evaluated label: rows of records of fields. -/
abbrev Rows := List (List (List String))

/-! ## Zipping -/

/-- The length of the longest column. -/
def longest (columns : List (List String)) : Nat := (columns.map List.length).foldr max 0

/-- The records of columns, with empty fields where a column has run out. -/
def zipLongest (columns : List (List String)) : List (List String) :=
  (List.range (longest columns)).map fun i => columns.map fun c => c.getD i ""

theorem length_zipLongest (columns : List (List String)) :
    (zipLongest columns).length = longest columns := by
  simp [zipLongest]

/-- Record `i` holds the `i`-th value of every column. -/
theorem getElem_zipLongest {columns : List (List String)} {i : Nat}
    (h : i < (zipLongest columns).length) :
    (zipLongest columns)[i] = columns.map fun c => c.getD i "" := by
  simp [zipLongest]

/-! ## Evaluation -/

/-- The values of a column once `values` are put in. -/
def Template.evaluate (t : Template) (values : List String) (c : Cursor) : List String :=
  match Query.parse (t.render values) with
  | .ok q => q.evaluate c
  | .error _ => []

namespace Spec

/-- The values that `$1`, `$2`, … stand for. -/
def bound (spec : Spec) (c : Cursor) : List String :=
  spec.bindings.flatMap fun t => t.evaluate [] c

/-- The label of the element at `c`. -/
def evaluate (spec : Spec) (c : Cursor) : Rows :=
  spec.rows.map fun row => zipLongest (row.map fun t => t.evaluate (spec.bound c) c)

end Spec

end NetPlot.Label
