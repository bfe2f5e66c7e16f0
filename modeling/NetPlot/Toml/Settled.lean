/-
  Which values of a text are values at last.

  1. **Moments** — whoever asks for any value is given a moment as a table with one entry, its text
     under `momentKey`.  So a table whose first key is that one is a moment if the entry is the
     text of one, and is refused if it is not.

  2. **Numbers** — a number that is too large is refused where it is looked at.  The entries of a
     table that is a moment are not looked at beyond the first; when a table is taken as a
     `whole`, it may have no others.
-/
import NetPlot.Toml.Scalar

namespace NetPlot.Toml

/-- The key of a table that stands for a moment. -/
def momentKey : String := "$__toml_private_datetime"

/-- The moment that a value is the text of. -/
def momentOf? : Value → Option Value
  | .string s => (moment? s.toList).map .moment
  | _ => none

mutual

/-- The value that a value of a text is. -/
def Value.settle? (whole : Bool) : Value → Option Value
  | .array items => (settleItems? whole items).map .array
  | .table [] => some (.table [])
  | .table ((k, v) :: es) =>
    if k = momentKey then if whole && !es.isEmpty then none else momentOf? v
    else do some (.table ((k, ← v.settle? whole) :: (← settleEntries? whole es)))
  | .excess => none
  | v => some v

/-- The items of an array. -/
def settleItems? (whole : Bool) : List Value → Option (List Value)
  | [] => some []
  | v :: vs => do some ((← v.settle? whole) :: (← settleItems? whole vs))

/-- The entries of a table. -/
def settleEntries? (whole : Bool) : List (String × Value) → Option (List (String × Value))
  | [] => some []
  | (k, v) :: es => do some ((k, ← v.settle? whole) :: (← settleEntries? whole es))

end

end NetPlot.Toml
