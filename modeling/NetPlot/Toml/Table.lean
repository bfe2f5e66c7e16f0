/-
  Building tables from the statements of a TOML text.

  1. **Data** — while a text is read, a `Node` remembers how a table came about, because that
     decides what may still be added to it: a table opened by its own header, one that only stands
     on the way to another header, one that dotted keys have made, and a row of tables, of which
     the last one is open.  What an `=` gives is a `leaf`, finished for good.

  2. **Program** — `alongPath` goes down a path, making tables on the way, and changes the
     entries at its end; `addEntry`, `openTable` and `openRow` are what the three kinds of
     statements do.  Each is refused where the text would define something twice.

  3. `freeze` forgets how tables came about and puts their entries in the order of their keys.
-/
import NetPlot.Toml.Value

namespace NetPlot.Toml

/-- How a table came about. -/
inductive Origin where
  /-- By its own header. -/
  | header
  /-- On the way to the header of another table. -/
  | passing
  /-- By dotted keys. -/
  | dotted
  deriving DecidableEq, Repr

/-- A part of a text being read. -/
inductive Node where
  | leaf (v : Value)
  | table (origin : Origin) (entries : List (String × Node))
  /-- Tables with the same header; the last one is open. -/
  | row (earlier : List (List (String × Node))) (last : List (String × Node))

/-- The entries of a table being read. -/
abbrev Fields := List (String × Node)

/-- A dotted key: the tables on its way and the name at its end. -/
structure Key where
  path : List String
  name : String
  deriving DecidableEq, Repr

/-- All names of a dotted key. -/
def Key.full (k : Key) : List String := k.path ++ [k.name]

namespace Fields

/-- A node put in for a key, in its place if the key is there. -/
def put (k : String) (n : Node) : Fields → Fields
  | [] => [(k, n)]
  | (k', n') :: r => if k' = k then (k, n) :: r else (k', n') :: put k n r

/-- Goes down a path and changes the entries at its end, seeing how their table came about.  Dotted
keys may not go through a table that has its own header. -/
def alongPath (dotted : Bool) (change : Origin → Fields → Option Fields) :
    List String → Origin → Fields → Option Fields
  | [], origin, es => change origin es
  | k :: ks, _, es =>
    let fresh := if dotted then Origin.dotted else .passing
    match es.lookup k with
    | none => (alongPath dotted change ks fresh []).map fun inner => es.put k (.table fresh inner)
    | some (.table origin inner) =>
      if dotted ∧ origin = .header then none
      else (alongPath dotted change ks origin inner).map fun inner => es.put k (.table origin inner)
    | some (.row earlier last) =>
      (alongPath dotted change ks .header last).map fun last => es.put k (.row earlier last)
    | some (.leaf _) => none

/-! ## Statements -/

/-- Adds a value under a dotted key, seen from the table itself.  The table at the end of the key
has to be one that dotted keys have made. -/
def addHere (key : Key) (v : Value) (es : Fields) : Option Fields :=
  alongPath true
    (fun origin es =>
      if (key.path ≠ [] ∧ origin ≠ .dotted) ∨ (es.lookup key.name).isSome then none
      else some (es.put key.name (.leaf v)))
    key.path .header es

/-- Adds a value under a dotted key in the table of a header. -/
def addEntry (header : List String) (key : Key) (v : Value) (es : Fields) : Option Fields :=
  alongPath false (fun _ es => addHere key v es) header .header es

/-- Opens a table by its header.  It may have stood on the way to another header, but a table has
one header at most. -/
def openTable (key : Key) (es : Fields) : Option Fields :=
  alongPath false
    (fun _ es =>
      match es.lookup key.name with
      | none => some (es.put key.name (.table .header []))
      | some (.table .passing inner) => some (es.put key.name (.table .header inner))
      | some _ => none)
    key.path .header es

/-- Opens the next table of a row. -/
def openRow (key : Key) (es : Fields) : Option Fields :=
  alongPath false
    (fun _ es =>
      match es.lookup key.name with
      | none => some (es.put key.name (.row [] []))
      | some (.row earlier last) => some (es.put key.name (.row (earlier ++ [last]) []))
      | some _ => none)
    key.path .header es

/-- A key that was put in is found. -/
theorem lookup_put (k : String) (n : Node) (es : Fields) : (es.put k n).lookup k = some n := by
  induction es with
  | nil => simp [put]
  | cons e r ih =>
    obtain ⟨k', n'⟩ := e
    by_cases h : k' = k
    · simp [put, h]
    · have hk : (k == k') = false := beq_eq_false_iff_ne.2 fun he => h he.symm
      rw [put, if_neg h, List.lookup_cons, hk]
      exact ih

end Fields

/-! ## Finished tables -/

/-- Entries in the order of their keys. -/
def sortEntries (es : List (String × Value)) : List (String × Value) :=
  es.mergeSort fun a b => decide (a.1 ≤ b.1)

mutual

/-- The value of a part of a text. -/
def Node.freeze : Node → Value
  | .leaf v => v
  | .table _ es => .table (sortEntries (freezeEntries es))
  | .row earlier last => .array (freezeRow earlier ++ [.table (sortEntries (freezeEntries last))])

/-- The values of entries. -/
def freezeEntries : List (String × Node) → List (String × Value)
  | [] => []
  | (k, n) :: es => (k, n.freeze) :: freezeEntries es

/-- The tables of a row but for the last one. -/
def freezeRow : List (List (String × Node)) → List Value
  | [] => []
  | es :: r => .table (sortEntries (freezeEntries es)) :: freezeRow r

end

/-- The entries of a table once its text has been read. -/
def Fields.freeze (es : Fields) : List (String × Value) := sortEntries (freezeEntries es)

end NetPlot.Toml
