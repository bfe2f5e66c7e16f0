/-
  Label specifications: which queries make up a label.

  1. **Language** — blocks with optional blanks between them.  `<< a && b >>` binds the values of
     its columns to `$1`, `$2`, …; `{ a && b }` is a row of columns.  A block ends at the first
     closing mark; columns are trimmed and empty ones do not count.

  2. **Program** — `blocks` reads one block after the other, `Spec.ofBlocks` gathers the bound
     columns and the rows that have any.  `Spec.display` is the canonical text.

  3. **Refusals** — a block without its closing mark, text outside of blocks, and a column without
     references that is no query.  The first one from the left counts.
-/
import NetPlot.Label.Template
import NetPlot.Query.Parser

namespace NetPlot.Label

open NetPlot.Text

/-- Queries to bind values from, and rows of columns to show. -/
structure Spec where
  bindings : List Template
  rows : List (List Template)
  deriving DecidableEq, Repr

/-! ## Refusals -/

/-- The two kinds of blocks. -/
inductive BlockKind where
  | binding
  | row
  deriving DecidableEq, Repr

namespace BlockKind

/-- The mark that opens a block. -/
def opening : BlockKind → List Char
  | binding => ['<', '<']
  | row => ['{']

/-- The mark that closes a block. -/
def closing : BlockKind → List Char
  | binding => ['>', '>']
  | row => ['}']

end BlockKind

/-- Why a text is no label specification. -/
inductive Error where
  | unterminated (kind : BlockKind) (offset : Nat)
  | unexpectedText (text : String) (offset : Nat)
  | invalidQuery (query : String) (error : Query.Error)
  deriving DecidableEq, Repr

/-- The error in words. -/
def Error.message : Error → String
  | unterminated kind offset =>
    "unterminated `" ++ String.ofList kind.opening ++ "` block starting at offset "
      ++ offset.repr
  | unexpectedText text offset =>
    "unexpected text `" ++ text ++ "` at offset " ++ offset.repr
      ++ ", expected `<<` or `\x7b`"
  | invalidQuery query error => "invalid query `" ++ query ++ "`: " ++ error.message

/-! ## Columns -/

/-- A column as a template; without references it has to be a query. -/
def column (text : String) : Except Error Template :=
  let t := Template.parse text
  if t.hasReferences then .ok t
  else
    match Query.parse text with
    | .ok _ => .ok t
    | .error e => .error (.invalidQuery text e)

/-- The columns of a block: the pieces between `&&`, trimmed, those left empty aside. -/
def columnTexts (body : List Char) : List String :=
  (((pieces '&' ['&'] body).map trimChars).filter (· ≠ [])).map String.ofList

/-- The columns of a block as templates. -/
def columns (body : List Char) : Except Error (List Template) := (columnTexts body).mapM column

/-! ## Blocks -/

/-- A block with its columns. -/
structure Block where
  kind : BlockKind
  columns : List Template
  deriving DecidableEq, Repr

/-- The kind of block that a text begins with, and the text after its opening mark. -/
def opened? (s : List Char) : Option (BlockKind × List Char) :=
  match afterMark? BlockKind.binding.opening s with
  | some r => some (.binding, r)
  | none => (afterMark? BlockKind.row.opening s).map (.row, ·)

theorem length_of_opened? {s r : List Char} {k : BlockKind} (h : opened? s = some (k, r)) :
    r.length < s.length := by
  unfold opened? at h
  split at h
  next hm => have := length_afterMark? hm; cases h; simp [BlockKind.opening] at this; omega
  next =>
    simp only [Option.map_eq_some_iff, Prod.mk.injEq] at h
    obtain ⟨r', hm, -, rfl⟩ := h
    have := length_afterMark? hm
    simp [BlockKind.opening] at this; omega

/-- The blocks of `s`, which is what is left of `text`. -/
def blocks (text s : List Char) : Except Error (List Block) :=
  if skipBlanks s = [] then .ok []
  else
    match _ho : opened? (skipBlanks s) with
    | none =>
      .error (.unexpectedText (String.ofList ((skipBlanks s).takeWhile (!isBlank ·)))
        (offset text (skipBlanks s)))
    | some (kind, r) =>
      match _hc : cutAt kind.closing r with
      | none => .error (.unterminated kind (offset text (skipBlanks s)))
      | some (body, r) => do
        let cols ← columns body
        let more ← blocks text r
        .ok (⟨kind, cols⟩ :: more)
termination_by s.length
decreasing_by
  have h₁ := length_skipBlanks_le s
  have h₂ := length_of_opened? _ho
  have h₃ := length_of_cutAt _hc
  omega

namespace Spec

/-- All bound columns in order, and the rows that have columns. -/
def ofBlocks (bs : List Block) : Spec where
  bindings := (bs.filter (·.kind = .binding)).flatMap (·.columns)
  rows := ((bs.filter (·.kind = .row)).map (·.columns)).filter (· ≠ [])

/-- The specification that a text is. -/
def parse (text : String) : Except Error Spec := do
  let bs ← blocks text.toList text.toList
  .ok (ofBlocks bs)

/-! ## Canonical text -/

/-- Columns with their separators. -/
def displayColumns (cols : List Template) : String := " && ".intercalate (cols.map (·.display))

/-- The canonical text: one binding block if anything is bound, then a block for each row. -/
def display (spec : Spec) : String :=
  let binding :=
    if spec.bindings = [] then [] else ["<< " ++ displayColumns spec.bindings ++ " >>"]
  " ".intercalate
    (binding ++ spec.rows.map fun row => "\x7b " ++ displayColumns row ++ " \x7d")

/-- One row with one query. -/
def ofQuery (query : String) : Spec := ⟨[], [[Template.parse query]]⟩

/-- The specification of an empty label. -/
def empty : Spec := ⟨[], []⟩

end Spec

end NetPlot.Label
