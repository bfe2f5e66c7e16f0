/-
  File paths as texts.

  1. **Reading** — a path is a row of components parted by slashes.  Empty components and `.` do
     not count, except for a `.` at the very front; a slash at the front makes the path absolute.
     Nothing is normalised: what is kept of a path is kept as written.

  2. **Program** — `stem?` is the last component up to its last dot, `parent?` what stands in
     front of the last component, `join` a path seen from a directory.

  A path is taken apart from its end, so the readers below work on the reversed text.
-/
import NetPlot.Text.Cut

namespace NetPlot

open NetPlot.Text

/-- A path as written. -/
structure Path where
  text : String
  deriving DecidableEq, Repr

namespace Path

/-! ## The reversed text -/

/-- The last component, reversed, and what stands in front of its slash. -/
def lastPart (rev : List Char) : List Char × List Char :=
  ((splitRun (· != '/') rev).1, (splitRun (· != '/') rev).2.drop 1)

/-- A text that is not empty has less in front of its last component. -/
theorem length_lastPart {rev : List Char} (h : rev ≠ []) :
    (lastPart rev).2.length < rev.length := by
  have := length_splitRun (· != '/') rev
  simp only [lastPart, List.length_drop]
  cases rev with
  | nil => exact absurd rfl h
  | cons c cs =>
    simp only [List.length_cons] at *
    by_cases hd : (splitRun (· != '/') (c :: cs)).2.length = 0
    · omega
    · omega

/-- The text up to its last component that counts. -/
def skipIdle (rev : List Char) : List Char :=
  if _h : rev = [] then []
  else if (lastPart rev).1 = [] ∨ (lastPart rev).1 = ['.'] then skipIdle (lastPart rev).2
  else rev
termination_by rev.length
decreasing_by exact length_lastPart _h

/-- The mark at the front that is no ordinary component: a slash, or a `.` standing alone. -/
def front (s : List Char) : List Char :=
  match s with
  | '/' :: _ => ['/']
  | ['.'] => ['.']
  | '.' :: '/' :: _ => ['.']
  | _ => []

/-- The rest of the path up to its last component, reversed. -/
def body (s : List Char) : List Char := skipIdle (s.drop (front s).length).reverse

/-! ## Parts of a path -/

/-- The last component, unless it is `..` or there is none. -/
def fileName? (p : Path) : Option String :=
  match body p.text.toList with
  | [] => none
  | rev =>
    let last := (lastPart rev).1.reverse
    if last = ['.', '.'] then none else some (String.ofList last)

/-- The name of a file without its extension; a dot at the front of a name starts none. -/
def stem? (p : Path) : Option String :=
  p.fileName?.map fun name =>
    let rev := name.toList.reverse
    match (splitRun (· != '.') rev).2 with
    | _ :: c :: cs => String.ofList (c :: cs).reverse
    | _ => name

/-- What stands in front of the last component. -/
def parent? (p : Path) : Option Path :=
  let s := p.text.toList
  match body s with
  | [] => if front s = ['.'] then some ⟨""⟩ else none
  | rev => some ⟨String.ofList (front s ++ (skipIdle (lastPart rev).2).reverse)⟩

/-- The directory of a file; the current one if the path names no directory. -/
def directory (p : Path) : Path :=
  match p.parent? with
  | some d => if d.text = "" then ⟨"."⟩ else d
  | none => ⟨"."⟩

/-- A path seen from a directory; an absolute one stays as it is. -/
def join (dir : Path) (p : String) : Path :=
  if p.toList.head? = some '/' then ⟨p⟩
  else if dir.text = "" ∨ dir.text.toList.getLast? = some '/' then ⟨dir.text ++ p⟩
  else ⟨dir.text ++ "/" ++ p⟩

example : (Path.mk "a//b/./c.d.xml/.").stem? = some "c.d" := by cbv
example : (Path.mk "a//b/./c.xml").parent? = some ⟨"a//b"⟩ := by cbv

end Path

end NetPlot
