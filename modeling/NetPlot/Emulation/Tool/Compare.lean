/-
  Tools that compare texts.

  1. **Rows** — `changes` finds the lines that two texts have in common, as many as possible, and
     gives what is between them as a row of `Change`s.

  2. **Tools** — `cmp` says where two files differ first, `diff` what has to be done to the lines of
     one to get the other, and `comm` which lines of sorted files are in which of them.
-/
import NetPlot.Emulation.Tool.Tree

namespace NetPlot.Emulation.Tool

open NetPlot.Text

/-- The two names to compare. -/
def twoNames (g : Given) : Tool (String × String) := do
  match g.operands with
  | [] => misuse ("missing operand after " ++ quote (← read).name) 2
  | [a] => misuse ("missing operand after " ++ quote a) 2
  | [a, b] => return (a, b)
  | _ :: _ :: x :: _ => misuse ("extra operand " ++ quote x) 2

/-- The content of a file that has to be there. -/
def neededContent (name : String) : Tool String := do
  match ← contentOf name with
  | .ok s => return s
  | .error e => refuse (name ++ ": " ++ e.reason) 2

/-- `cmp`: the first difference of two files. -/
def cmp : Tool Unit := do
  let g ← given "sln:bi:" [("silent", 's'), ("quiet", 's'), ("verbose", 'l')] 2
  let (a, b) ← match g.operands with
    | [a] => pure (a, "-")
    | _ => twoNames g
  let s := (← neededContent a).toList
  let t := (← neededContent b).toList
  let same := ((s.zip t).takeWhile fun (c, d) => c == d).length
  if same = s.length ∧ same = t.length then return
  let line := ((s.take same).count '\n') + 1
  if !g.has 's' then
    if same = s.length ∨ same = t.length then
      let short := if same = s.length then a else b
      write 2 ((← read).name ++ ": EOF on " ++ short ++
        (if same = 0 then " which is empty\n"
        else " after byte " ++ same.repr ++ ", "
          ++ (if (s.take same).getLast? = some '\n' then "line " ++ (line - 1).repr
            else "in line " ++ line.repr) ++ "\n"))
    else
      say (a ++ " " ++ b ++ " differ: char " ++ (same + 1).repr ++ ", line " ++ line.repr ++ "\n")
  setStatus 1

/-! ## Differences -/

/-- For each end of a row of lines, how many lines it has in common with another row. -/
def commonLengths (same : String → String → Bool) : List String → List String → List (List Nat)
  | [], bs => [bs.map (fun _ => 0) ++ [0]]
  | a :: as, bs =>
    let below := commonLengths same as bs
    let row := below.headD []
    let rec fill : List String → List Nat → List Nat
      | [], _ => [0]
      | b :: bs, old =>
        let rest := fill bs (old.drop 1)
        (if same a b then (old.getD 1 0) + 1 else max (old.headD 0) (rest.headD 0)) :: rest
    fill bs row :: below

/-- What is done with a line. -/
inductive Step where
  | keep
  | remove
  | add
  deriving DecidableEq

/-- The steps from one row of lines to another. -/
def steps (same : String → String → Bool) :
    Nat → List String → List String → List (List Nat) → List Step
  | 0, _, _, _ => []
  | _, [], bs, _ => bs.map fun _ => .add
  | _, as, [], _ => as.map fun _ => .remove
  | fuel + 1, a :: as, b :: bs, table =>
    if same a b then .keep :: steps same fuel as bs ((table.drop 1).map (List.drop 1))
    else
      let down := ((table.drop 1).headD []).headD 0
      let right := ((table.headD []).drop 1).headD 0
      if right ≤ down then .remove :: steps same fuel as (b :: bs) (table.drop 1)
      else .add :: steps same fuel (a :: as) bs (table.map (List.drop 1))

/-- Lines that are replaced by others: where they begin, and how many they are. -/
structure Change where
  left : Nat
  removed : Nat
  right : Nat
  added : Nat

/-- The changes that steps make; lines are counted from one. -/
def changesOf : List Step → Nat → Nat → Option Change → List Change
  | [], _, _, c => c.toList
  | .keep :: r, i, j, c => c.toList ++ changesOf r (i + 1) (j + 1) none
  | .remove :: r, i, j, c =>
    let c := c.getD ⟨i, 0, j, 0⟩
    changesOf r (i + 1) j (some { c with removed := c.removed + 1 })
  | .add :: r, i, j, c =>
    let c := c.getD ⟨i, 0, j, 0⟩
    changesOf r i (j + 1) (some { c with added := c.added + 1 })

/-- The changes between two rows of lines. -/
def changes (same : String → String → Bool) (as bs : List String) : List Change :=
  changesOf (steps same (as.length + bs.length + 1) as bs (commonLengths same as bs)) 1 1 none

/-- The numbers of lines. -/
def lineRange (first count : Nat) : String :=
  if count = 0 then (first - 1).repr
  else if count = 1 then first.repr
  else first.repr ++ "," ++ (first + count - 1).repr

/-- Lines with a mark in front. -/
def markedLines (mark : String) (ls : List String) : String :=
  String.join (ls.map fun l =>
    if l.toList.getLast? = some '\n' then mark ++ l
    else mark ++ l ++ "\n\\ No newline at end of file\n")

/-- A change in words. -/
def Change.text (c : Change) (as bs : List String) : String :=
  let letter := if c.removed = 0 then "a" else if c.added = 0 then "d" else "c"
  lineRange c.left c.removed ++ letter ++ lineRange c.right c.added ++ "\n"
    ++ markedLines "< " ((as.drop (c.left - 1)).take c.removed)
    ++ (if letter = "c" then "---\n" else "")
    ++ markedLines "> " ((bs.drop (c.right - 1)).take c.added)

/-- `diff`: what makes one file of another. -/
def diff : Tool Unit := do
  let g ← given "0123456789abBcC:dD:eEfF:hHiI:lL:nNpPqrsS:tTuU:vwW:x:X:y" [("brief", 'q'), ("report-identical-files", 's'), ("ignore-case", 'i'),
    ("ignore-all-space", 'w'), ("ignore-space-change", 'b')] 2
  let (a, b) ← twoNames g
  let above := ((← isDirectory a), (← isDirectory b))
  let a' := if above = (true, false) then inside a (lastPart b) else a
  let b' := if above = (false, true) then inside b (lastPart a) else b
  let s ← neededContent a'
  let t ← neededContent b'
  let blank (c : Char) : Bool := c == ' ' || c == '\t'
  let key (l : String) : List Char :=
    let cs := l.toList
    let cs := if g.has 'w' then cs.filter fun c => !blank c else cs
    if g.has 'i' then cs.map Char.toLower else cs
  let (as, bs) := (fullLines s, fullLines t)
  let found := changes (fun x y => key x == key y) as bs
  if found.isEmpty then
    if g.has 's' then say ("Files " ++ a' ++ " and " ++ b' ++ " are identical\n")
  else
    if g.has 'q' then say ("Files " ++ a' ++ " and " ++ b' ++ " differ\n")
    else say (String.join (found.map fun c => c.text as bs))
    setStatus 1

/-! ## Common lines -/

/-- Lines of two sorted rows with how many blanks stand in front of each. -/
def merged : Nat → List String → List String → List (Nat × String)
  | 0, _, _ => []
  | _, [], bs => bs.map (2, ·)
  | _, as, [] => as.map (1, ·)
  | fuel + 1, a :: as, b :: bs =>
    if a = b then (3, a) :: merged fuel as bs
    else if a < b then (1, a) :: merged fuel as (b :: bs)
    else (2, b) :: merged fuel (a :: as) bs

/-- `comm`: which lines are in which of two sorted files. -/
def comm : Tool Unit := do
  let g ← given "123" [] 1
  let (a, b) ← match g.operands with
    | [a, b] => pure (a, b)
    | [] => lacking 1
    | [a] => misuse ("missing operand after " ++ quote a) 1
    | _ :: _ :: x :: _ => extra x 1
  let content (n : String) : Tool String := do
    match ← contentOf n with
    | .ok s => return s
    | .error e => refuse (n ++ ": " ++ e.reason) 1
  let as := linesOf (← content a)
  let bs := linesOf (← content b)
  let shown (n : Nat) : Bool := !g.has (Char.ofNat (n + '0'.toNat))
  for (n, l) in merged (as.length + bs.length + 1) as bs do
    if shown n then
      let front := ((List.range (n - 1)).filter fun i => shown (i + 1)).length
      say (String.ofList (List.replicate front '\t') ++ l ++ "\n")

end NetPlot.Emulation.Tool
