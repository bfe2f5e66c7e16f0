/-
  Searching lines.

  A line is found if one of the expressions fits somewhere in it.  What is written for the lines
  that are found depends on the options: the lines, their number, the names of their files, or
  only the parts that fit.
-/
import NetPlot.Emulation.Tool.Regex
import NetPlot.Emulation.Tool.Tree

namespace NetPlot.Emulation.Tool

open NetPlot.Text

/-- A way to find something in a line. -/
structure Finder where
  expressions : List Regex
  ignoreCase : Bool
  words : Bool
  whole : Bool

namespace Finder

/-- Does a fit satisfy what is asked for words and lines? -/
def accepts (f : Finder) (before : Option Char) (x : Fit) : Bool :=
  let front := (x.front.getLast?).or before
  (!f.whole || (front.isNone && x.back.isEmpty))
    && (!f.words || (!inWord front && !inWord x.back.head?))

/-- The first fit of an expression at or after some place that is accepted. -/
def firstOf (f : Finder) (r : Regex) : Nat → Option Char → List Char → Option Fit
  | 0, _, _ => none
  | fuel + 1, before, s => do
    let ends := r.ends f.ignoreCase ⟨before, s, []⟩
    let fits : List Fit := ends.map fun q =>
      ⟨[], s.take (s.length - q.rest.length), q.rest, q.groups⟩
    match longestFit (fits.filter (f.accepts before)) with
    | some x => some x
    | none =>
      match s with
      | [] => none
      | c :: s => do
        let x ← firstOf f r fuel (some c) s
        return { x with front := c :: x.front }
where
  /-- The longest fit. -/
  longestFit : List Fit → Option Fit
    | [] => none
    | x :: xs =>
      match longestFit xs with
      | none => some x
      | some y => some (if x.found.length < y.found.length then y else x)

/-- The first fit in a text. -/
def first? (f : Finder) (before : Option Char) (s : List Char) : Option Fit :=
  let fits := f.expressions.filterMap fun r => f.firstOf r (s.length + 1) before s
  fits.foldl
    (fun best x =>
      match best with
      | none => some x
      | some y =>
        if x.front.length < y.front.length
          ∨ (x.front.length = y.front.length ∧ y.found.length < x.found.length) then some x
        else some y) none

/-- All parts of a line that fit. -/
def all (f : Finder) : Nat → Option Char → List Char → List (List Char)
  | 0, _, _ => []
  | fuel + 1, before, s =>
    match f.first? before s with
    | none => []
    | some x =>
      if x.found.isEmpty then
        match x.back with
        | [] => []
        | c :: r => all f fuel (some c) r
      else x.found :: all f fuel (x.found.getLast?) x.back

end Finder

/-- The expression that fits a text as it is. -/
def literalRegex (s : String) : Regex :=
  s.toList.foldr (fun c r => (Regex.char c).append r) .empty

/-- The lines to show around those that are found: which ones, with their numbers. -/
def shownLines (before after : Nat) (found : List Bool) : List Bool :=
  let n := found.length
  (List.range n).map fun i =>
    found.zipIdx.any fun (b, j) => b && (j ≤ i + before && i ≤ j + after)

/-- The files below a directory, with their names. -/
def filesBelow (fs : Files) (l : Location) (name : String) : List String :=
  (below fs l).filterMap fun (k, e) =>
    match e with
    | .file _ _ => some (inside name (toOctets ("/".intercalate k)))
    | _ => none

/-- `grep`: the lines in which something is found; `extended` and `literal` say how the expressions
are read. -/
def grep (extended literal : Bool) : Tool Unit := do
  let name := (← read).name
  let arguments := (← read).arguments
  let known := knownOptions "A:B:C:EFGHLPTVachilm:noqrRsvwxe:f:z"
    [("extended-regexp", 'E'), ("fixed-strings", 'F'), ("ignore-case", 'i'), ("invert-match", 'v'),
     ("count", 'c'), ("line-number", 'n'), ("only-matching", 'o'), ("quiet", 'q'),
     ("silent", 'q'), ("files-with-matches", 'l'), ("files-without-match", 'L'),
     ("max-count", 'm'), ("word-regexp", 'w'), ("line-regexp", 'x'), ("regexp", 'e'),
     ("no-messages", 's'), ("no-filename", 'h'), ("with-filename", 'H'), ("recursive", 'r'),
     ("after-context", 'A'), ("before-context", 'B'), ("context", 'C'), ("text", 'a'),
     ("color", 'V')]
  let g ← readOptions known 2 false (arguments.length + 1) arguments
  let usage {α : Type} : Tool α := do
    write 2 ("Usage: " ++ name ++ " [OPTION]... PATTERNS [FILE]...\n"
      ++ "Try '" ++ name ++ " --help' for more information.\n")
    stop 2
  let given := (g.options.filter fun o => o.1 == 'e').map (·.2)
  let (patterns, names) ← match given, g.operands with
    | [], [] => usage
    | [], p :: ns => pure ([p], ns)
    | ps, ns => pure (ps, ns)
  let extended := match g.last? ['E', 'F', 'G', 'P'] with
    | some 'E' => true
    | some 'P' => true
    | some _ => false
    | none => extended
  let literal := match g.last? ['E', 'F', 'G', 'P'] with
    | some 'F' => true
    | some _ => false
    | none => literal
  let texts := patterns.flatMap fun p => (pieces '\n' [] p.toList).map String.ofList
  let expressions ← texts.mapM fun p => do
    if literal then return literalRegex p
    match Regex.ofText extended p with
    | .ok r => return r
    | .error m => refuse m 2
  let finder : Finder := ⟨expressions, g.has 'i', g.has 'w', g.has 'x'⟩
  let deep := g.has 'r' || g.has 'R'
  let fs := (← get).files
  let names := if names.isEmpty then [if deep then "." else "-"] else names
  let expanded ← names.mapM fun n => do
    match deep, ← entryAt n with
    | true, .ok (l, some .directory) =>
      return (filesBelow fs l n).map fun s =>
        if names == ["."] then (withoutFront s) else s
    | _, _ => return [n]
  let files := expanded.flatten
  let titled := (files.length > 1 || deep || g.has 'H') && !g.has 'h'
  let number (c : Char) : Nat := ((g.value? c).bind digits?).getD 0
  let around := number 'C'
  let (above, below) := (max around (number 'B'), max around (number 'A'))
  let mut any := false
  let mut failed := false
  let mut started := false
  for n in files do
    match ← contentOf n with
    | .error e =>
      failed := true
      if !g.has 's' then warn (n ++ ": " ++ e.reason)
    | .ok s =>
      let title := if n = "-" then "(standard input)" else n
      let lines := linesOf s
      let found := lines.map fun l => (finder.first? none l.toList).isSome != g.has 'v'
      let found := match (g.value? 'm').bind digits? with
        | none => found
        | some m => (found.foldl (fun (acc : List Bool × Nat) b =>
            if b && acc.2 < m then (true :: acc.1, acc.2 + 1) else (false :: acc.1, acc.2))
            ([], 0)).1.reverse
      let count := found.count true
      if count > 0 then any := true
      if g.has 'q' then
        if any then stop 0
      else if g.has 'l' then
        if count > 0 then say (title ++ "\n")
      else if g.has 'L' then
        if count = 0 then say (title ++ "\n")
      else if g.has 'c' then say ((if titled then title ++ ":" else "") ++ count.repr ++ "\n")
      else
        let shown := shownLines above below found
        let mut last : Option Nat := none
        for ((l, b), i) in (lines.zip (found.zip shown)).zipIdx do
          if b.2 then
            let mark := if b.1 then ":" else "-"
            let front := (if titled then title ++ mark else "")
              ++ (if g.has 'n' then (i + 1).repr ++ mark else "")
            if g.has 'o' then
              if b.1 && !g.has 'v' then
                for part in finder.all (l.length + 2) none l.toList do
                  say (front ++ String.ofList part ++ "\n")
            else
              let gap := match last with
                | some j => j + 1 < i
                | none => started
              if (above > 0 || below > 0) && gap then say "--\n"
              say (front ++ l ++ "\n")
              started := true
            last := some i
  setStatus (if failed then 2 else if any then 0 else 1)
where
  /-- A name without the directory at its front. -/
  withoutFront (s : String) : String :=
    match afterMark? ['.', '/'] s.toList with
    | some r => String.ofList r
    | none => s

end NetPlot.Emulation.Tool
