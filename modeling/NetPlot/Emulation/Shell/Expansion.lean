/-
  Expanding words.

  1. **Atoms** — a piece expands to a row of `Atom`s: characters of which it is known whether they
     are quoted and whether a word may be split at them, ends of words (`cut`), and marks for words
     that are there although they are empty.

  2. **Program** — `expand` is one pass over the pieces of a word.  `fieldsOf` splits atoms to
     fields, `matching` replaces a field that is a pattern by the paths that it fits, and
     `expandAll` does all three for a row of words.  `expandText` is for a word that is not split,
     and `expandPattern` for one that is used as a pattern.

  3. **Faults** — a fault ends the script (`Script.fail`); the atoms of a word with a fault are
     never used.
-/
import NetPlot.Emulation.Shell.Arithmetic
import NetPlot.Emulation.Shell.Pattern
import NetPlot.Emulation.Shell.State

namespace NetPlot.Emulation.Shell

open NetPlot.Text

/-- A part of an expanded word. -/
inductive Atom where
  | char (c : Char) (quoted splits : Bool)
  /-- A word ends here. -/
  | cut
  /-- There is a word here, even if it has no characters. -/
  | mark
  deriving DecidableEq, Repr

/-- How a word is expanded. -/
structure Manner where
  /-- Can it become several words? -/
  full : Bool
  /-- Is unquoted text split like a value? -/
  splits : Bool

/-- The atoms of a text. -/
def spread (quoted splits : Bool) (s : String) : List Atom :=
  s.toList.map fun c => .char c quoted (splits && !quoted)

/-- The text of atoms; words that end in the middle are joined by a blank. -/
def plainText (atoms : List Atom) : String :=
  String.ofList (atoms.filterMap fun
    | .char c _ _ => some c
    | .cut => some ' '
    | .mark => none)

/-- The characters of atoms with their quotes. -/
def marksOf (atoms : List Atom) : List Mark :=
  atoms.filterMap fun
    | .char c q _ => some (c, q)
    | .cut => some (' ', false)
    | .mark => none

/-! ## Values -/

/-- What stands between the arguments when they are one text. -/
def joiner (sh : Script) : String :=
  match sh.value? "IFS" with
  | none => " "
  | some s => String.ofList (s.toList.take 1)

/-- Does the name mean all arguments? -/
def isRow (name : String) : Bool := name == "@" || name == "*"

/-- The value of any name. -/
def valueOf? (sh : Script) (name : String) : Option String :=
  match name with
  | "#" => some sh.arguments.length.repr
  | "?" => some sh.status.repr
  | "$" => some sh.number.repr
  | "!" => sh.aside.map fun x => x.1.repr
  | "-" => some (String.ofList (sh.pick sh.options (sh.options.filter Char.isAlpha ++ ['h', 'B'])))
  | "0" => some sh.program
  | "LINENO" => sh.pick (sh.value? name) (some sh.line.repr)
  | name =>
    if isRow name then
      if sh.arguments.isEmpty then none else some ((joiner sh).intercalate sh.arguments)
    else if name ≠ "" ∧ name.all Char.isDigit then
      let n := numeral 10 name.toList
      if n = 0 then some sh.program else sh.arguments[n - 1]?
    else sh.value? name

/-- The atoms of the value of a name. -/
def valueAtoms (sh : Script) (m : Manner) (quoted : Bool) (name : String) : List Atom :=
  if isRow name ∧ m.full ∧ (quoted → name = "@") then
    let each (s : String) := if quoted then .mark :: spread true false s else spread false true s
    [Atom.cut].intercalate (sh.arguments.map each)
  else spread quoted true ((valueOf? sh name).getD "")

/-- Is a name without a value; with a colon, or with an empty one? -/
def lacks (sh : Script) (name : String) (colon : Bool) : Bool :=
  match valueOf? sh name with
  | none => true
  | some s => colon && s.isEmpty

/-- A name that is missing ends the script where that is asked for. -/
def checkKnown (sh : Script) (name : String) : Script :=
  if sh.has 'u' && !isRow name && (valueOf? sh name).isNone then
    sh.fail (sh.pick (name ++ ": parameter not set")
      ((if isName name then "" else "$") ++ name ++ ": unbound variable"))
  else sh

/-- Assigns to a name that is used in braces. -/
def assignUsed (sh : Script) (name value : String) : Script :=
  match name.toList with
  | c :: _ =>
    if c.isAlpha || c == '_' then sh.assign name value else sh.fail (name ++ ": bad variable name")
  | [] => sh

/-! ## Output and numbers -/

/-- A text without the line ends at its end. -/
def dropLineEnds (s : String) : String :=
  String.ofList (s.toList.reverse.dropWhile (· == '\n')).reverse

/-- Runs commands on their own, and gives what they write. -/
def capture (run : Runner) (body : Command) (sh : Script) : String × Script :=
  let (i, opened) := sh.openStream (.sink "")
  let inner := run body { opened.part.bind 1 i with tested := false }
  let text := match inner.streams[i]? with
    | some (.sink t) => t
    | _ => ""
  let after := sh.afterPart { inner with streams := inner.streams.setIfInBounds i .void }
  (dropLineEnds (String.ofList (text.toList.filter (· ≠ '\x00'))),
    { after with captured := some inner.status })

/-- The value of an expression. -/
def calculate (s : String) (sh : Script) : Int × Script :=
  let plain (m : String) : String := "arithmetic expression: " ++ m ++ ": \"" ++ s ++ "\""
  let trimmed := String.ofList (s.toList.dropWhile (· == ' '))
  let last := String.ofList ((trimmed.toList.reverse.takeWhile fun c => isNameChar c).reverse)
  let broad (m : String) : String := trimmed ++ ": " ++ m ++ " (error token is \"" ++ last ++ "\")"
  let values (name : String) : Option String :=
    match sh.dialect, valueOf? sh name with
    | .broad, some v => if (numberOf? v).isSome then some v else some "0"
    | _, v => v
  match Expression.ofText sh.dialect s with
  | .error m => (0, sh.giveUp (plain m) (broad "syntax error: operand expected"))
  | .ok e =>
    match e.evaluate ⟨values, []⟩ with
    | .error (.expression m) =>
      (0, sh.giveUp (plain m) (broad (if m = "division by zero" then "division by 0" else m)))
    | .error (.value v) => (0, sh.fail ("Illegal number: " ++ v))
    | .ok (n, b) =>
      (n, b.assigned.reverse.foldl (fun sh (name, x) => sh.assign name (toString x)) sh)

/-! ## Parts of values -/

/-- The part of a text from a place on, of some length; both count from the end if they are
negative. -/
def portion (s : List Char) (start : Int) (length : Option Int) : List Char :=
  let size : Int := s.length
  let first := if start < 0 then size + start else start
  let stop := match length with
    | none => size
    | some n => if n < 0 then size + n else first + n
  if first < 0 then [] else (s.drop first.toNat).take (stop - first).toNat

/-- A text with others in place of what a pattern fits. -/
def replacing (spots : Spots) (p : List Part) (new s : List Char) : List Char :=
  match spots with
  | .first => replaceFits false p new (s.length + 1) s
  | .all => replaceFits true p new (s.length + 1) s
  | .front =>
    let r := stripFront true p s
    if r.length < s.length then new ++ r else s
  | .back =>
    let r := stripBack true p s
    if r.length < s.length then r ++ new else s

/-- A text in large or small letters, or with its first one so. -/
def inLetters (large all : Bool) (s : List Char) : List Char :=
  let change (c : Char) : Char := if large then c.toUpper else c.toLower
  match s with
  | [] => []
  | c :: r => change c :: if all then r.map change else r

/-! ## Pieces -/

/-- The directory that is meant by a tilde and a name. -/
def homeOf? (sh : Script) (name : List Char) : Option String :=
  if name = [] then sh.value? "HOME" else if name = "root".toList then some "/root" else none

/-- The atoms of a text with a tilde at its front. -/
def tilded (sh : Script) (isEnd : Char → Bool) (s : String) : Option (List Atom) :=
  match s.toList with
  | '~' :: r =>
    let (name, r) := splitRun (fun c => !isEnd c) r
    (homeOf? sh name).map fun home => spread true false home ++ spread false false (String.ofList r)
  | _ => none

mutual

/-- The atoms of a piece. -/
def expandPiece (run : Runner) (m : Manner) : Piece → Script → List Atom × Script
  | .text quoted s, sh =>
    (if quoted && s.isEmpty then [.mark] else spread quoted m.splits s, sh)
  | .output quoted body, sh =>
    let (s, sh) := capture run body sh
    (spread quoted true s, sh)
  | .number quoted e, sh =>
    let (atoms, sh) := expand run ⟨false, false⟩ e sh
    if sh.flow ≠ .go then ([], sh)
    else
      let (n, sh) := calculate (plainText atoms) sh
      (spread quoted true (toString n), sh)
  | .value quoted name use w, sh =>
    let inner : Manner := ⟨m.full, !quoted⟩
    match use with
    | .plain => (valueAtoms sh m quoted name, checkKnown sh name)
    | .length =>
      let n := ((valueOf? sh name).getD "").length
      (spread quoted true n.repr, checkKnown sh name)
    | .otherwise colon =>
      if lacks sh name colon then expand run inner w sh else (valueAtoms sh m quoted name, sh)
    | .assign colon =>
      if lacks sh name colon then
        let (atoms, sh) := expand run ⟨false, false⟩ w sh
        let sh := assignUsed sh name (plainText atoms)
        (valueAtoms sh m quoted name, sh)
      else (valueAtoms sh m quoted name, sh)
    | .demand colon =>
      if lacks sh name colon then
        if w.isEmpty then
          ([], sh.fail (name ++ ": parameter not set" ++ if colon then " or null" else ""))
        else
          let (atoms, sh) := expand run ⟨false, false⟩ w sh
          ([], sh.fail (name ++ ": " ++ plainText atoms))
      else (valueAtoms sh m quoted name, sh)
    | .instead colon => if lacks sh name colon then ([], sh) else expand run inner w sh
    | .strip front longest =>
      let (atoms, sh) := expand run ⟨false, false⟩ w sh
      let p := patternOf (marksOf atoms)
      let s := ((valueOf? sh name).getD "").toList
      let s := if front then stripFront longest p s else stripBack longest p s
      (spread quoted true (String.ofList s), checkKnown sh name)
    | .portion =>
      let (atoms, sh) := expand run ⟨false, false⟩ w sh
      let (first, length) := splitRun (· ≠ ':') (plainText atoms).toList
      let (start, sh) := calculate (String.ofList first) sh
      let (size, sh) : Option Int × Script := match length with
        | [] => (none, sh)
        | _ :: r =>
          let (n, sh) := calculate (String.ofList r) sh
          (some n, sh)
      let s := ((valueOf? sh name).getD "").toList
      (spread quoted true (String.ofList (portion s start size)), sh)
    | .replace spots =>
      let (atoms, sh) := expand run ⟨false, false⟩ w sh
      let marks := marksOf atoms
      let p := marks.takeWhile fun m => m != ('/', false)
      let new := (marks.drop (p.length + 1)).map (·.1)
      let s := ((valueOf? sh name).getD "").toList
      (spread quoted true (String.ofList (replacing spots (patternOf p) new s)), checkKnown sh name)
    | .letters large all =>
      let s := ((valueOf? sh name).getD "").toList
      (spread quoted true (String.ofList (inLetters large all s)), checkKnown sh name)
    | .senseless => ([], sh.giveUp "Bad substitution" ("$\x7b" ++ name ++ "\x7d: bad substitution"))

/-- The atoms of a row of pieces. -/
def expand (run : Runner) (m : Manner) : List Piece → Script → List Atom × Script
  | [], sh => ([], sh)
  | p :: ps, sh =>
    let (front, sh) := expandPiece run m p sh
    if sh.flow ≠ .go then ([], sh)
    else
      let (back, sh) := expand run m ps sh
      (front ++ back, sh)

end

/-- The atoms of a word, of which a tilde at the front means a directory. -/
def expandWord (run : Runner) (m : Manner) (w : Word) (sh : Script) : List Atom × Script :=
  match w with
  | .text false s :: ps =>
    let isEnd (c : Char) := c == '/'
    match tilded sh isEnd s with
    | some front =>
      if s.toList.any isEnd ∨ ps = [] then
        let (back, sh) := expand run m ps sh
        (front ++ back, sh)
      else expand run m w sh
    | none => expand run m w sh
  | w => expand run m w sh

/-! ## Fields -/

/-- A field while it is read. -/
structure Splitting where
  finished : List (List Mark)
  current : Option (List Mark)
  /-- Was the last field ended by a blank? -/
  afterBlank : Bool

namespace Splitting

/-- Ends the field. -/
def close (x : Splitting) (blank : Bool) : Splitting :=
  match x.current with
  | some f => ⟨f.reverse :: x.finished, none, blank⟩
  | none => x

/-- Takes in an atom. -/
def step (separators : List Char) (x : Splitting) : Atom → Splitting
  | .mark => { x with current := some (x.current.getD []), afterBlank := false }
  | .cut => x.close true
  | .char c quoted splits =>
    if splits && separators.contains c then
      if c = ' ' ∨ c = '\t' ∨ c = '\n' then x.close true
      else
        match x.current with
        | some _ => x.close false
        | none =>
          if x.afterBlank then { x with afterBlank := false }
          else { x with finished := [] :: x.finished }
    else { x with current := some ((c, quoted) :: x.current.getD []), afterBlank := false }

end Splitting

/-- The fields of atoms. -/
def fieldsOf (separators : List Char) (atoms : List Atom) : List (List Mark) :=
  ((atoms.foldl (Splitting.step separators) ⟨[], none, false⟩).close false).finished.reverse

/-! ## Paths -/

/-- Could the characters be a pattern? -/
def isPattern (s : List Mark) : Bool :=
  s.any fun m => !m.2 && (m.1 == '*' || m.1 == '?' || m.1 == '[')

/-- The parts of a field between slashes. -/
def pathParts : List Mark → List Mark → List (List Mark)
  | part, [] => [part.reverse]
  | part, m :: s =>
    if m.1 = '/' then part.reverse :: pathParts [] s else pathParts (m :: part) s

/-- The characters without their quotes. -/
def bare (s : List Mark) : String := String.ofList (s.map (·.1))

/-- The names inside of a directory that a pattern fits; those with a point in front have to be
meant. -/
def namesFitting (fs : Files) (directory : String) (p : List Mark) : List String :=
  let names := match fs.locate ⟨lossyText (if directory = "" then "." else directory)⟩ with
    | .error _ => []
    | .ok l => (fs.children l).map toOctets
  let dotted := (p.head?.map (·.1)) = some '.'
  let names := if dotted then "." :: ".." :: names else names
  let q := patternOf p
  (names.filter fun n => (dotted || n.toList.head? ≠ some '.') && fits q n.toList).mergeSort
    fun a b => decide (a ≤ b)

/-- The paths that the parts of a pattern fit, after a front that is there. -/
def pathsFitting (fs : Files) : String → List (List Mark) → List String
  | front, [] => [front]
  | front, [p] =>
    if isPattern p then (namesFitting fs front p).map (front ++ ·)
    else if fs.exists ⟨lossyText (front ++ bare p)⟩ then [front ++ bare p] else []
  | front, p :: ps =>
    if isPattern p then
      (namesFitting fs front p).flatMap fun n =>
        if fs.exists ⟨lossyText (front ++ n ++ "/.")⟩ then pathsFitting fs (front ++ n ++ "/") ps
        else []
    else pathsFitting fs (front ++ bare p ++ "/") ps

/-- The words that a field stands for. -/
def matching (sh : Script) (field : List Mark) : List String :=
  if sh.has 'f' || !isPattern field then [bare field]
  else
    match pathsFitting sh.files "" (pathParts [] field) with
    | [] => [bare field]
    | found => found

/-! ## Words -/

/-- The words that one word expands to. -/
def wordsOf (run : Runner) (w : Word) (sh : Script) : List String × Script :=
  let (atoms, sh) := expandWord run ⟨true, false⟩ w sh
  ((fieldsOf sh.separators atoms).flatMap (matching sh), sh)

/-- The words that several words expand to. -/
def expandAll (run : Runner) : List Word → Script → List String × Script
  | [], sh => ([], sh)
  | w :: ws, sh =>
    let (front, sh) := wordsOf run w sh
    if sh.flow ≠ .go then ([], sh)
    else
      let (back, sh) := expandAll run ws sh
      (front ++ back, sh)

/-- A word that is not split. -/
def expandText (run : Runner) (w : Word) (sh : Script) : String × Script :=
  let (atoms, sh) := expandWord run ⟨false, false⟩ w sh
  (plainText atoms, sh)

/-- A word as a pattern. -/
def expandPattern (run : Runner) (w : Word) (sh : Script) : List Part × Script :=
  let (atoms, sh) := expandWord run ⟨false, false⟩ w sh
  (patternOf (marksOf atoms), sh)

end NetPlot.Emulation.Shell
