/-
  Reading scripts.

  1. **Words** — `pieces` reads the pieces of a word up to where its `Setting` says that it ends:
     a blank or an operator, a quote, a brace, two round brackets, or the end of the text.

  2. **Commands** — one function for each form of the grammar; `line?` reads the commands of one
     line with everything that is begun on it, because a script is run line by line.

  3. **Ends** — every reader takes fuel.  A text is read with more of it than it has characters
     that could use some up (`fuelFor`).
-/
import NetPlot.Emulation.Shell.Source
import NetPlot.Emulation.Tool.Condition
import NetPlot.Emulation.Tool.Format

namespace NetPlot.Emulation.Shell

open NetPlot.Text

/-! ## Settings -/

/-- Where pieces stand. -/
inductive Setting where
  | word
  /-- A word that only blanks end. -/
  | loose
  | quoted
  /-- Inside of braces, and whether these are in quotes. -/
  | braces (quoted : Bool)
  /-- An expression, and how many brackets of it are open. -/
  | expression (nesting : Nat)
  | document
  deriving DecidableEq, Repr

/-- Is text in the setting quoted? -/
def Setting.isQuoted : Setting → Bool
  | word => false
  | loose => false
  | quoted => true
  | braces q => q
  | expression _ => true
  | document => true

/-- The characters that a backslash takes their meaning from. -/
def Setting.escapable (t : Setting) (c : Char) : Bool :=
  match t with
  | .word => true
  | .loose => true
  | .quoted => "$`\"\\".toList.contains c
  | .braces q => if q then "$`\"\\\x7d".toList.contains c else true
  | .expression _ => "$`\"\\".toList.contains c
  | .document => "$`\\".toList.contains c

/-- Pieces with a text in front; neighbouring texts grow together. -/
def consText (quoted : Bool) (c : Char) : List Piece → List Piece
  | .text q s :: ps =>
    if q = quoted ∧ s ≠ "" then .text q (String.singleton c ++ s) :: ps
    else .text quoted (String.singleton c) :: .text q s :: ps
  | ps => .text quoted (String.singleton c) :: ps

/-- A quoted text in front of pieces. -/
def consQuoted (s : String) (ps : List Piece) : List Piece := .text true s :: ps

/-- Pieces that stood in quotes.  They are a word even if they are empty, unless they are nothing
but all arguments. -/
def quotedGroup : List Piece → List Piece
  | [.value true "@" .plain []] => [.value true "@" .plain []]
  | ps => .text true "" :: ps

/-- What is done with a value, by the mark after its name; whether there was a colon is known. -/
def useOf (colon : Bool) : Option Char → Option Use
  | some '-' => some (.otherwise colon)
  | some '=' => some (.assign colon)
  | some '?' => some (.demand colon)
  | some '+' => some (.instead colon)
  | _ => none

/-- What is done with a value in the broad form alone, and the length of its mark. -/
def broadUse? : List Char → Option (Use × Nat)
  | '/' :: '/' :: _ => some (.replace .all, 2)
  | '/' :: '#' :: _ => some (.replace .front, 2)
  | '/' :: '%' :: _ => some (.replace .back, 2)
  | '/' :: _ => some (.replace .first, 1)
  | '^' :: '^' :: _ => some (.letters true true, 2)
  | '^' :: _ => some (.letters true false, 1)
  | ',' :: ',' :: _ => some (.letters false true, 2)
  | ',' :: _ => some (.letters false false, 1)
  | _ => none

/-- The text in old quotes, up to the closing one, without the backslashes that it needs there. -/
def oldQuotes (inQuotes : Bool) : List Char → Option (List Char × List Char)
  | [] => none
  | '`' :: s => some ([], s)
  | '\\' :: '\n' :: s => oldQuotes inQuotes s
  | '\\' :: c :: s =>
    let kept := if c = '`' ∨ c = '\\' ∨ c = '$' ∨ (inQuotes ∧ c = '"') then [c] else ['\\', c]
    (oldQuotes inQuotes s).map fun (cs, r) => (kept ++ cs, r)
  | c :: s => (oldQuotes inQuotes s).map fun (cs, r) => (c :: cs, r)

/-- The text in quotes after a dollar sign, up to the closing one, with its escapes replaced. -/
def letterQuotes : Nat → List Char → Option (List Char × List Char)
  | 0, _ => none
  | _, [] => none
  | _, '\'' :: r => some ([], r)
  | fuel + 1, '\\' :: 'x' :: r =>
    match (r.take 2).takeWhile (isDigitIn 16) with
    | [] => (letterQuotes fuel r).map fun (t, r) => ('\\' :: 'x' :: t, r)
    | ds => (letterQuotes fuel (r.drop ds.length)).map fun (t, r) =>
      (Char.ofNat (numeral 16 ds) :: t, r)
  | fuel + 1, '\\' :: c :: r =>
    if "'\"?".toList.contains c then (letterQuotes fuel r).map fun (t, r) => (c :: t, r)
    else
      match Tool.escape? (c :: r) with
      | some (d, r) => (letterQuotes fuel r).map fun (t, r) => (d :: t, r)
      | none => (letterQuotes fuel r).map fun (t, r) => ('\\' :: c :: t, r)
  | fuel + 1, c :: r => (letterQuotes fuel r).map fun (t, r) => (c :: t, r)

/-- The lines of a text. -/
def linesOf (s : List Char) : List (List Char) := pieces '\n' [] s

/-- The name and the value of a word that assigns one.  In the broad form, a plus sign adds the value
to the old one. -/
def assignment? (dialect : Dialect) : List Piece → Option (String × List Piece)
  | .text false s :: ps =>
    match splitRun (· ≠ '=') s.toList with
    | (name, _ :: value) =>
      let ps := if value = [] then ps else .text false (String.ofList value) :: ps
      let front := String.ofList name.dropLast
      if isName (String.ofList name) then some (String.ofList name, ps)
      else if dialect = .broad ∧ name.getLast? = some '+' ∧ isName front then
        some (front, .value true front (.otherwise false) [] :: ps)
      else none
    | _ => none
  | _ => none

/-- Pieces up to a semicolon in a text, and those after it. -/
def cutPieces : List Piece → List Piece × List Piece
  | [] => ([], [])
  | .text q s :: ps =>
    match splitRun (· ≠ ';') s.toList with
    | (front, _ :: back) => ([.text q (String.ofList front)], .text q (String.ofList back) :: ps)
    | (_, []) =>
      let (front, back) := cutPieces ps
      (.text q s :: front, back)
  | p :: ps =>
    let (front, back) := cutPieces ps
    (p :: front, back)

/-! ## Braces -/

/-- A part of a word: an unquoted character, or anything else. -/
inductive Crumb where
  | char (c : Char)
  | piece (p : Piece)

/-- The parts of a word. -/
def crumbsOf (w : List Piece) : List Crumb :=
  w.flatMap fun
    | .text false s => s.toList.map .char
    | p => [.piece p]

/-- The word of parts. -/
def wordOf : List Crumb → List Piece
  | [] => []
  | .char c :: r => consText false c (wordOf r)
  | .piece p :: r => p :: wordOf r

/-- The texts between commas up to the closing brace, and what follows it; so many braces are open
inside, and the last text is read backwards. -/
def braceItems : Nat → List Crumb → List Crumb → Option (List (List Crumb) × List Crumb)
  | _, _, [] => none
  | depth, item, .char c :: r =>
    if c = '\x7d' ∧ depth = 0 then some ([item.reverse], r)
    else if c = ',' ∧ depth = 0 then
      (braceItems 0 [] r).map fun (items, r) => (item.reverse :: items, r)
    else
      let depth := if c = '\x7b' then depth + 1 else if c = '\x7d' then depth - 1 else depth
      braceItems depth (.char c :: item) r
  | depth, item, p :: r => braceItems depth (p :: item) r

/-- The texts from one number or letter to another one. -/
def braceRange? (item : List Crumb) : Option (List (List Crumb)) := do
  let cs ← item.mapM fun
    | .char c => some c
    | .piece _ => none
  let (a, b) ← cutAt ['.', '.'] cs
  let number? (s : List Char) : Option Int :=
    match s with
    | '-' :: c :: r => if (c :: r).all Char.isDigit then some (-(numeral 10 (c :: r) : Int)) else none
    | c :: r => if (c :: r).all Char.isDigit then some (numeral 10 (c :: r)) else none
    | [] => none
  let between (x y : Int) : List Int :=
    (List.range ((y - x).natAbs + 1)).map fun (i : Nat) => if x ≤ y then x + i else x - i
  match number? a, number? b, a, b with
  | some x, some y, _, _ => some ((between x y).map fun n => (toString n).toList.map .char)
  | _, _, [c], [d] =>
    if c.isAlpha && d.isAlpha then
      some ((between c.toNat d.toNat).map fun n => [.char (Char.ofNat n.toNat)])
    else none
  | _, _, _, _ => none

/-- The words that the braces of a word mean. -/
def expandBraces : Nat → List Crumb → List (List Crumb)
  | 0, w => [w]
  | _, [] => [[]]
  | fuel + 1, .char '\x7b' :: r =>
    let found : Option (List (List Crumb) × List Crumb) :=
      match braceItems 0 [] r with
      | some ([item], r) => (braceRange? item).map (·, r)
      | some (items, r) => some (items.flatMap (expandBraces fuel), r)
      | none => none
    match found with
    | some (items, r) => items.flatMap fun a => (expandBraces fuel r).map (a ++ ·)
    | none => (expandBraces fuel r).map (.char '\x7b' :: ·)
  | fuel + 1, p :: r => (expandBraces fuel r).map (p :: ·)

/-- The words that a word means in a form of the language, before anything else is expanded. -/
def wordsFor (dialect : Dialect) (w : List Piece) : List (List Piece) :=
  let crumbs := crumbsOf w
  let isOpening : Crumb → Bool
    | .char c => c == '\x7b'
    | .piece _ => false
  if dialect = .broad ∧ crumbs.any isOpening then
    (expandBraces (crumbs.length + 1) crumbs).map wordOf
  else [w]

/-! ## Words -/

/-- The text of a word that has neither quotes nor values. -/
def plainWord? : List Piece → Option String
  | [.text false s] => some s
  | _ => none

/-- The text of a word with its quotes taken away. -/
def bareText : List Piece → String
  | [] => ""
  | .text _ s :: ps => s ++ bareText ps
  | _ :: ps => bareText ps

/-- Is some piece of a word quoted? -/
def hasQuotes (w : List Piece) : Bool :=
  w.any fun
    | .text q _ => q
    | _ => false

/-- The lines of a document up to its mark, the number of lines that this takes, and what follows
the mark. -/
def documentLines (strip : Bool) (mark : List Char) :
    List (List Char) → List (List Char) × Nat × Option (List (List Char))
  | [] => ([], 0, none)
  | l :: ls =>
    let l := if strip then l.dropWhile (· = '\t') else l
    if l = mark then ([], 1, some ls)
    else
      let (body, n, r) := documentLines strip mark ls
      (l :: body, n + 1, r)

/-- Lines as a text. -/
def unlines (ls : List (List Char)) : List Char := ['\n'].intercalate ls

/-- Cuts the document out that stands below the line. -/
def cutDocument (strip : Bool) (mark : List Char) : Reader (List Char) := do
  let src ← get
  match splitRun (· ≠ '\n') src.rest with
  | (line, _ :: below) =>
    let (body, n, r) := documentLines strip mark (linesOf below)
    match r with
    | some r => set { src with rest := line ++ '\n' :: unlines r, hidden := src.hidden + n }
    | none => set { src with rest := line ++ ['\n'], hidden := src.hidden + n - 1 }
    let body := if r.isNone && body.getLast? = some [] then body.dropLast else body
    return if body = [] then [] else unlines body ++ ['\n']
  | (line, []) =>
    set { src with rest := line }
    return []

/-- The complaint about a brace that is not closed. -/
def missingBrace : String := "Missing '\x7d'"

/-- Reads something; a brace that is not closed is complained about at its first line, and in the
broad form any mark. -/
def fromLine {α : Type} (r : Reader α) : Reader α := fun src =>
  match r src with
  | .error f =>
    let early := f.message = "Syntax error: " ++ missingBrace
      ∨ (afterMark? unmatched.toList f.message.toList).isSome
    .error (if early then { f with line := src.line } else f)
  | x => x

/-- Words that cannot name functions. -/
def reservedNames : List String :=
  [".", ":", "break", "continue", "eval", "exec", "exit", "export", "readonly", "return", "set",
   "shift", "times", "trap", "unset"]

mutual

/-- The pieces up to where the setting ends, without the mark that ends it. -/
def piecesIn : Nat → Setting → Reader (List Piece)
  | 0, _ => refuse "too deep"
  | fuel + 1, t => do
    match ← ahead with
    | [] =>
      match t with
      | .word => return []
      | .document => return []
      | .loose => return []
      | .quoted => refuseWithout "\"" "Unterminated quoted string"
      | .braces false => refuseWithout "\x7d" missingBrace
      | .braces true => refuseWithout "\"" "Unterminated quoted string"
      | .expression _ => refuse "Missing '))'"
    | '\\' :: r =>
      match r with
      | [] =>
        skip 1
        return consText true '\\' (← piecesIn fuel t)
      | c :: _ =>
        skip 1
        if t.escapable c then
          modify Source.tail
          return consText true c (← piecesIn fuel t)
        else return consText true '\\' (← piecesIn fuel t)
    | '$' :: '\'' :: r =>
      if (← isBroad) && !t.isQuoted then
        match letterQuotes (r.length + 1) r with
        | some (cs, r') =>
          skip 2
          let src ← get
          set { src with rest := r', line := src.line + (r.take (r.length - r'.length)).count '\n' }
          return consQuoted (String.ofList cs) (← piecesIn fuel t)
        | none => refuseWithout "'" "Unterminated quoted string"
      else
        skip 1
        let p ← dollar fuel t
        return p :: (← piecesIn fuel t)
    | '$' :: _ =>
      skip 1
      let p ← dollar fuel t
      return p :: (← piecesIn fuel t)
    | '`' :: _ =>
      skip 1
      let src ← get
      match oldQuotes t.isQuoted src.rest with
      | none =>
        set { src with rest := [], line := src.line + src.rest.count '\n' }
        refuseWithout "`" "EOF in backquote substitution"
      | some (body, r) =>
        let n := (src.rest.take (src.rest.length - r.length)).count '\n'
        set { src with rest := body, hidden := 0 }
        let c ← nested fuel
        if !(← get).rest.isEmpty then unexpected none
        set { src with rest := r, line := src.line + n }
        return .output t.isQuoted c :: (← piecesIn fuel t)
    | c :: _ =>
      match t with
      | .word =>
        if isBreak c then return []
        else if c = '\'' then literal fuel t
        else if c = '"' then inQuotes fuel t
        else
          skip 1
          return consText false c (← piecesIn fuel t)
      | .loose =>
        if isGap c || c = '\n' then return []
        else if c = '\'' then literal fuel t
        else if c = '"' then inQuotes fuel t
        else
          skip 1
          return consText false c (← piecesIn fuel t)
      | .quoted =>
        if c = '"' then return []
        else
          skip 1
          return consText true c (← piecesIn fuel t)
      | .braces q =>
        if c = '\x7d' then return []
        else if c = '"' then inQuotes fuel t
        else if c = '\'' ∧ !q then literal fuel t
        else
          skip 1
          return consText q c (← piecesIn fuel t)
      | .expression n =>
        skip 1
        if c = '(' then return consText true c (← piecesIn fuel (.expression (n + 1)))
        else if c = ')' then
          if n = 0 then
            if (← peek) = some ')' then
              skip 1
              return []
            else return consText true c (← piecesIn fuel t)
          else return consText true c (← piecesIn fuel (.expression (n - 1)))
        else return consText true c (← piecesIn fuel t)
      | .document =>
        skip 1
        return consText true c (← piecesIn fuel t)

/-- A text in single quotes, and the pieces after it. -/
def literal : Nat → Setting → Reader (List Piece)
  | 0, _ => refuse "too deep"
  | fuel + 1, t => do
    skip 1
    let src ← get
    match splitRun (· ≠ '\'') src.rest with
    | (cs, _ :: r) =>
      set { src with rest := r, line := src.line + cs.count '\n' }
      return consQuoted (String.ofList cs) (← piecesIn fuel t)
    | (cs, []) =>
      set { src with rest := [], line := src.line + cs.count '\n' }
      refuseWithout "'" "Unterminated quoted string"

/-- Pieces in double quotes, and those after them. -/
def inQuotes : Nat → Setting → Reader (List Piece)
  | 0, _ => refuse "too deep"
  | fuel + 1, t => do
    skip 1
    let ps ← piecesIn fuel .quoted
    skip 1
    return quotedGroup ps ++ (← piecesIn fuel t)

/-- A piece after a dollar sign. -/
def dollar : Nat → Setting → Reader Piece
  | 0, _ => refuse "too deep"
  | fuel + 1, t => do
    let q := t.isQuoted
    match ← ahead with
    | '(' :: '(' :: _ =>
      skip 2
      return .number q (← piecesIn fuel (.expression 0))
    | '(' :: _ =>
      skip 1
      let c ← nested fuel
      if ← accept ")" then return .output q c
      else unexpected (some "\")\"")
    | '\x7b' :: _ =>
      skip 1
      braced fuel t
    | c :: _ =>
      if isNameStart c then return .value q (← run isNameChar) .plain []
      else if isSpecial c then
        skip 1
        return .value q (String.singleton c) .plain []
      else return .text q "$"
    | [] => return .text q "$"

/-- A value in braces, after the opening one. -/
def braced : Nat → Setting → Reader Piece
  | 0, _ => refuse "too deep"
  | fuel + 1, t => do
    let q := t.isQuoted
    let s ← ahead
    let name ← match s with
      | '#' :: c :: r =>
        if isNameChar c ∨ (isSpecial c ∧ r.head? = some '\x7d') then
          skip 1
          let name ← if isNameStart c then run isNameChar
            else if c.isDigit then run Char.isDigit
            else do
              skip 1
              pure (String.singleton c)
          if ← accept "\x7d" then return .value q name .length []
          else pure ""
        else
          skip 1
          pure "#"
      | c :: _ =>
        if isNameStart c then run isNameChar
        else if c.isDigit then run Char.isDigit
        else if isSpecial c then
          skip 1
          pure (String.singleton c)
        else pure ""
      | [] => pure ""
    if name = "" then
      let _ ← piecesIn fuel (.braces q)
      skip 1
      return .value q "" .senseless []
    let s ← ahead
    match s with
    | '\x7d' :: _ =>
      skip 1
      return .value q name .plain []
    | ':' :: m :: _ =>
      match useOf true (some m) with
      | some u => skip 2; rest fuel q name u (.braces q)
      | none =>
        if ← isBroad then
          skip 1
          rest fuel q name .portion (.braces true)
        else
          skip 2
          rest fuel q name .senseless (.braces q)
    | '%' :: '%' :: _ => skip 2; rest fuel q name (.strip false true) (.braces false)
    | '%' :: _ => skip 1; rest fuel q name (.strip false false) (.braces false)
    | '#' :: '#' :: _ => skip 2; rest fuel q name (.strip true true) (.braces false)
    | '#' :: _ => skip 1; rest fuel q name (.strip true false) (.braces false)
    | m :: _ =>
      match useOf false (some m) with
      | some u => skip 1; rest fuel q name u (.braces q)
      | none =>
        match if ← isBroad then broadUse? s else none with
        | some (u, n) => skip n; rest fuel q name u (.braces false)
        | none => skip 1; rest fuel q name .senseless (.braces q)
    | [] => rest fuel q name .senseless (.braces q)

/-- The word in braces and the closing brace. -/
def rest : Nat → Bool → String → Use → Setting → Reader Piece
  | 0, _, _, _, _ => refuse "too deep"
  | fuel + 1, q, name, u, t => do
    let w ← piecesIn fuel t
    skip 1
    return .value q name u w

/-- The commands of a bracket in a word; there may be none. -/
def nested : Nat → Reader Command
  | 0 => refuse "too deep"
  | fuel + 1 => do
    skipLines
    match ← ahead with
    | [] => return .nothing
    | ')' :: _ => return .nothing
    | _ => row fuel

/-- A word. -/
def word : Nat → Reader (List Piece)
  | 0 => refuse "too deep"
  | fuel + 1 => fromLine (piecesIn fuel .word)

/-- A word that has to be there. -/
def someWord : Nat → Reader (List Piece)
  | 0 => refuse "too deep"
  | fuel + 1 => do
    skipGaps
    match ← peek with
    | none => unexpected none
    | some c => if isBreak c then unexpected none else word fuel

/-- A redirection at the front; the broad form has one that means two. -/
def redirection? : Nat → Reader (Option (List Redirection))
  | 0 => refuse "too deep"
  | fuel + 1 => do
    let s ← ahead
    let both (mode : Mode) (w : List Piece) : List Redirection :=
      [.file mode 1 w, .duplicate 2 [.text false "1"]]
    if ← isBroad then
      match s with
      | '&' :: '>' :: '>' :: _ =>
        skip 3
        return some (both .append (← someWord fuel))
      | '&' :: '>' :: _ =>
        skip 2
        return some (both .write (← someWord fuel))
      | '<' :: '<' :: '<' :: _ =>
        skip 3
        return some [.here 0 (.text true "" :: (← someWord fuel) ++ [.text true "\n"])]
      | _ => pure ()
    (Option.map ([·])) <$> plainRedirection? fuel

/-- A redirection of the plain form at the front. -/
def plainRedirection? : Nat → Reader (Option Redirection)
  | 0 => refuse "too deep"
  | fuel + 1 => do
    let s ← ahead
    let (given, s) := match s with
      | d :: c :: r =>
        if d.isDigit ∧ (c = '<' ∨ c = '>') then (some (d.toNat - '0'.toNat), c :: r)
        else (none, s)
      | s => (none, s)
    let front := if given.isSome then 1 else 0
    match s with
    | '>' :: '>' :: _ =>
      skip (front + 2)
      return some (.file .append (given.getD 1) (← someWord fuel))
    | '>' :: '|' :: _ =>
      skip (front + 2)
      return some (.file .force (given.getD 1) (← someWord fuel))
    | '>' :: '&' :: _ =>
      skip (front + 2)
      return some (.duplicate (given.getD 1) (← someWord fuel))
    | '>' :: _ =>
      skip (front + 1)
      return some (.file .write (given.getD 1) (← someWord fuel))
    | '<' :: '<' :: '-' :: _ =>
      skip (front + 3)
      return some (← document fuel true (given.getD 0))
    | '<' :: '<' :: _ =>
      skip (front + 2)
      return some (← document fuel false (given.getD 0))
    | '<' :: '&' :: _ =>
      skip (front + 2)
      return some (.duplicate (given.getD 0) (← someWord fuel))
    | '<' :: '>' :: _ =>
      skip (front + 2)
      return some (.file .both (given.getD 0) (← someWord fuel))
    | '<' :: _ =>
      skip (front + 1)
      return some (.file .read (given.getD 0) (← someWord fuel))
    | _ => return none

/-- A document below the line, after its mark of redirection. -/
def document : Nat → Bool → Nat → Reader Redirection
  | 0, _, _ => refuse "too deep"
  | fuel + 1, strip, stream => do
    let mark ← someWord fuel
    let body ← cutDocument strip (bareText mark).toList
    if hasQuotes mark then return .here stream [.text true (String.ofList body)]
    else
      let src ← get
      set { src with rest := body, hidden := 0 }
      let ps ← piecesIn fuel .document
      set src
      return .here stream ps

/-- Redirections for as long as there are any. -/
def redirections : Nat → Reader (List Redirection)
  | 0 => refuse "too deep"
  | fuel + 1 => do
    skipGaps
    match ← redirection? fuel with
    | some xs => return xs ++ (← redirections fuel)
    | none => return []

/-- The parts of a simple command, or a function: what was read of it is known. -/
def simple : Nat → Option Nat → List (String × List Piece) → List (List Piece) →
    List Redirection → Reader Command
  | 0, _, _, _, _ => refuse "too deep"
  | fuel + 1, line, as, ws, xs => do
    skipGaps
    match ← redirection? fuel with
    | some more =>
      let line := line.getD (← get).line
      simple fuel (some line) as ws (xs ++ more)
    | none =>
      match ← peek with
      | some '(' =>
        match as, ws, xs with
        | [], [w], [] =>
          skip 1
          skipGaps
          if !(← accept ")") then unexpected (some "\")\"")
          let name := (plainWord? w).getD ""
          if !isName name || reservedNames.contains name then refuse "Bad function name"
          skipLines
          return .define name (← command fuel)
        | _, _, _ => return .simple (line.getD 0) as ws xs
      | none => return .simple (line.getD 0) as ws xs
      | some c =>
        if isBreak c then return .simple (line.getD 0) as ws xs
        else
          let w ← word fuel
          let line := line.getD (← get).line
          match ws, assignment? (← get).dialect w with
          | [], some a => simple fuel (some line) (as ++ [a]) ws xs
          | ws, _ => simple fuel (some line) as (ws ++ wordsFor (← get).dialect w) xs

/-- A command with everything inside it. -/
def command : Nat → Reader Command
  | 0 => refuse "too deep"
  | fuel + 1 => do
    skipGaps
    let line := (← get).line
    let s ← ahead
    match ← keyword? with
    | some "if" =>
      skip 2
      closed fuel line (← choice fuel)
    | some "while" =>
      skip 5
      closed fuel line (← cycle fuel false)
    | some "until" =>
      skip 5
      closed fuel line (← cycle fuel true)
    | some "for" =>
      skip 3
      closed fuel line (← forEach fuel line)
    | some "case" =>
      skip 4
      closed fuel line (← selection fuel line)
    | some "[[" =>
      skip 2
      let c ← conditionRow fuel
      skipLines
      if !(← acceptText "]]") then strange
      closed fuel line (.test line c)
    | some "function" =>
      skip 8
      skipGaps
      let w ← word fuel
      skipGaps
      if ← accept "(" then
        skipGaps
        let _ ← accept ")"
      skipLines
      return .define ((plainWord? w).getD "") (← command fuel)
    | some "\x7b" =>
      skip 1
      let c ← row fuel
      if !(← acceptWord "\x7d") then unexpected (some "\"\x7d\"")
      closed fuel line c
    | some _ => unexpected none
    | none =>
      match s with
      | '(' :: '(' :: _ =>
        if ← isBroad then
          skip 2
          let e ← piecesIn fuel (.expression 0)
          closed fuel line (.calculate line e)
        else
          skip 1
          let c ← row fuel
          skipGaps
          if !(← accept ")") then unexpected (some "\")\"")
          return .group line true c (← redirections fuel)
      | '(' :: _ =>
        skip 1
        let c ← row fuel
        skipGaps
        if !(← accept ")") then unexpected (some "\")\"")
        return .group line true c (← redirections fuel)
      | [] => unexpected none
      | c :: _ =>
        if isBreak c ∧ c ≠ '<' ∧ c ≠ '>' then unexpected none
        else simple fuel none [] [] []

/-- Conditions joined by `||`. -/
def conditionRow : Nat → Reader Condition
  | 0 => refuse "too deep"
  | fuel + 1 => do
    let a ← conditionPair fuel
    skipLines
    if ← accept "||" then return .either a (← conditionRow fuel) else return a

/-- Conditions joined by `&&`. -/
def conditionPair : Nat → Reader Condition
  | 0 => refuse "too deep"
  | fuel + 1 => do
    let a ← conditionOne fuel
    skipLines
    if ← accept "&&" then return .both a (← conditionPair fuel) else return a

/-- A condition without joints. -/
def conditionOne : Nat → Reader Condition
  | 0 => refuse "too deep"
  | fuel + 1 => do
    skipLines
    if ← acceptText "!" then return .not (← conditionOne fuel)
    else if ← accept "(" then
      let c ← conditionRow fuel
      skipLines
      if !(← accept ")") then strange
      return c
    else
      let w ← someWord fuel
      skipGaps
      let s ← ahead
      let op := String.ofList (s.takeWhile fun c => !isGap c && c ≠ '\n')
      match plainWord? w with
      | some u =>
        if Tool.unaryNames.contains u ∧ op ≠ "]]" ∧ op ≠ "&&" ∧ op ≠ "||" ∧ op ≠ ")" then
          return .unary u (← someWord fuel)
      | none => pure ()
      if op = "==" ∨ Tool.binaryNames.contains op then
        skip op.length
        return .binary op w (← someWord fuel)
      else if op = "=~" then
        skip 2
        skipGaps
        return .binary op w (← piecesIn fuel .loose)
      else return .word w

/-- A command that is closed, with its redirections. -/
def closed : Nat → Nat → Command → Reader Command
  | 0, _, _ => refuse "too deep"
  | fuel + 1, line, c => do
    match ← redirections fuel with
    | [] => return c
    | xs => return .group line false c xs

/-- A choice after its `if` or `elif`, up to its end. -/
def choice : Nat → Reader Command
  | 0 => refuse "too deep"
  | fuel + 1 => do
    let c ← row fuel
    if !(← acceptWord "then") then unexpected (some "\"then\"")
    let y ← row fuel
    if ← acceptWord "elif" then return .choose c y (← choice fuel)
    else if ← acceptWord "else" then
      let n ← row fuel
      if !(← acceptWord "fi") then unexpected (some "\"fi\"")
      return .choose c y n
    else if ← acceptWord "fi" then return .choose c y .nothing
    else unexpected (some "\"fi\"")

/-- A loop after its `while` or `until`. -/
def cycle : Nat → Bool → Reader Command
  | 0, _ => refuse "too deep"
  | fuel + 1, toHolding => do
    let c ← row fuel
    if !(← acceptWord "do") then unexpected (some "\"do\"")
    let body ← row fuel
    if !(← acceptWord "done") then unexpected (some "\"done\"")
    return .cycle toHolding c body

/-- A loop after its `for`. -/
def forEach : Nat → Nat → Reader Command
  | 0, _ => refuse "too deep"
  | fuel + 1, line => do
    skipGaps
    if (← isBroad) && (← accept "((") then
      let (first, r) := cutPieces (← piecesIn fuel (.expression 0))
      let (condition, r) := cutPieces r
      let (step, _) := cutPieces r
      skipGaps
      let _ ← accept ";"
      skipLines
      let closing ← if ← acceptWord "do" then pure "done"
        else if ← acceptWord "\x7b" then pure "\x7d"
        else unexpected none
      let body ← row fuel
      if !(← acceptWord closing) then unexpected none
      return .stepped line first condition step body
    let w ← word fuel
    let name := (plainWord? w).getD ""
    if !isName name then
      if w.isEmpty ∧ (← peek) = some '\n' then skip 1
      refuse "Bad for loop variable"
    skipGaps
    let mark ← peek
    skipLines
    let ws ← if ← acceptWord "in" then do
        let ws ← words fuel
        skipGaps
        match ← peek with
        | some '\n' => skip 1
        | some ';' => if !(← accept ";;") then skip 1 else unexpected none
        | _ => unexpected none
        pure (some ws)
      else do
        if mark = some ';' then skip 1
        pure none
    skipLines
    if !(← acceptWord "do") then unexpected (some "\"do\"")
    let body ← row fuel
    if !(← acceptWord "done") then unexpected (some "\"done\"")
    return .each line name ws body

/-- Words for as long as there are any. -/
def words : Nat → Reader (List (List Piece))
  | 0 => refuse "too deep"
  | fuel + 1 => do
    skipGaps
    match ← peek with
    | none => return []
    | some c =>
      if isBreak c then return []
      else
        let w ← word fuel
        return wordsFor (← get).dialect w ++ (← words fuel)

/-- A selection after its `case`. -/
def selection : Nat → Nat → Reader Command
  | 0, _ => refuse "too deep"
  | fuel + 1, line => do
    skipGaps
    let w ← match ← peek with
      | none => unexpected (some "word")
      | some c => if isBreak c then unexpected (some "word") else word fuel
    skipLines
    if !(← acceptWord "in") then unexpected (some "\"in\"")
    return .select line w (← arms fuel)

/-- The arms of a selection up to its end. -/
def arms : Nat → Reader (List (List (List Piece) × Command))
  | 0 => refuse "too deep"
  | fuel + 1 => do
    skipLines
    if ← acceptWord "esac" then return []
    else
      if ← accept "(" then skipGaps
      let ps ← patterns fuel
      skipGaps
      if !(← accept ")") then
        if (← keyword?).isSome then refuse "word unexpected (expecting \")\")"
        else unexpected (some "\")\"")
      skipLines
      let body ← match ← keyword? with
        | some "esac" => pure .nothing
        | _ => if (afterMark? [';', ';'] (← ahead)).isSome then pure .nothing else row fuel
      skipLines
      if ← accept ";;" then return (ps, body) :: (← arms fuel)
      else if ← acceptWord "esac" then return [(ps, body)]
      else unexpected (some "\";;\"")

/-- The patterns of an arm. -/
def patterns : Nat → Reader (List (List Piece))
  | 0 => refuse "too deep"
  | fuel + 1 => do
    let w ← word fuel
    if w.isEmpty then skipToken
    skipGaps
    match ← ahead with
    | '|' :: '|' :: _ => return [w]
    | '|' :: _ =>
      skip 1
      skipGaps
      return w :: (← patterns fuel)
    | _ => return [w]

/-- Commands joined by pipes. -/
def pipeline : Nat → Reader Command
  | 0 => refuse "too deep"
  | fuel + 1 => do
    skipGaps
    let negated ← acceptWord "!"
    let parts ← piped fuel
    let c := match parts with
      | [c] => c
      | cs => .pipe cs
    return if negated then .negate c else c

/-- The parts of a pipe. -/
def piped : Nat → Reader (List Command)
  | 0 => refuse "too deep"
  | fuel + 1 => do
    let c ← command fuel
    skipGaps
    match ← ahead with
    | '|' :: '|' :: _ => return [c]
    | '|' :: m :: _ =>
      let withErrors := m == '&' && (← isBroad)
      skip (if withErrors then 2 else 1)
      skipLines
      let line := (← get).line
      let c : Command := if withErrors then .group line false c [.duplicate 2 [.text false "1"]] else c
      return c :: (← piped fuel)
    | '|' :: _ =>
      skip 1
      skipLines
      return c :: (← piped fuel)
    | _ => return [c]

/-- Commands joined by `&&` and `||`. -/
def joined : Nat → Reader Command
  | 0 => refuse "too deep"
  | fuel + 1 => do joinedTo fuel (← pipeline fuel)

/-- What is joined to a command. -/
def joinedTo : Nat → Command → Reader Command
  | 0, _ => refuse "too deep"
  | fuel + 1, a => do
    skipGaps
    if ← accept "&&" then
      skipLines
      joinedTo fuel (.both a (← pipeline fuel))
    else if ← accept "||" then
      skipLines
      joinedTo fuel (.either a (← pipeline fuel))
    else return a

/-- Commands up to the end of what they stand in. -/
def row : Nat → Reader Command
  | 0 => refuse "too deep"
  | fuel + 1 => do
    skipLines
    if (← peek).isNone then return .nothing
    let a ← joined fuel
    skipGaps
    let a ← match ← ahead with
      | '&' :: _ => do
        skip 1
        pure (.background a)
      | ';' :: ';' :: _ => return a
      | ';' :: _ => do
        skip 1
        pure a
      | '\n' :: _ => pure a
      | _ => return a
    skipLines
    match ← ahead with
    | [] => return a
    | ')' :: _ => return a
    | ';' :: ';' :: _ => return a
    | _ =>
      match ← keyword? with
      | some k =>
        if ["then", "elif", "else", "fi", "do", "done", "esac", "\x7d"].contains k then return a
        else return .chain a (← row fuel)
      | none => return .chain a (← row fuel)

end

/-- The commands of the rest of a line, after the first one. -/
def lineAfter : Nat → Nat → Command → Reader Command
  | 0, _, c => return c
  | n + 1, fuel, c => do
    skipGaps
    match ← ahead with
    | [] => return c
    | '\n' :: _ =>
      skip 1
      return c
    | '&' :: '&' :: _ => unexpected none
    | ';' :: ';' :: _ => unexpected none
    | m :: _ =>
      if m = '&' ∨ m = ';' then
        skip 1
        let c := if m = '&' then .background c else c
        skipGaps
        match ← ahead with
        | [] => return c
        | '\n' :: _ =>
          skip 1
          return c
        | _ => return .chain c (← lineAfter n fuel (← joined fuel))
      else unexpected none

/-- Enough fuel to read a text. -/
def fuelFor (s : List Char) : Nat := 24 * (s.length + 4)

/-- The commands of a line; none at the end of the script. -/
def line? : Reader (Option Command) := do
  let fuel := fuelFor (← get).rest
  skipGaps
  match ← ahead with
  | [] => return none
  | '\n' :: _ =>
    skip 1
    return some .nothing
  | _ => return some (← lineAfter fuel fuel (← joined fuel))

end NetPlot.Emulation.Shell
