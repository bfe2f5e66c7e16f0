/-
  Tools that read texts line by line, or character by character, and write them changed.
-/
import NetPlot.Emulation.Shell.Pattern
import NetPlot.Emulation.Tool.Format
import NetPlot.Emulation.Tool.Tree

namespace NetPlot.Emulation.Tool

open NetPlot.Text NetPlot.Emulation.Shell

/-! ## Whole texts -/

/-- A character in letters that can be seen. -/
def visible (tabs : Bool) (c : Char) : String :=
  let low (c : Char) : String :=
    if c < ' ' then String.ofList ['^', Char.ofNat (c.toNat + 64)]
    else if c = '\x7f' then "^?"
    else String.singleton c
  if c = '\n' ∨ (c = '\t' ∧ !tabs) then String.singleton c
  else if c.toNat < 128 then low c
  else "M-" ++ low (Char.ofNat (c.toNat - 128))

/-- `cat`: texts one after the other. -/
def cat : Tool Unit := do
  let g ← given "AbeEnstTuv"
    [("show-all", 'A'), ("number-nonblank", 'b'), ("show-ends", 'E'), ("number", 'n'),
     ("squeeze-blank", 's'), ("show-tabs", 'T'), ("show-nonprinting", 'v')] 1
  let ends := g.has 'A' || g.has 'e' || g.has 'E'
  let tabs := g.has 'A' || g.has 't' || g.has 'T'
  let hidden := g.has 'A' || g.has 'e' || g.has 't' || g.has 'v'
  if g.options.isEmpty then forContents g.operands fun _ s => say s
  else
    let mut count := 0
    let mut blank := false
    for name in (if g.operands.isEmpty then ["-"] else g.operands) do
      match ← contentOf name with
      | .error e => fault (name ++ ": " ++ e.reason)
      | .ok s =>
        for line in fullLines s do
          let isBlank := line == "\n"
          if !(g.has 's' && isBlank && blank) then
            if (g.has 'b' && !isBlank) || (g.has 'n' && !g.has 'b') then
              count := count + 1
              say (padLeft 6 count.repr ++ "\t")
            let cs := line.toList
            let body := if cs.getLast? = some '\n' then cs.dropLast else cs
            let text := body.map fun c =>
              if hidden then visible tabs c
              else if tabs && c == '\t' then "^I"
              else String.singleton c
            let ending := if cs.getLast? = some '\n' then (if ends then "$\n" else "\n") else ""
            say (String.join text ++ ending)
          blank := isBlank

/-- `tac`: lines from the last to the first. -/
def tac : Tool Unit := do
  let g ← given "" [] 1
  for name in (if g.operands.isEmpty then ["-"] else g.operands) do
    match ← contentOf name with
    | .ok s => say (String.join (fullLines s).reverse)
    | .error e => fault ("failed to open " ++ quote name ++ " for reading: " ++ e.reason)

/-- `rev`: lines with their characters from the last to the first. -/
def rev : Tool Unit := do
  let g ← given "" [] 1
  for name in (if g.operands.isEmpty then ["-"] else g.operands) do
    match ← contentOf name with
    | .ok s =>
      for line in fullLines s do
        let (body, ending) := splitRun (· ≠ '\n') line.toList
        say (toOctets (String.ofList (lossyText (String.ofList body)).toList.reverse)
          ++ String.ofList ending)
    | .error e => fault ("cannot open " ++ name ++ ": " ++ e.reason)

/-- `tee`: copies the input to files and to the output. -/
def tee : Tool Unit := do
  let g ← given "aip" [("append", 'a'), ("ignore-interrupts", 'i')] 1
  let input ← takeInput
  say input
  for n in g.operands do
    let old ← match g.has 'a', (← get).files.read (pathOf n) with
      | true, .ok b => pure (octetsOf b)
      | _, _ => pure ""
    match ← writeFile n (old ++ input) with
    | .ok () => pure ()
    | .error e => fault (n ++ ": " ++ e.reason)

/-- `nl`: numbered lines. -/
def nl : Tool Unit := do
  let g ← given "b:w:s:n:v:i:p" [("body-numbering", 'b'), ("number-width", 'w')] 1
  let width := (digits? ((g.value? 'w').getD "6")).getD 6
  let gap := (g.value? 's').getD "\t"
  let all := g.value? 'b' = some "a"
  let mut n := 1
  for name in (if g.operands.isEmpty then ["-"] else g.operands) do
    match ← contentOf name with
    | .error e => fault (name ++ ": " ++ e.reason)
    | .ok s =>
      for line in linesOf s do
        if line.isEmpty && !all then say (padLeft (width + gap.length) "" ++ "\n")
        else
          say (padLeft width n.repr ++ gap ++ line ++ "\n")
          n := n + 1

/-! ## Parts -/

/-- An amount of lines or octets. -/
structure Amount where
  octets : Bool
  sign : Option Char
  count : Nat

/-- The factor that a letter behind a number stands for. -/
def factor? (s : String) : Option Nat :=
  match s with
  | "" => some 1
  | "b" => some 512
  | "k" => some 1024
  | "K" => some 1024
  | "kB" => some 1000
  | "M" => some 1048576
  | _ => none

/-- The amount that a text says. -/
def amount? (octets : Bool) (s : String) : Option Amount := do
  let (sign, r) := match s.toList with
    | '-' :: r => (some '-', r)
    | '+' :: r => (some '+', r)
    | r => (none, r)
  let (ds, unit) := splitRun Char.isDigit r
  if ds.isEmpty then none
  let f ← factor? (String.ofList unit)
  return ⟨octets, sign, numeral 10 ds * f⟩

/-- Arguments in which a first one such as `-5` or `+5` is written as an option. -/
def oldStyle (arguments : List String) : List String :=
  match arguments with
  | a :: r =>
    match a.toList with
    | sign :: c :: cs =>
      if (sign = '-' ∨ sign = '+') ∧ c.isDigit then
        let (ds, unit) := splitRun Char.isDigit (c :: cs)
        let n := (if sign = '+' then "+" else "") ++ String.ofList ds
        if unit = [] then "-n" :: n :: r
        else if unit = ['c'] then "-c" :: n :: r
        else arguments
      else arguments
    | _ => arguments
  | [] => []

/-- The amount that options ask for. -/
def amountOf (g : Given) : Tool Amount := do
  let wanted := g.options.reverse.find? fun o => o.1 == 'n' || o.1 == 'c'
  match wanted with
  | none => return ⟨false, none, 10⟩
  | some (c, v) =>
    match amount? (c == 'c') v with
    | some a => return a
    | none =>
      refuse ("invalid number of " ++ (if c == 'c' then "bytes" else "lines") ++ ": " ++ quote v) 1

/-- Writes a part of each text, with titles if there are several. -/
def parts (g : Given) (part : String → String) : Tool Unit := do
  let titled := (g.operands.length > 1 && !g.has 'q') || g.has 'v'
  let mut first := true
  for name in (if g.operands.isEmpty then ["-"] else g.operands) do
    match ← contentOf name with
    | .error .isDirectory =>
      if titled then say ((if first then "" else "\n") ++ "==> " ++ name ++ " <==\n")
      first := false
      fault ("error reading " ++ quote name ++ ": " ++ OsError.isDirectory.reason)
    | .error e => fault ("cannot open " ++ quote name ++ " for reading: " ++ e.reason)
    | .ok s =>
      if titled then
        let title := if name = "-" then "standard input" else name
        say ((if first then "" else "\n") ++ "==> " ++ title ++ " <==\n")
      first := false
      say (part s)

/-- The first part of a text. -/
def frontPart (a : Amount) (s : String) : String :=
  let cut {α : Type} (xs : List α) : List α :=
    if a.sign = some '-' then xs.take (xs.length - a.count) else xs.take a.count
  if a.octets then String.ofList (cut s.toList) else String.join (cut (fullLines s))

/-- The last part of a text. -/
def backPart (a : Amount) (s : String) : String :=
  let cut {α : Type} (xs : List α) : List α :=
    if a.sign = some '+' then xs.drop (a.count - 1) else xs.drop (xs.length - a.count)
  if a.octets then String.ofList (cut s.toList) else String.join (cut (fullLines s))

/-- Options of the tools for parts of texts. -/
def partOptions : Tool Given := do
  let arguments := oldStyle (← read).arguments
  readOptions (knownOptions "c:n:qvz"
    [("bytes", 'c'), ("lines", 'n'), ("quiet", 'q'), ("silent", 'q'), ("verbose", 'v')]) 1 false
    (arguments.length + 1) arguments

/-- `head`: the first lines. -/
def head : Tool Unit := do
  let g ← partOptions
  let a ← amountOf g
  parts g (frontPart a)
  if g.operands.isEmpty && (← read).seekable then
    let s := (← read).input
    modify fun w => { w with taken := (frontPart a s).length }

/-- `tail`: the last lines. -/
def tail : Tool Unit := do
  let g ← partOptions
  let a ← amountOf g
  parts g (backPart a)

/-- The words of a text. -/
def wordCount (s : List Char) : Nat :=
  let blank (c : Char) := c == ' ' || ('\t' ≤ c && c ≤ '\r')
  let (n, _) := s.foldl
    (fun (n, inside) c => if blank c then (n, false) else if inside then (n, true) else (n + 1, true))
    ((0, false) : Nat × Bool)
  n

/-- `wc`: counts. -/
def wc : Tool Unit := do
  let g ← given "clmwL"
    [("bytes", 'c'), ("chars", 'm'), ("lines", 'l'), ("words", 'w'), ("max-line-length", 'L')] 1
  let chosen := ['l', 'w', 'm', 'c', 'L'].filter g.has
  let chosen := if chosen.isEmpty then ['l', 'w', 'c'] else chosen
  let counts (s : String) : List Nat := chosen.map fun c =>
    let cs := s.toList
    match c with
    | 'l' => cs.count '\n'
    | 'w' => wordCount cs
    | 'L' => ((linesOf s).map String.length).foldl max 0
    | _ => cs.length
  let names := if g.operands.isEmpty then ["-"] else g.operands
  let sizes ← names.mapM fun n => do
    match n, ← entryAt n with
    | "-", _ =>
      let r ← read
      return if r.seekable then some r.input.length else none
    | _, .ok (_, some (.file c _)) => return some c.size
    | _, .ok (_, some _) => return none
    | _, _ => return some 0
  let width :=
    if names.length = 1 ∧ chosen.length = 1 then 1
    else if sizes.any Option.isNone then 7
    else ((sizes.filterMap id).foldl (· + ·) 0).repr.length
  let row (ns : List Nat) (name : String) : String :=
    " ".intercalate (ns.map fun n => padLeft width n.repr)
      ++ (if name = "" then "" else " " ++ name) ++ "\n"
  let mut total := chosen.map fun _ => 0
  for n in names do
    let title := if g.operands.isEmpty then "" else n
    match ← contentOf n with
    | .ok s =>
      total := (total.zip (counts s)).map fun (a, b) => a + b
      say (row (counts s) title)
    | .error .isDirectory =>
      fault (n ++ ": " ++ OsError.isDirectory.reason)
      say (row (chosen.map fun _ => 0) title)
    | .error e => fault (n ++ ": " ++ e.reason)
  if names.length > 1 then say (row total "total")

/-! ## Columns -/

/-- A range of numbers from one on. -/
structure Span where
  low : Nat
  high : Option Nat

/-- Is a number in the range? -/
def Span.has (n : Nat) (r : Span) : Bool := r.low ≤ n && r.high.all fun h => n ≤ h

/-- The range that a text says. -/
def span? (s : List Char) : Option Span :=
  match splitRun Char.isDigit s with
  | ([], '-' :: r) => (digits? (String.ofList r)).map fun h => ⟨1, some h⟩
  | (ds, []) => if ds = [] then none else some ⟨numeral 10 ds, some (numeral 10 ds)⟩
  | (ds, ['-']) => if ds = [] then none else some ⟨numeral 10 ds, none⟩
  | (ds, '-' :: r) =>
    if ds = [] then none
    else (digits? (String.ofList r)).map fun h => ⟨numeral 10 ds, some h⟩
  | _ => none

/-- `cut`: some columns of each line. -/
def cut : Tool Unit := do
  let g ← given "b:c:d:f:nsz\x01\x02:"
    [("bytes", 'b'), ("characters", 'c'), ("delimiter", 'd'), ("fields", 'f'),
     ("only-delimited", 's'), ("complement", '\x01'), ("output-delimiter", '\x02')] 1
  let lists := g.options.filter fun o => ['b', 'c', 'f'].contains o.1
  let delimiter ← match g.value? 'd' with
    | none => pure '\t'
    | some d =>
      match d.toList with
      | [c] => pure c
      | [] => pure '\x00'
      | _ => misuse "the delimiter must be a single character" 1
  match lists with
  | [] => misuse "you must specify a list of bytes, characters, or fields" 1
  | _ :: _ :: _ => misuse "only one type of list may be specified" 1
  | [(kind, list)] =>
    let fields := kind == 'f'
    let spans ← (pieces ',' [] (list.toList.map fun c => if c = ' ' then ',' else c)).mapM
      fun s => do
        match span? s with
        | some r =>
          if r.low = 0 then
            misuse (if fields then "fields are numbered from 1"
              else "byte/character positions are numbered from 1") 1
          else if r.high.any fun h => h < r.low then
            misuse "invalid decreasing range" 1
          else pure r
        | none =>
          misuse ((if fields then "invalid field value " else "invalid byte/character position ")
            ++ quote (String.ofList s)) 1
    let chosen (n : Nat) : Bool := (spans.any fun r => r.has n) != g.has '\x01'
    let joiner := ((g.value? '\x02').map String.toList).getD [delimiter]
    forContents g.operands fun _ s => do
      for line in linesOf s do
        if fields then
          let columns := pieces delimiter [] line.toList
          if columns.length = 1 then
            if !g.has 's' then say (line ++ "\n")
          else
            let kept := (columns.zipIdx.filter fun (_, i) => chosen (i + 1)).map (·.1)
            say (String.ofList (joiner.intercalate kept) ++ "\n")
        else
          let kept := (line.toList.zipIdx.filter fun (_, i) => chosen (i + 1)).map (·.1)
          say (String.ofList kept ++ "\n")

/-- `paste`: lines of several texts side by side. -/
def paste : Tool Unit := do
  let g ← given "d:sz" [("delimiters", 'd'), ("serial", 's')] 1
  let (marks, _) := unescape 100 ((g.value? 'd').getD "\t").toList
  let marks := if marks.isEmpty then [[]] else marks.map fun c => [c]
  let mark (i : Nat) : String := String.ofList (marks.getD (i % marks.length) [])
  let names := if g.operands.isEmpty then ["-"] else g.operands
  let shared := names.filter (· == "-")
  let texts ← names.eraseDups.mapM fun n => do
    match ← contentOf n with
    | .ok s => return (n, linesOf s)
    | .error e => refuse (n ++ ": " ++ e.reason) 1
  let columns := names.zipIdx.map fun (n, i) =>
    let lines := (texts.lookup n).getD []
    if n = "-" ∧ !g.has 's' then
      let k := ((names.take i).filter (· == "-")).length
      (lines.zipIdx.filter fun (_, j) => j % shared.length == k).map (·.1)
    else lines
  let joined (cells : List String) : String :=
    String.join (cells.zipIdx.map fun (c, i) => if i = 0 then c else mark (i - 1) ++ c) ++ "\n"
  if g.has 's' then
    for c in columns do
      say (joined c)
  else
    for i in List.range ((columns.map List.length).foldl max 0) do
      say (joined (columns.map fun c => c.getD i ""))

/-- `fold`: long lines in several. -/
def fold : Tool Unit := do
  let g ← given "bsw:" [("width", 'w'), ("spaces", 's'), ("bytes", 'b')] 1
  let width := max 1 ((digits? ((g.value? 'w').getD "80")).getD 80)
  let rec cutLine : Nat → List Char → List (List Char)
    | 0, s => [s]
    | fuel + 1, s =>
      if s.length ≤ width then [s]
      else
        let front := s.take width
        let kept := (front.reverse.dropWhile (· != ' ')).reverse
        let n := if g.has 's' && !kept.isEmpty then kept.length else width
        s.take n :: cutLine fuel (s.drop n)
  forContents g.operands fun _ s => do
    for line in fullLines s do
      let (body, ending) := splitRun (· ≠ '\n') line.toList
      say (String.ofList (['\n'].intercalate (cutLine (body.length + 1) body) ++ ending))

/-! ## Characters -/

/-- The characters of a set, and the ones that are asked for as often as needed. -/
def readSet : Nat → List Char → List Char
  | 0, _ => []
  | _, [] => []
  | fuel + 1, s =>
    match s with
    | '[' :: ':' :: r =>
      match cutAt [':', ']'] r with
      | some (name, r) =>
        ((List.range 256).map Char.ofNat).filter (inNamed (String.ofList name)) ++ readSet fuel r
      | none => '[' :: readSet fuel (':' :: r)
    | '[' :: '=' :: c :: '=' :: ']' :: r => c :: readSet fuel r
    | s =>
      let (c, r) := oneOf s
      match r with
      | '-' :: d :: r' =>
        let (d, r') := oneOf (d :: r')
        (List.range (d.toNat + 1 - c.toNat)).map (fun i => Char.ofNat (c.toNat + i))
          ++ readSet fuel r'
      | r => c :: readSet fuel r
where
  /-- The first character, which may be written with a backslash. -/
  oneOf (s : List Char) : Char × List Char :=
    match s with
    | '\\' :: r =>
      match escape? r with
      | some (c, r) => (c, r)
      | none =>
        match r with
        | c :: r => (c, r)
        | [] => ('\\', [])
    | c :: r => (c, r)
    | [] => ('\x00', [])

/-- A text in which runs of some characters are one each. -/
def squeezed (inSet : Char → Bool) : Option Char → List Char → List Char
  | _, [] => []
  | last, c :: s =>
    if last = some c ∧ inSet c then squeezed inSet last s else c :: squeezed inSet (some c) s

/-- `tr`: other characters in place of some. -/
def tr : Tool Unit := do
  let g ← givenInFront "cCdst"
    [("complement", 'c'), ("delete", 'd'), ("squeeze-repeats", 's'), ("truncate-set1", 't')] 1
  let hint : Tool Unit := do
    write 2 ("Try '" ++ (← read).name ++ " --help' for more information.\n")
    stop 1
  let complement := g.has 'c' || g.has 'C'
  let needsOne := g.has 'd' != g.has 's'
  match g.operands with
  | [] => lacking 1
  | [a] =>
    if !needsOne then
      warn ("missing operand after " ++ quote a)
      write 2 (if g.has 'd' then "Two strings must be given when both deleting and squeezing repeats.\n"
        else "Two strings must be given when translating.\n")
      hint
    let set := readSet (a.length + 1) a.toList
    let inSet (c : Char) := set.contains c != complement
    let s := (← takeInput).toList
    say (String.ofList (if g.has 'd' then s.filter fun c => !inSet c else squeezed inSet none s))
  | a :: b :: r =>
    if g.has 'd' && !g.has 's' then
      warn ("extra operand " ++ quote b)
      if r.isEmpty then
        write 2 "Only one string may be given when deleting without squeezing repeats.\n"
      hint
    match r with
    | x :: _ => extra x 1
    | [] => pure ()
    let set := readSet (a.length + 1) a.toList
    let other := readSet (b.length + 1) b.toList
    let s := (← takeInput).toList
    if g.has 'd' then
      let inSet (c : Char) := set.contains c != complement
      say (String.ofList (squeezed other.contains none (s.filter fun c => !inSet c)))
    else
      if other.isEmpty && !g.has 't' then
        refuse "when not truncating set1, string2 must be non-empty" 1
      let source := if complement then
          ((List.range 256).map Char.ofNat).filter fun c => !set.contains c
        else set
      let target (i : Nat) (c : Char) : Char :=
        if g.has 't' then other.getD i c else other.getD i (other.getLastD c)
      let table := ((source.zipIdx).map fun (c, i) => (c, target i c)).reverse
      let t := s.map fun c => (table.lookup c).getD c
      say (String.ofList (if g.has 's' then squeezed other.contains none t else t))

/-! ## Runs of lines -/

/-- `uniq`: runs of equal lines once. -/
def uniq : Tool Unit := do
  let g ← given "cdDuif:s:w:z"
    [("count", 'c'), ("repeated", 'd'), ("unique", 'u'), ("ignore-case", 'i'),
     ("skip-fields", 'f'), ("skip-chars", 's'), ("check-chars", 'w')] 1
  let number (c : Char) : Option Nat := (g.value? c).bind digits?
  let key (s : String) : List Char :=
    let cs := (List.range ((number 'f').getD 0)).foldl
      (fun cs _ => (cs.dropWhile fun c => c == ' ' || c == '\t').dropWhile
        fun c => c != ' ' && c != '\t') s.toList
    let cs := cs.drop ((number 's').getD 0)
    let cs := match number 'w' with
      | some n => cs.take n
      | none => cs
    if g.has 'i' then cs.map Char.toLower else cs
  let (source, target) ← match g.operands with
    | [] => pure ("-", none)
    | [a] => pure (a, none)
    | [a, b] => pure (a, some b)
    | _ :: _ :: x :: _ => extra x 1
  match ← contentOf source with
  | .error e => refuse (source ++ ": " ++ e.reason) 1
  | .ok s =>
    let runs := ((linesOf s).foldl (fun (acc : List (String × Nat)) l =>
      match acc with
      | (k, n) :: r => if key k = key l then (k, n + 1) :: r else (l, 1) :: acc
      | [] => [(l, 1)]) []).reverse
    let kept := runs.filter fun (_, n) =>
      !(g.has 'd' && n == 1) && !(g.has 'u' && n != 1)
    let text := String.join (kept.map fun (l, n) =>
      (if g.has 'c' then padLeft 7 n.repr ++ " " else "") ++ l ++ "\n")
    match target with
    | none => say text
    | some t =>
      match ← writeFile t text with
      | .ok () => pure ()
      | .error e => refuse (t ++ ": " ++ e.reason) 1

end NetPlot.Emulation.Tool
