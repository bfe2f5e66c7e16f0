/-
  Tools for the tree of files: they make, list, copy, move and remove what is in it.

  Each one goes through its operands in order; an operand with a fault is complained about, and
  the others are still dealt with.
-/
import NetPlot.Emulation.Shell.Pattern
import NetPlot.Emulation.Tool.Basic

namespace NetPlot.Emulation.Tool

open NetPlot.Text

/-! ## Names -/

/-- A name without the slashes at its end; one that is nothing else is a slash. -/
def withoutSlashes (s : String) : String :=
  let cs := s.toList
  match (cs.reverse.dropWhile (· == '/')).reverse with
  | [] => if cs.isEmpty then "" else "/"
  | cs => String.ofList cs

/-- The last part of a name. -/
def lastPart (s : String) : String :=
  match (withoutSlashes s).toList with
  | ['/'] => "/"
  | cs => String.ofList (cs.reverse.takeWhile (· != '/')).reverse

/-- The directory part of a name. -/
def directoryPart (s : String) : String :=
  match (withoutSlashes s).toList with
  | ['/'] => "/"
  | cs =>
    match cs.reverse.dropWhile (· != '/') with
    | [] => "."
    | front => withoutSlashes (String.ofList front.reverse)

/-- A name inside of a directory. -/
def inside (directory name : String) : String :=
  if directory.toList.getLast? = some '/' then directory ++ name else directory ++ "/" ++ name

/-- A text without an ending, unless it is nothing else. -/
def withoutEnding (ending s : String) : String :=
  match afterMark? ending.toList.reverse s.toList.reverse with
  | some (c :: cs) => String.ofList (c :: cs).reverse
  | _ => s

/-- What is at a path whose end may be a slash. -/
def placeOf (name : String) : Tool (Except OsError (Location × Option Entry)) :=
  entryAt (withoutSlashes name)

/-- `basename`: the last parts of names. -/
def basename : Tool Unit := do
  let g ← givenInFront "as:z" [("multiple", 'a'), ("suffix", 's'), ("zero", 'z')] 1
  let ending := if g.has 'z' then "\x00" else "\n"
  match g.has 'a' || g.has 's', g.operands with
  | _, [] => lacking 1
  | true, names =>
    for n in names do
      say (withoutEnding ((g.value? 's').getD "") (lastPart n) ++ ending)
  | false, [n] => say (lastPart n ++ ending)
  | false, [n, suffix] => say (withoutEnding suffix (lastPart n) ++ ending)
  | false, _ :: _ :: x :: _ => extra x 1

/-- `dirname`: the directories of names. -/
def dirname : Tool Unit := do
  let g ← given "z" [("zero", 'z')] 1
  if g.operands.isEmpty then lacking 1
  for n in g.operands do
    say (directoryPart n ++ if g.has 'z' then "\x00" else "\n")

/-! ## Making -/

/-- Makes a directory; with `parents` also those around it. -/
def makeDirectory (parents verbose : Bool) (name : String) : Tool Unit := do
  let complain (name : String) (e : OsError) : Tool Unit :=
    fault ("cannot create directory " ++ quote name ++ ": " ++ e.reason)
  let told (name : String) : Tool Unit := do
    if verbose then say ((← read).name ++ ": created directory " ++ quote name ++ "\n")
  if parents then
    let parts := (pieces '/' [] name.toList).map String.ofList
    let fronts := ((List.range parts.length).map fun n => "/".intercalate (parts.take (n + 1))).filter
      fun p => withoutSlashes p ≠ "/" ∧ p ≠ ""
    for p in fronts do
      match ← placeOf p with
      | .ok (l, none) =>
        setFiles ((← get).files.put l .directory)
        told p
      | .ok (_, some .directory) => pure ()
      | .ok (_, some _) =>
        complain p (if withoutSlashes p = withoutSlashes name then .alreadyThere else .notDirectory)
        return
      | .error e =>
        complain p e
        return
  else
    match ← placeOf name with
    | .ok (l, none) =>
      setFiles ((← get).files.put l .directory)
      told name
    | .ok (_, some _) => complain name .alreadyThere
    | .error e => complain name e

/-- `mkdir`: makes directories. -/
def mkdir : Tool Unit := do
  let g ← given "pvm:" [("parents", 'p'), ("verbose", 'v'), ("mode", 'm')] 1
  if g.operands.isEmpty then lacking 1
  for n in g.operands do
    makeDirectory (g.has 'p') (g.has 'v') n

/-- `touch`: makes empty files where there are none. -/
def touch : Tool Unit := do
  let g ← given "acmfd:r:t:" [("no-create", 'c'), ("date", 'd'), ("reference", 'r')] 1
  if g.operands.isEmpty then misuse "missing file operand" 1
  for n in g.operands do
    match ← entryAt n with
    | .ok (_, some _) => pure ()
    | .ok (l, none) =>
      if !g.has 'c' then setFiles ((← get).files.put l (.file .empty false))
    | .error e =>
      if !g.has 'c' then fault ("cannot touch " ++ quote n ++ ": " ++ e.reason)

/-- A template with a number in letters in place of the marks at its end. -/
def filledTemplate (template : String) (n : Nat) : String :=
  let back := template.toList.reverse.takeWhile (· == 'X')
  let digits := (Nat.toDigits 10 n).map fun c => Char.ofNat (c.toNat + 17)
  let front := template.toList.take (template.length - back.length)
  String.ofList (front ++ List.replicate (back.length - digits.length) 'A' ++ digits)

/-- `mktemp`: makes a file or a directory with a name of its own. -/
def mktemp : Tool Unit := do
  let g ← given "dquVtp:" [("directory", 'd'), ("quiet", 'q'), ("dry-run", 'u'), ("tmpdir", 'p')] 1
  let template := g.operands.headD "tmp.XXXXXXXXXX"
  let place := if g.operands.isEmpty || g.has 't' || g.has 'p' then
      inside ((g.value? 'p').getD "/tmp") template
    else template
  if (template.toList.reverse.takeWhile (· == 'X')).length < 3 then
    refuse ("too few X's in template " ++ quote template) 1
  let fs := (← get).files
  let free (n : Nat) : Bool := !fs.exists (pathOf (filledTemplate place n))
  let name := filledTemplate place (((List.range (fs.entries.length + 1)).find? free).getD 0)
  match ← entryAt name with
  | .error e =>
    refuse ("failed to create " ++ (if g.has 'd' then "directory" else "file") ++ " via template "
      ++ quote place ++ ": " ++ e.reason) 1
  | .ok (l, _) =>
    if !g.has 'u' then setFiles (fs.put l (if g.has 'd' then .directory else .file .empty false))
    say (name ++ "\n")

/-! ## Removing -/

/-- Does one row of names stand before another one, or is it the same? -/
def inOrder : List String → List String → Bool
  | [], _ => true
  | _ :: _, [] => false
  | a :: as, b :: bs => a < b || (a == b && inOrder as bs)

/-- What is below a location, by the names from there on, in order. -/
def below (fs : Files) (l : Location) : List (List String × Entry) :=
  (fs.entries.filterMap fun (k, e) =>
    if l.isPrefixOf k ∧ l ≠ k then some (k.drop l.length, e) else none).mergeSort
      fun a b => inOrder a.1 b.1

/-- `rmdir`: removes empty directories. -/
def rmdir : Tool Unit := do
  let g ← given "pv" [("parents", 'p'), ("verbose", 'v'), ("ignore-fail-on-non-empty", 'i')] 1
  if g.operands.isEmpty then lacking 1
  for n in g.operands do
    let complain (e : OsError) : Tool Unit :=
      fault ("failed to remove " ++ quote n ++ ": " ++ e.reason)
    match ← placeOf n with
    | .ok (l, some .directory) =>
      let fs := (← get).files
      if (fs.children l).isEmpty then setFiles (fs.erase l) else complain .notEmpty
    | .ok (_, some _) => complain .notDirectory
    | .ok (_, none) => complain .notFound
    | .error e => complain e

/-- `rm`: removes files, and with `-r` directories with what is in them. -/
def rm : Tool Unit := do
  let g ← given "rRfivdI" [("recursive", 'r'), ("force", 'f'), ("verbose", 'v'), ("dir", 'd')] 1
  if g.operands.isEmpty then
    if g.has 'f' then return else lacking 1
  for n in g.operands do
    let complain (e : OsError) : Tool Unit :=
      fault ("cannot remove " ++ quote n ++ ": " ++ e.reason)
    let removed (what : String) : Tool Unit :=
      if g.has 'v' then say ("removed " ++ what ++ quote n ++ "\n") else pure ()
    let deep := g.has 'r' || g.has 'R'
    if deep && [".", ".."].contains (lastPart n) then
      fault ("refusing to remove '.' or '..' directory: skipping " ++ quote n)
    else
      match ← entryAt n with
      | .ok (_, none) => if !g.has 'f' then complain .notFound
      | .ok (l, some .directory) =>
        let fs := (← get).files
        if deep || (g.has 'd' && (fs.children l).isEmpty) then
          if g.has 'v' then
            for (k, e) in (below fs l).reverse do
              let what := if e = .directory then "directory " else ""
              say ("removed " ++ what ++ quote (inside n (toOctets ("/".intercalate k))) ++ "\n")
          setFiles (fs.erase l)
          removed "directory "
        else if g.has 'd' then complain .notEmpty
        else complain .isDirectory
      | .ok (l, some _) =>
        setFiles ((← get).files.erase l)
        removed ""
      | .error e =>
        if !(g.has 'f' && (e = .notFound || e = .notDirectory)) then complain e

/-- `unlink`: removes one file. -/
def unlink : Tool Unit := do
  let g ← given "" [] 1
  match g.operands with
  | [] => lacking 1
  | [n] =>
    let complain (e : OsError) : Tool Unit :=
      fault ("cannot unlink " ++ quote n ++ ": " ++ e.reason)
    match ← entryAt n with
    | .ok (_, none) => complain .notFound
    | .ok (_, some .directory) => complain .isDirectory
    | .ok (l, some _) => setFiles ((← get).files.erase l)
    | .error e => complain e
  | _ :: x :: _ => extra x 1

/-! ## Copying and moving -/

/-- Copies one thing to another place. -/
def copyOne (g : Given) (source target : String) : Tool Unit := do
  let deep := g.has 'r' || g.has 'R' || g.has 'a'
  let told : Tool Unit :=
    if g.has 'v' then say (quote source ++ " -> " ++ quote target ++ "\n") else pure ()
  match ← entryAt source with
  | .error e => fault ("cannot stat " ++ quote source ++ ": " ++ e.reason)
  | .ok (_, none) => fault ("cannot stat " ++ quote source ++ ": " ++ OsError.notFound.reason)
  | .ok (l, some .directory) =>
    if !deep then fault ("-r not specified; omitting directory " ++ quote source)
    else
      match ← placeOf target with
      | .error e => fault ("cannot create directory " ++ quote target ++ ": " ++ e.reason)
      | .ok (k, found) =>
        if l.isPrefixOf k then
          fault ("cannot copy a directory, " ++ quote source ++ ", into itself, " ++ quote target)
        else
          match found with
          | some .directory => do
            setFiles ((← get).files.duplicate l k)
            told
          | none => do
            setFiles ((← get).files.duplicate l k)
            told
          | some _ =>
            fault ("cannot overwrite non-directory " ++ quote target ++ " with directory "
              ++ quote source)
  | .ok (l, some entry) =>
    let (content, executable) := match entry with
      | .file c x => (c, x)
      | _ => (ByteArray.empty, false)
    match streamOf? target with
    | some n => write n (octetsOf content)
    | none =>
      match ← entryAt target with
      | .error e =>
        let e := if e = .notFound ∧ target.toList.getLast? = some '/' then .notDirectory else e
        fault ("cannot create regular file " ++ quote target ++ ": " ++ e.reason)
      | .ok (k, none) =>
        setFiles ((← get).files.put k (.file content executable))
        told
      | .ok (k, some (.file _ x)) =>
        if k = l then fault (quote source ++ " and " ++ quote target ++ " are the same file")
        else if !g.has 'n' then
          setFiles ((← get).files.put k (.file content x))
          told
      | .ok (_, some .directory) =>
        fault ("cannot overwrite directory " ++ quote target ++ " with non-directory "
          ++ quote source)
      | .ok (_, some .void) => told

/-- Moves one thing to another place. -/
def moveOne (g : Given) (source target : String) : Tool Unit := do
  match ← placeOf source with
  | .error e => fault ("cannot stat " ++ quote source ++ ": " ++ e.reason)
  | .ok (_, none) => fault ("cannot stat " ++ quote source ++ ": " ++ OsError.notFound.reason)
  | .ok (l, some entry) =>
    match ← placeOf target with
    | .error e =>
      fault ("cannot move " ++ quote source ++ " to " ++ quote target ++ ": " ++ e.reason)
    | .ok (k, found) =>
      let move : Tool Unit := do
        setFiles ((← get).files.relocate l k)
        if g.has 'v' then say ("renamed " ++ quote source ++ " -> " ++ quote target ++ "\n")
      if k = l then fault (quote source ++ " and " ++ quote target ++ " are the same file")
      else if l.isPrefixOf k then
        fault ("cannot move " ++ quote source ++ " to a subdirectory of itself, " ++ quote target)
      else
        match found, entry with
        | none, .directory => move
        | none, _ =>
          if target.toList.getLast? = some '/' then
            fault ("cannot move " ++ quote source ++ " to " ++ quote target ++ ": "
              ++ OsError.notDirectory.reason)
          else move
        | some .directory, .directory =>
          if ((← get).files.children k).isEmpty then move
          else
            fault ("cannot move " ++ quote source ++ " to " ++ quote target ++ ": "
              ++ OsError.notEmpty.reason)
        | some .directory, _ =>
          fault ("cannot overwrite directory " ++ quote target ++ " with non-directory")
        | some _, .directory =>
          fault ("cannot overwrite non-directory " ++ quote target ++ " with directory "
            ++ quote source)
        | some _, _ => if !g.has 'n' then move

/-- Gives each source its target, and does something with both. -/
def forTargets (g : Given) (act : String → String → Tool Unit) : Tool Unit := do
  match g.value? 't', g.operands with
  | some d, ns =>
    if ns.isEmpty then misuse "missing file operand" 1
    for n in ns do
      act n (inside d (lastPart n))
  | none, [] => misuse "missing file operand" 1
  | none, [n] => misuse ("missing destination file operand after " ++ quote n) 1
  | none, ns =>
    let target := ns.getLastD ""
    if ← isDirectory target then
      if g.has 'T' then
        match ns with
        | [n, _] => act n target
        | ns => extra (ns.getD 2 "") 1
      else
        for n in ns.dropLast do
          act n (inside target (lastPart n))
    else
      match ns with
      | [n, _] => act n target
      | _ =>
        let reason := match ← entryAt target with
          | .ok (_, some _) => OsError.notDirectory
          | .ok (_, none) => OsError.notFound
          | .error e => e
        refuse ("target " ++ quote target ++ ": " ++ reason.reason) 1

/-- `cp`: copies. -/
def cp : Tool Unit := do
  let g ← given "rRapfinuvTt:lsdLPHx"
    [("recursive", 'r'), ("archive", 'a'), ("force", 'f'), ("no-clobber", 'n'), ("verbose", 'v'),
     ("no-target-directory", 'T'), ("target-directory", 't'), ("preserve", 'p')] 1
  forTargets g (copyOne g)

/-- `mv`: moves. -/
def mv : Tool Unit := do
  let g ← given "finuvTt:"
    [("force", 'f'), ("no-clobber", 'n'), ("verbose", 'v'), ("no-target-directory", 'T'),
     ("target-directory", 't')] 1
  forTargets g (moveOne g)

/-- `ln`: gives files further names. -/
def ln : Tool Unit := do
  let g ← given "sfinvTt:r" [("symbolic", 's'), ("force", 'f'), ("verbose", 'v')] 1
  let g := match g.operands with
    | [n] => { g with operands := [n, "."] }
    | _ => g
  forTargets g fun source target => do
    match ← entryAt source, ← entryAt target with
    | .ok (_, some (.file _ _)), .error e =>
      fault ("failed to create hard link " ++ quote target ++ ": " ++ e.reason)
    | .ok (_, some (.file c x)), .ok (k, none) => setFiles ((← get).files.put k (.file c x))
    | .ok (_, some (.file c x)), .ok (k, some _) =>
      if g.has 'f' then setFiles ((← get).files.put k (.file c x))
      else
        fault ("failed to create hard link " ++ quote target ++ ": " ++ OsError.alreadyThere.reason)
    | .ok (_, some _), _ => fault (source ++ ": hard link not allowed for directory")
    | .ok (_, none), _ =>
      fault ("failed to access " ++ quote source ++ ": " ++ OsError.notFound.reason)
    | .error e, _ => fault ("failed to access " ++ quote source ++ ": " ++ e.reason)

/-! ## Modes -/

/-- What a mode does to whether a file can be run. -/
def modeChange? (mode : String) : Option (Bool → Bool) :=
  let cs := mode.toList
  if !cs.isEmpty && cs.all (isDigitIn 8) then
    let n := numeral 8 cs
    some fun _ => n % 2 = 1 || n / 8 % 2 = 1 || n / 64 % 2 = 1
  else
    ((pieces ',' [] cs).mapM clauseChange?).map fun fs x => fs.foldl (fun x f => f x) x
where
  /-- What one part of a mode does. -/
  clauseChange? (s : List Char) : Option (Bool → Bool) :=
    match s.dropWhile fun c => "ugoa".toList.contains c with
    | op :: bits =>
      if bits.all (fun c => "rwxXstugo".toList.contains c) then
        match op with
        | '+' => some fun x => x || bits.contains 'x'
        | '-' => some fun x => x && !bits.contains 'x'
        | '=' => some fun x => bits.contains 'x' || (bits.contains 'X' && x)
        | _ => none
      else none
    | [] => none

/-- `chmod`: says which files can be run. -/
def chmod : Tool Unit := do
  let arguments := (← read).arguments
  let isMode (s : String) := beginsWith "-" s && (modeChange? s).isSome && s.length > 1
  let flags := arguments.filter fun s => beginsWith "-" s && !isMode s
  let operands := arguments.filter fun s => !(beginsWith "-" s && !isMode s)
  for f in flags do
    let letters := f.toList.drop 1
    if !letters.all fun c => "Rvcf-".toList.contains c then
      misuse ("invalid option -- " ++ quote (String.ofList (letters.take 1))) 1
  match operands with
  | [] => lacking 1
  | mode :: names =>
    if names.isEmpty then misuse ("missing operand after " ++ quote mode) 1
    match modeChange? mode with
    | none => misuse ("invalid mode: " ++ quote mode) 1
    | some change =>
      for n in names do
        match ← entryAt n with
        | .ok (l, some (.file c x)) => setFiles ((← get).files.put l (.file c (change x)))
        | .ok (_, some _) => pure ()
        | .ok (_, none) =>
          fault ("cannot access " ++ quote n ++ ": " ++ OsError.notFound.reason)
        | .error e => fault ("cannot access " ++ quote n ++ ": " ++ e.reason)

/-! ## Listing -/

/-- Texts in order. -/
def ordered (ss : List String) : List String := ss.mergeSort fun a b => decide (a ≤ b)

/-- A name with a mark for what it names. -/
def marked (g : Given) (fs : Files) (l : Location) (name : String) : String :=
  match fs.find? l with
  | some .directory => if g.has 'F' || g.has 'p' then name ++ "/" else name
  | some (.file _ true) => if g.has 'F' then name ++ "*" else name
  | _ => name

/-- The lines for what is in a directory. -/
def listed (g : Given) (fs : Files) (l : Location) : List String :=
  let names := (fs.children l).filter fun n => g.has 'a' || g.has 'A' || !beginsWith "." n
  let rows := names.map fun n => (toOctets n, marked g fs (l ++ [n]) (toOctets n))
  let dots := if g.has 'a' then [(".", marked g fs l "."), ("..", marked g fs l.dropLast "..")] else []
  let rows := (dots ++ rows).mergeSort fun a b => decide (a.1 ≤ b.1)
  let lines := rows.map (·.2)
  if g.has 'r' then lines.reverse else lines

/-- `ls`: lists names. -/
def ls : Tool Unit := do
  let g ← given "aA1dFpRrltShCmnsiUT:bBcDfgGHI:kLNoqQuvw:xXZ"
    [("all", 'a'), ("almost-all", 'A'), ("directory", 'd'), ("classify", 'F'), ("reverse", 'r')] 2
  if let some v := g.value? 'T' then
    if (digits? v).isNone then refuse ("invalid tab size: " ++ quote v) 2
  let fs := (← get).files
  let mut directories : List (String × Location) := []
  let mut lines : List String := []
  for n in ordered (if g.operands.isEmpty then ["."] else g.operands) do
    let missing (e : OsError) : Tool Unit := do
      warn ("cannot access " ++ quote n ++ ": " ++ e.reason)
      setStatus 2
    match ← entryAt n with
    | .ok (l, some .directory) =>
      if g.has 'd' then lines := lines ++ [marked g fs l n]
      else directories := directories ++ [(n, l)]
    | .ok (l, some _) => lines := lines ++ [marked g fs l n]
    | .ok (_, none) => missing .notFound
    | .error e => missing e
  let shown := if g.has 'R' && !g.has 'd' then
      directories.flatMap fun (n, l) =>
        (n, l) :: (below fs l).filterMap fun (k, e) =>
          let hidden := k.any fun s => beginsWith "." s && !g.has 'a' && !g.has 'A'
          if e = .directory && !hidden then
            some (inside n (toOctets ("/".intercalate k)), l ++ k)
          else none
    else directories
  let titled := g.operands.length > 1 || g.has 'R'
  let parts := shown.map fun (n, l) =>
    (if titled then [n ++ ":"] else []) ++ listed g fs l
  let parts := if lines.isEmpty then parts else lines :: parts
  say ("\n".intercalate (parts.map fun ls => String.join (ls.map (· ++ "\n"))))

/-- `pwd`: the directory where the tool is. -/
def pwd : Tool Unit := do
  let _ ← given "LP" [("logical", 'L'), ("physical", 'P')] 1
  say (toOctets ("/" ++ "/".intercalate (← get).files.home) ++ "\n")

/-- `truncate`: makes files longer or shorter. -/
def truncate : Tool Unit := do
  let g ← given "s:cr:o" [("size", 's'), ("no-create", 'c')] 1
  match (g.value? 's').bind digits? with
  | none => misuse "you must specify either '--size' or '--reference'" 1
  | some n =>
    if g.operands.isEmpty then misuse "missing file operand" 1
    for name in g.operands do
      match ← entryAt name with
      | .ok (l, some (.file c x)) =>
        let zeros := ByteArray.mk (Array.replicate (n - c.size) 0)
        setFiles ((← get).files.put l (.file (c.extract 0 n ++ zeros) x))
      | .ok (l, none) =>
        setFiles ((← get).files.put l (.file (ByteArray.mk (Array.replicate n 0)) false))
      | .ok (_, some _) =>
        fault ("cannot open " ++ quote name ++ " for writing: " ++ OsError.isDirectory.reason)
      | .error e => fault ("cannot open " ++ quote name ++ " for writing: " ++ e.reason)

/-! ## Finding -/

/-- What is asked of something in the tree. -/
inductive Question where
  | named (p : List Shell.Part) (folded : Bool)
  | directory
  | file
  | empty

/-- Something in the tree: its path, its last name, and what it is. -/
structure Place where
  path : String
  name : String
  location : Location
  entry : Entry
  depth : Nat

/-- Is the answer yes? -/
def Question.holds (fs : Files) (p : Place) : Question → Bool
  | named q folded =>
    Shell.fits q (if folded then p.name.toList.map Char.toLower else p.name.toList)
  | directory => p.entry == .directory
  | file => match p.entry with
    | .file _ _ => true
    | _ => false
  | empty =>
    match p.entry with
    | .file c _ => c.size == 0
    | .directory => (fs.children p.location).isEmpty
    | .void => false

/-- What is looked for, and what is done with it. -/
structure Finding where
  questions : List (Bool × Question)
  least : Nat
  most : Option Nat
  deletes : Bool
  prints : Bool
  zero : Bool

/-- Reads what is looked for. -/
def readFinding : Nat → Bool → List String → Finding → Except String Finding
  | 0, _, _, f => .ok f
  | _, _, [], f => .ok f
  | fuel + 1, negated, a :: rest, f =>
    let ask (q : Question) (rest : List String) : Except String Finding :=
      readFinding fuel false rest { f with questions := f.questions ++ [(negated, q)] }
    let missing : Except String Finding := .error ("missing argument to `" ++ a ++ "'")
    let patternFrom (s : String) : List Shell.Part :=
      Shell.patternOf (s.toList.map fun c => (c, false))
    match a, rest with
    | "!", rest => readFinding fuel (!negated) rest f
    | "-not", rest => readFinding fuel (!negated) rest f
    | "-a", rest => readFinding fuel negated rest f
    | "-name", s :: rest => ask (.named (patternFrom s) false) rest
    | "-iname", s :: rest =>
      ask (.named (patternFrom (String.ofList (s.toList.map Char.toLower))) true) rest
    | "-type", "f" :: rest => ask .file rest
    | "-type", "d" :: rest => ask .directory rest
    | "-type", s :: _ => .error ("Unknown argument to -type: " ++ s)
    | "-empty", rest => ask .empty rest
    | "-maxdepth", n :: rest => readFinding fuel negated rest { f with most := digits? n }
    | "-mindepth", n :: rest => readFinding fuel negated rest { f with least := (digits? n).getD 0 }
    | "-print", rest => readFinding fuel negated rest { f with prints := true }
    | "-print0", rest => readFinding fuel negated rest { f with prints := true, zero := true }
    | "-delete", rest => readFinding fuel negated rest { f with deletes := true }
    | a, [] =>
      if ["-name", "-iname", "-type", "-maxdepth", "-mindepth"].contains a then missing
      else .error ("unknown predicate `" ++ a ++ "'")
    | a, _ => .error ("unknown predicate `" ++ a ++ "'")

/-- `find`: what in the tree is as it is asked for. -/
def find : Tool Unit := do
  let arguments := (← read).arguments
  let isStart (s : String) : Bool := !(beginsWith "-" s || s == "!" || s == "(")
  let starts := arguments.takeWhile isStart
  let rest := arguments.drop starts.length
  match readFinding (rest.length + 1) false rest ⟨[], 0, none, false, false, false⟩ with
  | .error m => refuse m 1
  | .ok f =>
    for n in (if starts.isEmpty then ["."] else starts) do
      match ← entryAt n with
      | .error e => fault (quote n ++ ": " ++ e.reason)
      | .ok (_, none) => fault (quote n ++ ": " ++ OsError.notFound.reason)
      | .ok (l, some e) =>
        let fs := (← get).files
        let top : Place := ⟨n, lastPart n, l, e, 0⟩
        let others := (below fs l).map fun (k, e) =>
          (⟨inside n (toOctets ("/".intercalate k)), toOctets (k.getLastD ""), l ++ k, e, k.length⟩ :
            Place)
        let places := if f.deletes then others.reverse ++ [top] else top :: others
        for p in places do
          let now := (← get).files
          if f.least ≤ p.depth && f.most.all (fun m => p.depth ≤ m)
              && f.questions.all fun (negated, q) => q.holds now p != negated then
            if f.prints || !f.deletes then say (p.path ++ if f.zero then "\x00" else "\n")
            if f.deletes && p.path != "." then setFiles ((← get).files.erase p.location)

/-! ## Paths -/

/-- `readlink`: where a name leads; only with `-f` there is an answer. -/
def readlink : Tool Unit := do
  let g ← given "efmnqsvz" [("canonicalize", 'f'), ("no-newline", 'n')] 1
  if g.operands.isEmpty then lacking 1
  for n in g.operands do
    match ← placeOf n with
    | .ok (l, found) =>
      if (g.has 'f' || g.has 'm' || (g.has 'e' && found.isSome)) then
        say (toOctets ("/" ++ "/".intercalate l) ++ if g.has 'n' then "" else "\n")
      else setStatus 1
    | .error _ => setStatus 1

/-- `stat`: what is known about files; the form has to be given. -/
def stat : Tool Unit := do
  let g ← given "c:Lft" [("format", 'c')] 1
  if g.operands.isEmpty then lacking 1
  for n in g.operands do
    let missing (e : OsError) : Tool Unit :=
      fault ("cannot statx " ++ quote n ++ ": " ++ e.reason)
    match ← entryAt n with
    | .ok (_, some e) =>
      let size := match e with
        | .file c _ => c.size
        | .directory => 4096
        | .void => 0
      let kind := match e with
        | .file c _ => if c.size = 0 then "regular empty file" else "regular file"
        | .directory => "directory"
        | .void => "character special file"
      match g.value? 'c' with
      | none => say ("  File: " ++ n ++ "\n  Size: " ++ size.repr ++ "\n")
      | some f =>
        let rec filled : List Char → String
          | '%' :: c :: r =>
            (match c with
              | 's' => size.repr
              | 'n' => n
              | 'F' => kind
              | 'U' => "root"
              | 'G' => "root"
              | 'u' => "0"
              | 'g' => "0"
              | '%' => "%"
              | _ => "?") ++ filled r
          | c :: r => String.singleton c ++ filled r
          | [] => ""
        say (filled f.toList ++ "\n")
    | .ok (_, none) => missing .notFound
    | .error e => missing e

/-- `realpath`: paths from the root down. -/
def realpath : Tool Unit := do
  let g ← given "emsqz" [] 1
  if g.operands.isEmpty then lacking 1
  for n in g.operands do
    match ← placeOf n with
    | .ok (l, found) =>
      if g.has 'e' && found.isNone then fault (n ++ ": " ++ OsError.notFound.reason)
      else say (toOctets ("/" ++ "/".intercalate l) ++ "\n")
    | .error e => fault (n ++ ": " ++ e.reason)

end NetPlot.Emulation.Tool
