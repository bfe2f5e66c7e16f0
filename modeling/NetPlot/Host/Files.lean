/-
  The files that a run sees and changes.

  1. **Data** — `Files` maps locations to entries: directories, and files with their bytes.  A
     location is the row of names from the root down; relative paths start at `home`.

  2. **Program** — `locate` follows a path through directories; `read`, `write` and `exists` work
     at the place it leads to.  A write replaces the content of a file or makes a new one inside
     a directory that is there; a write that fails changes nothing.  `readText` reads bytes that
     have to be a text.

  3. **Frame** — an operation changes one entry at most: `find?_put` for the entries, and
     `find?_write` for a write.
-/
import NetPlot.Path

namespace NetPlot

open NetPlot.Text

/-- The names that lead from the root to an entry. -/
abbrev Location := List String

/-- What is at a location. -/
inductive Entry where
  | directory
  | file (content : ByteArray) (executable : Bool)
  /-- A file that is always empty and takes whatever is written to it. -/
  | void

/-- Entries are compared byte by byte. -/
instance : DecidableEq Entry
  | .directory, .directory => isTrue rfl
  | .void, .void => isTrue rfl
  | .file a x, .file b y =>
    match ByteArray.instDecidableEq a b, decEq x y with
    | isTrue h, isTrue k => isTrue (by rw [h, k])
    | isFalse h, _ => isFalse fun e => h (Entry.file.inj e).1
    | _, isFalse k => isFalse fun e => k (Entry.file.inj e).2
  | .directory, .void => isFalse nofun
  | .directory, .file _ _ => isFalse nofun
  | .void, .directory => isFalse nofun
  | .void, .file _ _ => isFalse nofun
  | .file _ _, .directory => isFalse nofun
  | .file _ _, .void => isFalse nofun

/-- Why the system refuses an operation. -/
inductive OsError where
  | notFound
  | permissionDenied
  | notDirectory
  | isDirectory
  | nameTooLong
  | alreadyThere
  | notEmpty
  | notExecutable
  | badArgument
  | brokenPipe
  | badName
  | badWord
  | badText
  deriving DecidableEq, Repr

/-- The words of the system for a refusal. -/
def OsError.reason : OsError → String
  | notFound => "No such file or directory"
  | permissionDenied => "Permission denied"
  | notDirectory => "Not a directory"
  | isDirectory => "Is a directory"
  | nameTooLong => "File name too long"
  | alreadyThere => "File exists"
  | notEmpty => "Directory not empty"
  | notExecutable => "Exec format error"
  | badArgument => "Invalid argument"
  | brokenPipe => "Broken pipe"
  | badText => "stream did not contain valid UTF-8"
  | badName => "file name contained an unexpected NUL byte"
  | badWord => "nul byte found in provided data"

/-- The number of a refusal; names and words that cannot be any and bytes that are no text are no
refusals of the system. -/
def OsError.number? : OsError → Option Nat
  | notFound => some 2
  | permissionDenied => some 13
  | notDirectory => some 20
  | isDirectory => some 21
  | nameTooLong => some 36
  | alreadyThere => some 17
  | notEmpty => some 39
  | notExecutable => some 8
  | badArgument => some 22
  | brokenPipe => some 32
  | badName => none
  | badWord => none
  | badText => none

/-- The reason with its number. -/
def OsError.message (e : OsError) : String :=
  match e.number? with
  | some n => e.reason ++ " (os error " ++ n.repr ++ ")"
  | none => e.reason

/-- The entries that there are, and the directory where relative paths start. -/
structure Files where
  home : Location
  entries : List (Location × Entry)
  deriving DecidableEq

namespace Files

/-! ## Entries -/

/-- The entry at a location; the root is always there. -/
def find? (fs : Files) (l : Location) : Option Entry :=
  if l = [] then some .directory else fs.entries.lookup l

/-- Puts an entry at a location. -/
def put (fs : Files) (l : Location) (e : Entry) : Files :=
  { fs with entries := (l, e) :: fs.entries.filter fun x => decide (x.1 ≠ l) }

theorem lookup_filter_ne {l k : Location} (h : k ≠ l) (es : List (Location × Entry)) :
    (es.filter fun x => decide (x.1 ≠ l)).lookup k = es.lookup k := by
  induction es with
  | nil => rfl
  | cons e r ih =>
    obtain ⟨m, v⟩ := e
    by_cases hm : m = l
    · have hk : (k == m) = false := beq_eq_false_iff_ne.2 (by rw [hm]; exact h)
      rw [List.filter_cons_of_neg (by simp [hm]), ih, List.lookup_cons, hk]
    · rw [List.filter_cons_of_pos (by simp [hm]), List.lookup_cons, List.lookup_cons, ih]

/-- What is at a location after an entry was put somewhere. -/
theorem find?_put (fs : Files) {l : Location} (hl : l ≠ []) (e : Entry) (k : Location) :
    (fs.put l e).find? k = if k = l then some e else fs.find? k := by
  unfold find? put
  by_cases hk : k = l
  · subst hk; simp [hl]
  · have hk' : (k == l) = false := beq_eq_false_iff_ne.2 hk
    simp only [hk, if_false, List.lookup_cons, hk']
    rw [lookup_filter_ne hk]

/-! ## Paths -/

/-- A name is at most as many bytes long as this. -/
def longestName : Nat := 255

/-- A path is shorter than this many bytes. -/
def pathBound : Nat := 4096

/-- Follows names from a location.  Every name but the last has to lead to a directory. -/
def follow (fs : Files) (here : Location) : List String → Except OsError Location
  | [] => .ok here
  | name :: rest =>
    match fs.find? here with
    | none => .error .notFound
    | some .directory =>
      if name = "" ∨ name = "." then follow fs here rest
      else if name = ".." then follow fs here.dropLast rest
      else if longestName < name.utf8ByteSize then .error .nameTooLong
      else follow fs (here ++ [name]) rest
    | some _ => .error .notDirectory

/-- Where a path leads. -/
def locate (fs : Files) (p : Path) : Except OsError Location :=
  let s := p.text.toList
  if s = [] then .error .notFound
  else if '\x00' ∈ s then .error .badName
  else if pathBound ≤ p.text.utf8ByteSize then .error .nameTooLong
  else
    let start := if s.head? = some '/' then [] else fs.home
    fs.follow start ((pieces '/' [] s).map String.ofList)

/-! ## Reading and writing -/

/-- The content of the file at a path. -/
def read (fs : Files) (p : Path) : Except OsError ByteArray :=
  match fs.locate p with
  | .error e => .error e
  | .ok l =>
    match fs.find? l with
    | none => .error .notFound
    | some .directory => .error .isDirectory
    | some (.file content _) => .ok content
    | some .void => .ok .empty

/-- The text in the file at a path. -/
def readText (fs : Files) (p : Path) : Except OsError String :=
  match fs.read p with
  | .error e => .error e
  | .ok content =>
    match String.fromUTF8? content with
    | some s => .ok s
    | none => .error .badText

/-- Is there anything at a path? -/
def «exists» (fs : Files) (p : Path) : Bool :=
  match fs.locate p with
  | .error _ => false
  | .ok l => (fs.find? l).isSome

/-- Why no file can be made at a path that leads nowhere: one with a slash at its end would have to
be a directory. -/
def reasonAgainst (fs : Files) (p : Path) (e : OsError) : OsError :=
  match p.text.toList.reverse with
  | '/' :: front =>
    match e, fs.locate ⟨String.ofList (front.dropWhile (· = '/')).reverse⟩ with
    | .notFound, .ok _ => .isDirectory
    | e, _ => e
  | _ => e

/-- Writes a file; an existing one stays as executable as it was. -/
def write (fs : Files) (p : Path) (content : ByteArray) : Except OsError Files :=
  match fs.locate p with
  | .error e => .error (fs.reasonAgainst p e)
  | .ok l =>
    match fs.find? l with
    | none => .ok (fs.put l (.file content false))
    | some .directory => .error .isDirectory
    | some (.file _ executable) => .ok (fs.put l (.file content executable))
    | some .void => .ok fs

/-- Writes a text to a file. -/
def writeText (fs : Files) (p : Path) (s : String) : Except OsError Files := fs.write p s.toUTF8

/-- A write changes the entry where its path leads and no other; where whatever is written gets
lost, not even that. -/
theorem find?_write {fs gs : Files} {p : Path} {content : ByteArray}
    (h : fs.write p content = .ok gs) :
    ∃ l, fs.locate p = .ok l ∧ ((fs.find? l = some .void ∧ gs = fs) ∨
      ∃ x, ∀ k, gs.find? k = if k = l then some (.file content x) else fs.find? k) := by
  unfold write at h
  split at h
  · cases h
  next l hl =>
    have ne : ∀ e, fs.find? l = e → e ≠ some .directory → l ≠ [] := by
      rintro e he hne rfl
      exact hne (by rw [← he]; rfl)
    refine ⟨l, hl, ?_⟩
    split at h
    next he =>
      cases h
      exact .inr ⟨false, fun k => find?_put fs (ne _ he (by simp)) _ k⟩
    next => cases h
    next _ x he =>
      cases h
      exact .inr ⟨x, fun k => find?_put fs (ne _ he (by simp)) _ k⟩
    next he =>
      cases h
      exact .inl ⟨he, rfl⟩

/-! ## Setting up and listing -/

/-- The mark of a text that can be run. -/
def scriptMark : List Char := ['#', '!']

/-- Makes the directories on the way to a location that are not there. -/
def makeDirectories (fs : Files) (l : Location) : Files :=
  ((List.range (l.length + 1)).map l.take).foldl
    (fun fs d => if (fs.find? d).isSome then fs else fs.put d .directory) fs

/-- The location of a path that goes straight down from the home directory. -/
def below (fs : Files) (p : Path) : Location :=
  fs.home ++ ((pieces '/' [] p.text.toList).map String.ofList).filter fun n => n ≠ "" ∧ n ≠ "."

/-- Sets up a directory with those around it. -/
def withDirectory (fs : Files) (p : Path) : Files := fs.makeDirectories (fs.below p)

/-- Sets up a file with the directories around it; a text that can be run is executable. -/
def withFile (fs : Files) (p : Path) (content : String) : Files :=
  let l := fs.below p
  (fs.makeDirectories l.dropLast).put l
    (.file content.toUTF8 (afterMark? scriptMark content.toList).isSome)

/-- Nothing but an empty home directory, and a file for what nobody wants. -/
def empty : Files :=
  ((Files.mk ["tmp", "home"] []).makeDirectories ["tmp", "home"]).makeDirectories ["dev"]
    |>.put ["dev", "null"] .void

/-- All paths under the home directory, in order; those of directories end in a slash. -/
def listing (fs : Files) : List String :=
  (fs.entries.filterMap fun (l, e) =>
      if fs.home <+: l ∧ l ≠ fs.home then
        let text := "/".intercalate (l.drop fs.home.length)
        some (if e = .directory then text ++ "/" else text)
      else none).mergeSort fun a b => decide (a ≤ b)

end Files

end NetPlot
