/-
  Patterns: `*` for any text, `?` for any character, and `[…]` for one of several characters.

  1. **Data** — a `Pattern` is a row of parts.  It is made from characters of which each is known
     to be quoted or not; what is quoted stands for itself.

  2. **Program** — `fits` says whether a pattern fits a whole text; `splits` are the ways to cut a
     text in two, from which the longest or shortest fit at either end is taken.
-/
namespace NetPlot.Emulation.Shell

/-- A character, and whether it is quoted. -/
abbrev Mark := Char × Bool

/-- A member of a bracket. -/
inductive Member where
  | range (low high : Char)
  | named (name : String)
  deriving DecidableEq, Repr

/-- A part of a pattern. -/
inductive Part where
  | one (c : Char)
  | any
  | several
  | bracket (negated : Bool) (members : List Member)
  deriving DecidableEq, Repr

/-- The characters of a named class. -/
def inNamed (name : String) (c : Char) : Bool :=
  match name with
  | "alpha" => c.isAlpha
  | "digit" => c.isDigit
  | "alnum" => c.isAlphanum
  | "upper" => c.isUpper
  | "lower" => c.isLower
  | "space" => c == ' ' || ('\t' ≤ c && c ≤ '\r')
  | "blank" => c == ' ' || c == '\t'
  | "punct" => '!' ≤ c && c ≤ '~' && !c.isAlphanum
  | "print" => ' ' ≤ c && c ≤ '~'
  | "graph" => '!' ≤ c && c ≤ '~'
  | "cntrl" => c < ' ' || c == '\x7f'
  | "xdigit" => c.isDigit || ('a' ≤ c && c ≤ 'f') || ('A' ≤ c && c ≤ 'F')
  | _ => false

/-- Is a character the member? -/
def Member.has (c : Char) : Member → Bool
  | range low high => low ≤ c && c ≤ high
  | named name => inNamed name c

/-- The class that is named between colons, and what follows it. -/
def namedClass? (s : List Mark) : Option (String × List Mark) :=
  match s with
  | ('[', false) :: (':', false) :: r =>
    let name := r.takeWhile fun m => m.1.isAlpha
    match r.drop name.length with
    | (':', _) :: (']', _) :: r => some (String.ofList (name.map (·.1)), r)
    | _ => none
  | _ => none

/-- The members of a bracket and what follows it; `start` says that no member was read yet. -/
def members? : Nat → Bool → List Mark → Option (List Member × List Mark)
  | 0, _, _ => none
  | _, _, [] => none
  | fuel + 1, start, m :: s =>
    if m = (']', false) && !start then some ([], s)
    else
      match namedClass? (m :: s) with
      | some (name, r) => (members? fuel false r).map fun (ms, r) => (.named name :: ms, r)
      | none =>
        match s with
        | ('-', false) :: (high, quoted) :: r =>
          if high = ']' ∧ quoted = false then
            (members? fuel false s).map fun (ms, r) => (.range m.1 m.1 :: ms, r)
          else (members? fuel false r).map fun (ms, r) => (.range m.1 high :: ms, r)
        | s => (members? fuel false s).map fun (ms, r) => (.range m.1 m.1 :: ms, r)

/-- The bracket after its opening mark. -/
def bracket? (s : List Mark) : Option (Part × List Mark) :=
  match s with
  | ('!', false) :: r => (members? (r.length + 1) true r).map fun (ms, r) => (.bracket true ms, r)
  | ('^', false) :: r => (members? (r.length + 1) true r).map fun (ms, r) => (.bracket true ms, r)
  | s => (members? (s.length + 1) true s).map fun (ms, r) => (.bracket false ms, r)

/-- The parts of a pattern. -/
def parts : Nat → List Mark → List Part
  | 0, _ => []
  | _, [] => []
  | fuel + 1, (c, quoted) :: s =>
    if quoted then .one c :: parts fuel s
    else
      match c with
      | '*' => .several :: parts fuel s
      | '?' => .any :: parts fuel s
      | '[' =>
        match bracket? s with
        | some (p, r) => p :: parts fuel r
        | none => .one '[' :: parts fuel s
      | c => .one c :: parts fuel s

/-- The pattern that marked characters are. -/
def patternOf (s : List Mark) : List Part := parts (s.length + 1) s

/-- Does a part fit one character? -/
def Part.accepts (c : Char) : Part → Bool
  | one d => c == d
  | any => true
  | several => false
  | bracket negated members => (members.any (·.has c)) != negated

/-- Does the pattern fit the whole text? -/
def fits : List Part → List Char → Bool
  | [], s => s.isEmpty
  | .several :: ps, [] => fits ps []
  | .several :: ps, c :: s => fits ps (c :: s) || fits (.several :: ps) s
  | p :: ps, c :: s => p.accepts c && fits ps s
  | _ :: _, [] => false
termination_by ps s => ps.length + s.length

/-- The ways to cut a text in two, with the shortest front first. -/
def splits (s : List Char) : List (List Char × List Char) :=
  (List.range (s.length + 1)).map fun n => (s.take n, s.drop n)

/-- A text without what the pattern fits at its front. -/
def stripFront (longest : Bool) (p : List Part) (s : List Char) : List Char :=
  let cuts := if longest then (splits s).reverse else splits s
  ((cuts.find? fun x => fits p x.1).map (·.2)).getD s

/-- A text without what the pattern fits at its back. -/
def stripBack (longest : Bool) (p : List Part) (s : List Char) : List Char :=
  let cuts := if longest then splits s else (splits s).reverse
  ((cuts.find? fun x => fits p x.2).map (·.1)).getD s

/-- A text with another one in place of what the pattern fits: the longest fit at every place, or only
at the first one. -/
def replaceFits (all : Bool) (p : List Part) (new : List Char) : Nat → List Char → List Char
  | 0, s => s
  | _, [] => []
  | fuel + 1, c :: s =>
    match (splits (c :: s)).reverse.find? fun x => x.1 ≠ [] && fits p x.1 with
    | some (_, r) => new ++ if all then replaceFits all p new fuel r else r
    | none => c :: replaceFits all p new fuel s

example : fits (patternOf [('a', false), ('*', false)]) ['a', 'b', '*'] = true := by cbv
example : fits (patternOf [('a', false), ('*', true)]) ['a', 'b', '*'] = false := by cbv

end NetPlot.Emulation.Shell
