/-
  Quoted TOML strings: basic and literal, on one line or over several.

  1. **Readers** — each takes the text after the opening quotes and gives the content with the
     text after the closing ones.  Basic strings know escapes, literal ones do not.  A string over
     several lines drops a line end right after its opening quotes, may hold one or two quotes in
     a row, and a backslash before a line end joins lines.

  2. **Progress** — every reader gives back less than it got (`length_of_string?`).
-/
import NetPlot.Toml.Value

namespace NetPlot.Toml

open NetPlot.Text

/-! ## Characters -/

/-- A character that may stand in comments and strings as it is; quotes, backslashes and line ends
have rules of their own. -/
def isPlainChar (c : Char) : Bool := c == '\t' || (0x20 ≤ c.toNat && c.toNat != 0x7F)

/-- White space inside a line. -/
def isGap (c : Char) : Bool := c == ' ' || c == '\t'

/-- What follows a line end. -/
def afterNewline? : List Char → Option (List Char)
  | '\n' :: r => some r
  | '\r' :: '\n' :: r => some r
  | _ => none

theorem length_of_afterNewline? {s r : List Char} (h : afterNewline? s = some r) :
    r.length < s.length := by
  unfold afterNewline? at h
  split at h <;> cases h
  · simp
  · simp only [List.length_cons]; omega

/-! ## Escapes -/

/-- The character with the number that `n` hexadecimal digits give. -/
def numbered? (n : Nat) (s : List Char) : Option (Char × List Char) :=
  let ds := s.take n
  if ds.length = n ∧ ds.all (isDigitIn 16) ∧ (numeral 16 ds).isValidChar then
    some (Char.ofNat (numeral 16 ds), s.drop n)
  else none

/-- The escape after a backslash. -/
def escape? : List Char → Option (Char × List Char)
  | 'b' :: r => some ('\x08', r)
  | 't' :: r => some ('\t', r)
  | 'n' :: r => some ('\n', r)
  | 'f' :: r => some ('\x0c', r)
  | 'r' :: r => some ('\r', r)
  | 'e' :: r => some ('\x1b', r)
  | '"' :: r => some ('"', r)
  | '\\' :: r => some ('\\', r)
  | 'x' :: r => numbered? 2 r
  | 'u' :: r => numbered? 4 r
  | 'U' :: r => numbered? 8 r
  | _ => none

theorem length_of_numbered? {n : Nat} {s r : List Char} {c : Char}
    (h : numbered? n s = some (c, r)) : r.length ≤ s.length := by
  unfold numbered? at h
  simp only at h
  split at h
  · cases h; simp
  · cases h

theorem length_of_escape? {s r : List Char} {c : Char} (h : escape? s = some (c, r)) :
    r.length < s.length := by
  unfold escape? at h
  split at h
  iterate 8 (cases h; simp)
  iterate 3
    have := length_of_numbered? h
    simp
    omega
  cases h

/-! ## On one line -/

/-- The rest of a basic string. -/
def basic? : List Char → Option (List Char × List Char)
  | [] => none
  | c :: s =>
    if c = '"' then some ([], s)
    else if c = '\\' then
      match _h : escape? s with
      | some (c, r) => (basic? r).map fun (cs, r) => (c :: cs, r)
      | none => none
    else if isPlainChar c then (basic? s).map fun (cs, r) => (c :: cs, r)
    else none
termination_by s => s.length
decreasing_by
  · have := length_of_escape? _h; simp; omega
  · simp

/-- The rest of a literal string. -/
def literal? (s : List Char) : Option (List Char × List Char) :=
  match splitRun (fun c => isPlainChar c && c != '\'') s with
  | (cs, '\'' :: r) => some (cs, r)
  | _ => none

/-! ## Over several lines -/

/-- The text after the first line end, if there is one at the front. -/
def dropNewline (s : List Char) : List Char := (afterNewline? s).getD s

/-- The closing of a string over several lines: three quotes, with up to two more in front of
them that belong to the content. -/
def closing? (q : Char) (s : List Char) : Option (List Char × List Char) :=
  let n := (s.takeWhile (· == q)).length
  if 3 ≤ n then some (List.replicate (min 2 (n - 3)) q, s.drop (3 + min 2 (n - 3))) else none

/-- The text after white space and line ends. -/
def skipLines : List Char → List Char
  | [] => []
  | c :: s =>
    if isGap c ∨ c = '\n' ∨ (c = '\r' ∧ s.head? = some '\n') then skipLines s else c :: s

theorem length_skipLines_le (s : List Char) : (skipLines s).length ≤ s.length := by
  induction s with
  | nil => simp [skipLines]
  | cons c s ih =>
    unfold skipLines
    split
    · simp only [List.length_cons]; omega
    · exact Nat.le_refl _

/-- What follows a backslash at the end of a line: the text after all white space and line ends. -/
def joined? (s : List Char) : Option (List Char) :=
  if (afterNewline? (s.dropWhile isGap)).isSome then some (skipLines s) else none

theorem length_of_joined? {s r : List Char} (h : joined? s = some r) : r.length ≤ s.length := by
  unfold joined? at h
  split at h
  · cases h; exact length_skipLines_le s
  · cases h

/-- The rest of a basic string over several lines. -/
def multiBasic? : List Char → Option (List Char × List Char)
  | [] => none
  | c :: s =>
    match closing? '"' (c :: s) with
    | some (cs, r) => some (cs, r)
    | none =>
      if c = '\\' then
        match _hj : joined? s with
        | some r => multiBasic? r
        | none =>
          match _he : escape? s with
          | some (c, r) => (multiBasic? r).map fun (cs, r) => (c :: cs, r)
          | none => none
      else if isPlainChar c ∨ (afterNewline? (c :: s)).isSome then
        (multiBasic? s).map fun (cs, r) => (c :: cs, r)
      else none
termination_by s => s.length
decreasing_by
  · have := length_of_joined? _hj; simp; omega
  · have := length_of_escape? _he; simp; omega
  · simp

/-- The rest of a literal string over several lines. -/
def multiLiteral? : List Char → Option (List Char × List Char)
  | [] => none
  | c :: s =>
    match closing? '\'' (c :: s) with
    | some (cs, r) => some (cs, r)
    | none =>
      if isPlainChar c ∨ (afterNewline? (c :: s)).isSome then
        (multiLiteral? s).map fun (cs, r) => (c :: cs, r)
      else none

/-! ## Strings -/

/-- A string on one line, as keys have them. -/
def lineString? : List Char → Option (List Char × List Char)
  | '"' :: s => basic? s
  | '\'' :: s => literal? s
  | _ => none

/-- A string in any quotes. -/
def string? (s : List Char) : Option (List Char × List Char) :=
  if let some r := afterMark? "\"\"\"".toList s then multiBasic? (dropNewline r)
  else if let some r := afterMark? "'''".toList s then multiLiteral? (dropNewline r)
  else lineString? s

/-! ## Progress -/

theorem length_of_basic? {s r cs : List Char} (h : basic? s = some (cs, r)) :
    r.length < s.length := by
  fun_induction basic? s generalizing cs r with
  | case1 => cases h
  | case2 => cases h; simp
  | case3 s c' r' he _ ih =>
    simp only [Option.map_eq_some_iff, Prod.mk.injEq, Prod.exists] at h
    obtain ⟨_, r'', hr, -, rfl⟩ := h
    have := ih hr
    have := length_of_escape? he
    simp; omega
  | case4 => cases h
  | case5 c s _ _ _ ih =>
    simp only [Option.map_eq_some_iff, Prod.mk.injEq, Prod.exists] at h
    obtain ⟨_, r'', hr, -, rfl⟩ := h
    have := ih hr
    simp; omega
  | case6 => cases h

theorem length_of_literal? {s r cs : List Char} (h : literal? s = some (cs, r)) :
    r.length < s.length := by
  unfold literal? at h
  split at h
  next hs => have := length_of_splitRun hs; cases h; simp at this; omega
  next => cases h

theorem length_of_closing? {q : Char} {s r cs : List Char} (h : closing? q s = some (cs, r)) :
    r.length < s.length := by
  have hl : (s.takeWhile (· == q)).length ≤ s.length := (List.takeWhile_prefix _).length_le
  simp only [closing?, Option.ite_none_right_eq_some, Option.some.injEq, Prod.mk.injEq] at h
  obtain ⟨hq, -, rfl⟩ := h
  simp only [List.length_drop]
  omega

theorem length_of_multiBasic? {s r cs : List Char} (h : multiBasic? s = some (cs, r)) :
    r.length < s.length := by
  fun_induction multiBasic? s generalizing cs r with
  | case1 => cases h
  | case2 c s cs' r' hc => cases h; exact length_of_closing? hc
  | case3 s r' hj _ ih =>
    have := ih h
    have := length_of_joined? hj
    simp; omega
  | case4 s _ c' r' he _ ih =>
    simp only [Option.map_eq_some_iff, Prod.mk.injEq, Prod.exists] at h
    obtain ⟨_, r'', hr, -, rfl⟩ := h
    have := ih hr
    have := length_of_escape? he
    simp; omega
  | case5 => cases h
  | case6 c s _ _ _ ih =>
    simp only [Option.map_eq_some_iff, Prod.mk.injEq, Prod.exists] at h
    obtain ⟨_, r'', hr, -, rfl⟩ := h
    have := ih hr
    simp; omega
  | case7 => cases h

theorem length_of_multiLiteral? {s r cs : List Char} (h : multiLiteral? s = some (cs, r)) :
    r.length < s.length := by
  fun_induction multiLiteral? s generalizing cs r with
  | case1 => cases h
  | case2 c s cs' r' hc => cases h; exact length_of_closing? hc
  | case3 c s _ _ ih =>
    simp only [Option.map_eq_some_iff, Prod.mk.injEq, Prod.exists] at h
    obtain ⟨_, r'', hr, -, rfl⟩ := h
    have := ih hr
    simp; omega
  | case4 => cases h

theorem length_dropNewline_le (s : List Char) : (dropNewline s).length ≤ s.length := by
  unfold dropNewline
  cases h : afterNewline? s with
  | none => simp
  | some r => have := length_of_afterNewline? h; simp; omega

theorem length_of_lineString? {s r cs : List Char} (h : lineString? s = some (cs, r)) :
    r.length < s.length := by
  unfold lineString? at h
  split at h
  · have := length_of_basic? h; simp; omega
  · have := length_of_literal? h; simp; omega
  · cases h

/-- A string takes at least one character. -/
theorem length_of_string? {s r cs : List Char} (h : string? s = some (cs, r)) :
    r.length < s.length := by
  unfold string? at h
  split at h
  next r' hm =>
    have := length_afterMark? hm
    have := length_dropNewline_le r'
    have := length_of_multiBasic? h
    omega
  split at h
  next r' hm =>
    have := length_afterMark? hm
    have := length_dropNewline_le r'
    have := length_of_multiLiteral? h
    omega
  exact length_of_lineString? h

end NetPlot.Toml
