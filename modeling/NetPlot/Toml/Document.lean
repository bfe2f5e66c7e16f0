/-
  Reading a TOML text.

  1. **Program** — `key?` reads a dotted key, `value?` a value with everything inside it,
     `statement?` one entry or header, and `parse?` a whole text.

  2. **Progress** — a reader gives the rest of the text with a proof that it is shorter (`Step`),
     so that each loop ends with its text.  Values nest at most `depthLimit` deep.

  What may be defined where is not decided here but by the operations on `Fields`.
-/
import NetPlot.Toml.Quoted
import NetPlot.Toml.Scalar
import NetPlot.Toml.Table

namespace NetPlot.Toml

open NetPlot.Text

/-- What a reader found, and the shorter text after it. -/
abbrev Step (α : Type) (s : List Char) := Option (α × { r : List Char // r.length < s.length })

/-! ## Blanks -/

/-- The text after blanks, line ends and comments. -/
def skipFiller : List Char → List Char
  | [] => []
  | c :: s =>
    if isGap c ∨ c = '\n' then skipFiller s
    else if c = '#' then skipFiller (s.dropWhile isPlainChar)
    else if c = '\r' ∧ s.head? = some '\n' then skipFiller s
    else c :: s
termination_by s => s.length
decreasing_by
  · simp
  · have := (List.dropWhile_suffix isPlainChar (l := s)).length_le; simp; omega
  · simp

theorem length_skipFiller_le (s : List Char) : (skipFiller s).length ≤ s.length := by
  fun_induction skipFiller s with
  | case1 => simp
  | case2 c s _ ih => simp; omega
  | case3 s _ ih =>
    have := (List.dropWhile_suffix isPlainChar (l := s)).length_le
    simp; omega
  | case4 s _ ih => simp; omega
  | case5 => simp

/-- The text after blanks inside a line. -/
def skipGap (s : List Char) : List Char := s.dropWhile isGap

theorem length_skipGap_le (s : List Char) : (skipGap s).length ≤ s.length :=
  (List.dropWhile_suffix isGap).length_le

/-- The text after blanks and a comment, up to the end of the line. -/
def skipComment (s : List Char) : List Char :=
  match skipGap s with
  | '#' :: r => r.dropWhile isPlainChar
  | r => r

theorem length_skipComment_le (s : List Char) : (skipComment s).length ≤ s.length := by
  have hg := length_skipGap_le s
  unfold skipComment
  split
  next r hs =>
    have := (List.dropWhile_suffix isPlainChar (l := r)).length_le
    simp [hs] at hg; omega
  next => exact hg

/-- The text after the end of a line, which may hold a comment. -/
def lineEnd? (s : List Char) : Option (List Char) :=
  if skipComment s = [] then some [] else afterNewline? (skipComment s)

theorem length_of_lineEnd? {s r : List Char} (h : lineEnd? s = some r) : r.length ≤ s.length := by
  unfold lineEnd? at h
  split at h
  · cases h; simp
  · have := length_of_afterNewline? h
    have := length_skipComment_le s
    omega

/-! ## Keys -/

/-- One name of a dotted key. -/
def name? (s : List Char) : Option (List Char × List Char) :=
  match splitRun isBareKeyChar s with
  | ([], _) => lineString? s
  | (run, r) => some (run, r)

theorem length_of_name? {s r name : List Char} (h : name? s = some (name, r)) :
    r.length < s.length := by
  unfold name? at h
  split at h
  · exact length_of_lineString? h
  next run r' hne hs =>
    have := length_of_splitRun hs
    cases h
    cases name with
    | nil => exact (hne rfl).elim
    | cons c cs => simp at this; omega

theorem length_of_dot {s r r' name : List Char} (h : name? s = some (name, r))
    (hg : skipGap r = '.' :: r') : (skipGap r').length < s.length := by
  have := length_of_name? h
  have hr := length_skipGap_le r
  have := length_skipGap_le r'
  rw [hg, List.length_cons] at hr
  omega

/-- The names of a dotted key. -/
def names? (s : List Char) : Step Key s :=
  match _h : name? s with
  | none => none
  | some (name, r) =>
    have hr : r.length < s.length := length_of_name? _h
    match _hg : skipGap r with
    | '.' :: r' =>
      have hl : (skipGap r').length < s.length := length_of_dot _h _hg
      (names? (skipGap r')).map fun (k, t) =>
        (⟨String.ofList name :: k.path, k.name⟩, ⟨t, Nat.lt_trans t.2 hl⟩)
    | _ => some (⟨[], String.ofList name⟩, ⟨r, hr⟩)
termination_by s.length

/-- How many names a dotted key may have. -/
def nameLimit : Nat := 80

/-- A dotted key. -/
def key? (s : List Char) : Step Key s :=
  (names? s).filter fun x => x.1.path.length < nameLimit

/-! ## Values -/

/-- How deep arrays and tables may be nested in a value. -/
def depthLimit : Nat := 80

/-- The text after blanks; inside of braces line ends and comments count as such. -/
def skip (inBraces : Bool) (s : List Char) : List Char :=
  if inBraces then skipFiller s else skipGap s

theorem length_skip_le (inBraces : Bool) (s : List Char) : (skip inBraces s).length ≤ s.length := by
  unfold skip
  split
  · exact length_skipFiller_le s
  · exact length_skipGap_le s

theorem length_of_assigned {b : Bool} {s r r' : List Char} (hr : r.length < s.length)
    (h : skip b r = '=' :: r') : (skip b r').length < s.length := by
  have h₁ := length_skip_le b r
  have h₂ := length_skip_le b r'
  rw [h, List.length_cons] at h₁
  omega

/-- A key with its equals sign and the blanks around it. -/
def assigned? (inBraces : Bool) (s : List Char) : Step Key s :=
  match key? s with
  | none => none
  | some (key, r) =>
    match _h : skip inBraces r with
    | '=' :: r' => some (key, ⟨skip inBraces r', length_of_assigned r.2 _h⟩)
    | _ => none

mutual

/-- A value, in which as many more levels may be nested as `depth` says. -/
def value? (depth : Nat) (s : List Char) : Step Value s :=
  match s, depth with
  | '[' :: r, depth + 1 =>
    (items? depth r).map fun (vs, t) => (.array vs, ⟨t, Nat.lt_succ_of_lt t.2⟩)
  | '{' :: r, depth + 1 =>
    (fields? depth [] r).map fun (es, t) => (.table es.freeze, ⟨t, Nat.lt_succ_of_lt t.2⟩)
  | s, _ =>
    match _hs : string? s with
    | some (cs, r) => some (.string (String.ofList cs), ⟨r, length_of_string? _hs⟩)
    | none =>
      match _hv : scalar? s with
      | some (v, r) => some (v, ⟨r, length_of_scalar? _hv⟩)
      | none => none
termination_by 2 * s.length

/-- The items of an array up to its closing bracket. -/
def items? (depth : Nat) (s : List Char) : Step (List Value) s :=
  have hs := length_skipFiller_le s
  match _hf : skipFiller s with
  | ']' :: r => some ([], ⟨r, by simp [_hf] at hs; omega⟩)
  | f =>
    match value? depth f with
    | none => none
    | some (v, r) =>
      have hr := r.2
      have hg := length_skipFiller_le r.1
      match _hg : skipFiller r.1 with
      | ',' :: t =>
        have ht : t.length < s.length := by rw [_hf] at hs; simp [_hg] at hg; omega
        (items? depth t).map fun (vs, u) => (v :: vs, ⟨u, Nat.lt_trans u.2 ht⟩)
      | ']' :: t => some ([v], ⟨t, by rw [_hf] at hs; simp [_hg] at hg; omega⟩)
      | _ => none
termination_by 2 * s.length + 1
decreasing_by
  · rw [_hf] at hs; omega
  · omega

/-- The entries of a table up to its closing brace. -/
def fields? (depth : Nat) (es : Fields) (s : List Char) : Step Fields s :=
  have hs := length_skipFiller_le s
  match _hf : skipFiller s with
  | '}' :: r => some (es, ⟨r, by simp [_hf] at hs; omega⟩)
  | f =>
    match assigned? true f with
    | none => none
    | some (key, a) =>
      have ha := a.2
      match value? depth a.1 with
      | none => none
      | some (v, r) =>
        have hr := r.2
        have hg := length_skipFiller_le r.1
        match es.addHere key v with
        | none => none
        | some es =>
          match _hg : skipFiller r.1 with
          | ',' :: t =>
            have ht : t.length < s.length := by rw [_hf] at hs; simp [_hg] at hg; omega
            (fields? depth es t).map fun (es, u) => (es, ⟨u, Nat.lt_trans u.2 ht⟩)
          | '}' :: t => some (es, ⟨t, by rw [_hf] at hs; simp [_hg] at hg; omega⟩)
          | _ => none
termination_by 2 * s.length + 1
decreasing_by
  · rw [_hf] at hs; omega
  · omega

end

/-! ## Statements -/

/-- A text being read: the header that holds, and what has been read. -/
structure Reading where
  header : List String
  fields : Fields

/-- A key in brackets, up to the closing mark. -/
def headerKey? (closing s : List Char) : Option (Key × List Char) :=
  match key? (skipGap s) with
  | none => none
  | some (key, r) => (afterMark? closing (skipGap r)).map (key, ·)

theorem length_of_headerKey? {closing s r : List Char} {k : Key}
    (h : headerKey? closing s = some (k, r)) : r.length < s.length := by
  unfold headerKey? at h
  split at h
  · cases h
  next k' r' _ =>
    simp only [Option.map_eq_some_iff, Prod.mk.injEq] at h
    obtain ⟨r'', hr, -, rfl⟩ := h
    have := length_afterMark? hr
    have := length_skipGap_le r'.1
    have := length_skipGap_le s
    have := r'.2
    omega

/-- One header or entry, without the end of its line. -/
def statement? (x : Reading) (s : List Char) : Option (Reading × List Char) :=
  match s with
  | '[' :: '[' :: r => do
    let (key, r) ← headerKey? [']', ']'] r
    let fields ← x.fields.openRow key
    some (⟨key.full, fields⟩, r)
  | '[' :: r => do
    let (key, r) ← headerKey? [']'] r
    let fields ← x.fields.openTable key
    some (⟨key.full, fields⟩, r)
  | s => do
    let (key, r) ← assigned? false s
    let (v, r) ← value? depthLimit r
    let fields ← x.fields.addEntry x.header key v
    some (⟨x.header, fields⟩, r)

theorem length_of_statement? {x y : Reading} {s r : List Char}
    (h : statement? x s = some (y, r)) : r.length < s.length := by
  unfold statement? at h
  split at h
  · simp only [bind, Option.bind_eq_some_iff, Option.some.injEq, Prod.mk.injEq, Prod.exists] at h
    obtain ⟨k, r', hk, _, -, -, rfl⟩ := h
    have := length_of_headerKey? hk
    simp; omega
  · simp only [bind, Option.bind_eq_some_iff, Option.some.injEq, Prod.mk.injEq, Prod.exists] at h
    obtain ⟨k, r', hk, _, -, -, rfl⟩ := h
    have := length_of_headerKey? hk
    simp; omega
  · simp only [bind, Option.bind_eq_some_iff, Option.some.injEq, Prod.mk.injEq, Prod.exists] at h
    obtain ⟨k, r', -, v, r'', -, _, -, -, rfl⟩ := h
    have := r'.2
    have := r''.2
    omega

/-- The statements of a text, each on a line of its own. -/
def statements? (x : Reading) (s : List Char) : Option Fields :=
  match _hs : skipFiller s with
  | [] => some x.fields
  | c :: cs =>
    match _hc : statement? x (c :: cs) with
    | none => none
    | some (y, r) =>
      match _hr : lineEnd? r with
      | none => none
      | some t => statements? y t
termination_by s.length
decreasing_by
  have := length_skipFiller_le s
  have := length_of_statement? _hc
  have := length_of_lineEnd? _hr
  simp [_hs] at *
  omega

/-- The entries of a TOML text in the order of their keys; none if the text is no TOML.  A byte
order mark at the front does not count. -/
def parse? (text : String) : Option (List (String × Value)) :=
  let s := text.toList
  let s := if s.head? = some '\ufeff' then s.drop 1 else s
  (statements? ⟨[], []⟩ s).map Fields.freeze

end NetPlot.Toml
