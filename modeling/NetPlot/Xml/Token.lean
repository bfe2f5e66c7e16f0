/-
  The tokens of an XML document: tags, runs of text, comments and processing instructions.

  1. **Program** — `Token.next?` reads the token at the front of a text, by what the text begins
     with; `tokens?` reads a whole text.  A token holds its text as written: references are
     resolved, and line ends normalised, when the tree is built.

  2. **Refusals** — a document type declaration, an XML declaration that is not at the very
     start, `--` inside a comment, `]]>` inside text, `<` inside an attribute value, an attribute
     not set off by white space, and the qualifier `xmlns` on an element.

  3. **Progress** — every token is followed by a shorter text (`length_of_next?`).
-/
import NetPlot.Xml.Name

namespace NetPlot.Xml

open NetPlot.Text

/-- A token of a document. -/
inductive Token where
  /-- A start tag with its attributes as written; `closed` if it ends in `/>`. -/
  | start (tag : QName) (attributes : List (QName × List Char)) (closed : Bool)
  /-- An end tag. -/
  | finish (tag : QName)
  /-- Character data up to the next markup. -/
  | text (raw : List Char)
  /-- The content of a CDATA section. -/
  | cdata (raw : List Char)
  | comment
  | instruction
  deriving DecidableEq, Repr

/-! ## Attributes -/

/-- A value in either kind of quotes. -/
def quoted? : List Char → Option (List Char × List Char)
  | q :: s =>
    if q = '"' ∨ q = '\'' then
      match splitRun (fun c => c != q && c != '<') s with
      | (value, c :: r) => if c = q then some (value, r) else none
      | (_, []) => none
    else none
  | [] => none

/-- A name, an equals sign and a quoted value; the sign may have white space around it. -/
def attribute? (s : List Char) : Option ((QName × List Char) × List Char) := do
  let (name, s) ← qname? s
  let s ← afterMark? ['='] (skipSpaces s)
  let (value, r) ← quoted? (skipSpaces s)
  some ((name, value), r)

theorem length_of_quoted? {s r v : List Char} (h : quoted? s = some (v, r)) :
    r.length < s.length := by
  cases s with
  | nil => simp [quoted?] at h
  | cons q s =>
    rw [quoted?] at h
    split at h
    · split at h
      next value c r' hs =>
        split at h
        · cases h
          have := length_of_splitRun hs
          simp at *; omega
        · cases h
      · cases h
    · cases h

theorem length_of_attribute? {s r : List Char} {a : QName × List Char}
    (h : attribute? s = some (a, r)) : r.length < s.length := by
  simp only [attribute?, Option.bind_eq_bind, Option.bind_eq_some_iff, Option.some.injEq,
    Prod.mk.injEq] at h
  obtain ⟨⟨n, s₁⟩, hn, s₂, he, ⟨v, s₃⟩, hv, -, rfl⟩ := h
  have h₁ := length_of_qname? hn
  have h₂ := length_afterMark? he
  have h₃ := length_of_quoted? hv
  have h₄ := length_skipSpaces_le s₁
  have h₅ := length_skipSpaces_le s₂
  simp only [List.length_cons, List.length_nil] at *
  omega

/-- The attributes of a start tag and whether it ends in `/>`.  Each attribute needs white space
in front of it. -/
def attributes? (s : List Char) : Option ((List (QName × List Char) × Bool) × List Char) :=
  if let some r := afterMark? ['/', '>'] (skipSpaces s) then some (([], true), r)
  else if let some r := afterMark? ['>'] (skipSpaces s) then some (([], false), r)
  else if s.head?.any isSpace then
    match _h : attribute? (skipSpaces s) with
    | some (a, r) => (attributes? r).map fun ((as, closed), r) => ((a :: as, closed), r)
    | none => none
  else none
termination_by s.length
decreasing_by
  have := length_of_attribute? _h
  have := length_skipSpaces_le s
  omega

theorem length_of_attributes? {s r : List Char} {a} (h : attributes? s = some (a, r)) :
    r.length < s.length := by
  fun_induction attributes? s generalizing a r with
  | case1 s r' hm =>
    cases h
    have := length_afterMark? hm
    have := length_skipSpaces_le s
    simp at *; omega
  | case2 s r' hm =>
    cases h
    have := length_afterMark? hm
    have := length_skipSpaces_le s
    simp at *; omega
  | case3 s _ a' r' ha _ _ ih =>
    simp only [Option.map_eq_some_iff, Prod.mk.injEq, Prod.exists] at h
    obtain ⟨as, closed, r'', hr, -, rfl⟩ := h
    have := ih hr
    have := length_of_attribute? ha
    have := length_skipSpaces_le s
    omega
  | case4 => cases h
  | case5 => cases h

/-! ## Tokens -/

/-- What follows `<!--`: a comment ends at the first `-->` and holds no `--`. -/
def comment? (s : List Char) : Option (Token × List Char) := do
  let (body, r) ← cutAt "-->".toList s
  if (cutAt "--".toList body).isSome || body.getLast? == some '-' then none
  else some (.comment, r)

/-- What follows `<?`: a processing instruction is a target and anything up to `?>`. -/
def instruction? (s : List Char) : Option (Token × List Char) := do
  if (afterMark? "xml ".toList s).isSome then none
  let (_, s) ← name? s
  let (_, r) ← cutAt "?>".toList s
  some (.instruction, r)

/-- What follows `</`: a name and `>`. -/
def finish? (s : List Char) : Option (Token × List Char) := do
  let (tag, s) ← qname? s
  let r ← afterMark? ['>'] (skipSpaces s)
  some (.finish tag, r)

/-- What follows `<` in a start tag. -/
def start? (s : List Char) : Option (Token × List Char) := do
  let (tag, s) ← qname? s
  if tag.qualifier = "xmlns" then none
  let ((attributes, closed), r) ← attributes? s
  some (.start tag attributes closed, r)

/-- Character data up to the next `<`; it holds no `]]>`. -/
def text? (s : List Char) : Option (Token × List Char) :=
  match splitRun (· != '<') s with
  | ([], _) => none
  | (raw, r) => if (cutAt "]]>".toList raw).isSome then none else some (.text raw, r)

/-- The token at the front of `s`. -/
def Token.next? (s : List Char) : Option (Token × List Char) :=
  if let some r := afterMark? "<!--".toList s then comment? r
  else if let some r := afterMark? "<![CDATA[".toList s then
    (cutAt "]]>".toList r).map fun (raw, r) => (.cdata raw, r)
  else if let some r := afterMark? "<?".toList s then instruction? r
  else if let some r := afterMark? "</".toList s then finish? r
  else if let some r := afterMark? "<".toList s then start? r
  else text? s

/-! ## Progress -/

theorem length_of_comment? {s r : List Char} {t : Token} (h : comment? s = some (t, r)) :
    r.length ≤ s.length := by
  simp only [comment?, Option.bind_eq_bind, Option.bind_eq_some_iff] at h
  obtain ⟨⟨b, r'⟩, hc, h⟩ := h
  have := length_of_cutAt hc
  split at h <;> cases h
  simp only at *; omega

theorem length_of_instruction? {s r : List Char} {t : Token} (h : instruction? s = some (t, r)) :
    r.length ≤ s.length := by
  unfold instruction? at h
  split at h
  · simp at h
  · simp only [Option.bind_eq_bind, Option.bind_eq_some_iff, Option.some.injEq, Prod.mk.injEq] at h
    obtain ⟨⟨n, s'⟩, hn, ⟨b, r'⟩, hc, -, rfl⟩ := h
    have := length_of_cutAt hc
    have := length_of_name? hn
    simp only at *; omega

theorem length_of_finish? {s r : List Char} {t : Token} (h : finish? s = some (t, r)) :
    r.length ≤ s.length := by
  simp only [finish?, Option.bind_eq_bind, Option.bind_eq_some_iff, Option.some.injEq,
    Prod.mk.injEq] at h
  obtain ⟨⟨n, s'⟩, hn, r', hr, -, rfl⟩ := h
  have := length_of_qname? hn
  have := length_afterMark? hr
  have := length_skipSpaces_le s'
  simp at *; omega

theorem length_of_start? {s r : List Char} {t : Token} (h : start? s = some (t, r)) :
    r.length ≤ s.length := by
  simp only [start?, Option.bind_eq_bind, Option.bind_eq_some_iff] at h
  obtain ⟨⟨n, s'⟩, hn, h⟩ := h
  split at h
  · simp at h
  · simp only [Option.bind_eq_some_iff, Option.some.injEq, Prod.mk.injEq] at h
    obtain ⟨⟨as, r'⟩, ha, -, rfl⟩ := h
    have := length_of_qname? hn
    have := length_of_attributes? ha
    simp only at *; omega

theorem length_of_text? {s r : List Char} {t : Token} (h : text? s = some (t, r)) :
    r.length < s.length := by
  unfold text? at h
  split at h
  · cases h
  next raw r' hne hs =>
    split at h
    · cases h
    · cases h
      have := length_of_splitRun hs
      cases raw with
      | nil => exact (hne rfl).elim
      | cons c cs => simp at this; omega

/-- A token takes at least one character. -/
theorem length_of_next? {s r : List Char} {t : Token} (h : Token.next? s = some (t, r)) :
    r.length < s.length := by
  unfold Token.next? at h
  split at h
  next hm => have := length_afterMark? hm; have := length_of_comment? h; simp at *; omega
  split at h
  next hm =>
    simp only [Option.map_eq_some_iff, Prod.mk.injEq, Prod.exists] at h
    obtain ⟨raw, r', hc, -, rfl⟩ := h
    have := length_afterMark? hm; have := length_of_cutAt hc; simp at *; omega
  split at h
  next hm => have := length_afterMark? hm; have := length_of_instruction? h; simp at *; omega
  split at h
  next hm => have := length_afterMark? hm; have := length_of_finish? h; simp at *; omega
  split at h
  next hm => have := length_afterMark? hm; have := length_of_start? h; simp at *; omega
  exact length_of_text? h

/-- The tokens of a whole text. -/
def tokens? (s : List Char) : Option (List Token) :=
  match s with
  | [] => some []
  | c :: cs =>
    match _h : Token.next? (c :: cs) with
    | some (t, r) => (tokens? r).map (t :: ·)
    | none => none
termination_by s.length
decreasing_by exact length_of_next? _h

end NetPlot.Xml
