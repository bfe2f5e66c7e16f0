/-
  Reading record labels back.

  1. **Program** — `readRecord?` takes a record label apart at its braces and bars, and each field
     of a port at the brackets of its tag.

  2. **Characters** — labels are written with letters, digits, `_`, `-` and what parts their
     fields and lines (`isTextChar_of_mem_pretty`), so no structure can be read into them.

  3. **Round trip** — a record is read back as its ports, inputs and outputs in order, each with
     the tag and the label that it was written with (`readRecord?_record`).
-/
import NetPlot.Label.Record
import NetPlot.Proofs.Answer
import NetPlot.Proofs.Text.Cut

namespace NetPlot.Label

open NetPlot.Answer NetPlot.Text

/-! ## Reading

The reader knows only the structure of a record: braces around sides, bars between fields, brackets
around tags.  It does not look at what the writer had in mind. -/

/-- What can be read off a record label: tags and texts of the ports, and the text of the body. -/
structure Fields where
  inputs : List (String × String)
  body : String
  outputs : List (String × String)
  deriving DecidableEq, Repr

/-- The ports that go one way. -/
def Fields.side (f : Fields) : Direction → List (String × String)
  | .input => f.inputs
  | .output => f.outputs

/-- The tag of a field, and the text after it. -/
def readField? : List Char → Option (String × String)
  | '<' :: s => (cutAt ['>'] s).map fun (tag, text) => (String.ofList tag, String.ofList text)
  | _ => none

/-- Fields between bars, if there are any. -/
def readFields? (s : List Char) : Option (List (String × String)) :=
  if s = [] then some [] else (pieces '|' [] s).mapM readField?

/-- What stands between braces at the front of a text, and what follows them. -/
def readBraces? (s : List Char) : Option (List Char × List Char) :=
  (afterMark? ['\x7b', ' '] s).bind (cutAt [' ', '\x7d'])

/-- The fields of a record label. -/
def readRecord? (s : String) : Option Fields := do
  let s ← afterMark? ['\x7b', ' '] s.toList
  let (inputs, s) ← readBraces? s
  let (body, s) ← (afterMark? [' ', '|', ' '] s).bind readBraces?
  let (outputs, s) ← (afterMark? [' ', '|', ' '] s).bind readBraces?
  if s = [' ', '\x7d'] then
    some ⟨← readFields? inputs, String.ofList body, ← readFields? outputs⟩
  else none

example : readRecord? "\x7b \x7b <i>int|<> \x7d | \x7b P : q \x7d | \x7b  \x7d \x7d" =
    some ⟨[("i", "int"), ("", "")], "P : q", []⟩ := by decide +kernel

/-! ## Characters

This is why a record can be read back: the marks of a record are not among the characters of its
texts. -/

/-- A character that labels are written with. -/
def isTextChar (c : Char) : Bool := isFieldChar c || c == ' ' || c == ':' || c == '\n'

/-- What holds of the characters of texts and of what is put between them holds of all. -/
theorem forall_mem_intercalate {P : Char → Prop} {mark : String} {texts : List String}
    (hm : ∀ c ∈ mark.toList, P c) (h : ∀ t ∈ texts, ∀ c ∈ t.toList, P c) :
    ∀ c ∈ (mark.intercalate texts).toList, P c := by
  rw [String.toList_intercalate]
  induction texts with
  | nil => exact fun c hc => absurd hc List.not_mem_nil
  | cons t texts ih =>
    have ih := ih fun x hx => h x (List.mem_cons_of_mem t hx)
    -- the mark stands behind a text only if another one follows
    cases texts with
    | nil => simpa using h t List.mem_cons_self
    | cons x texts =>
      intro c hc
      rw [List.map_cons, List.map_cons, List.intercalate_cons_cons, List.mem_append,
        List.mem_append] at hc
      rcases hc with (hc | hc) | hc
      · exact h t List.mem_cons_self c hc
      · exact hm c hc
      · exact ih c hc

/-- A label shows fields that are sanitised, and puts only spaces, colons and line ends between
them. -/
theorem isTextChar_of_mem_pretty {rows : Rows} :
    ∀ c ∈ (pretty rows).toList, isTextChar c = true := by
  refine forall_mem_intercalate (by simp [isTextChar]) fun line hl => ?_
  obtain ⟨fields, hf, rfl⟩ := List.mem_map.mp hl
  refine forall_mem_intercalate (by simp [isTextChar]) fun field hfield c hc => ?_
  -- a line shows a record, and a record shows its fields sanitised
  have hf : fields ∈ rows.flatten.map shown := by
    rw [shownLines, List.mem_reverse] at hf
    exact List.mem_reverse.mp ((List.dropWhile_sublist _).subset hf)
  obtain ⟨record, -, rfl⟩ := List.mem_map.mp hf
  obtain ⟨raw, -, rfl⟩ := List.mem_map.mp (List.mem_filter.mp hfield).1
  simp [isTextChar, sanitize_chars hc]

theorem not_mem_pretty {c : Char} (hc : isTextChar c = false) (rows : Rows) :
    c ∉ (pretty rows).toList := fun h => by
  rw [isTextChar_of_mem_pretty c h] at hc
  cases hc

theorem not_mem_sanitize {c : Char} (hc : isFieldChar c = false) (s : String) :
    c ∉ (sanitize s).toList := fun h => by
  rw [sanitize_chars h] at hc
  cases hc

/-! ## Round trip

From the inside out: a field, the fields of one side, the braces around them, the whole record.  At
each level the character that ends it is none of those inside, so reading stops where the writer
stopped. -/

/-- A field is written as its tag in brackets and its label behind. -/
theorem toList_portField (p : Port) :
    (portField p).toList =
      '<' :: ((sanitize p.name).toList ++ ['>'] ++ (pretty p.label).toList) := by
  simp [portField]

/-- The tag ends at the first `>`, and sanitised names have none. -/
theorem readField?_portField (p : Port) :
    readField? (portField p).toList = some (sanitize p.name, pretty p.label) := by
  have hc : cutAt ['>'] ((sanitize p.name).toList ++ ['>'] ++ (pretty p.label).toList) =
      some ((sanitize p.name).toList, (pretty p.label).toList) := by
    refine cutAt_of_not_mem (c := '>') List.mem_cons_self ?_ _
    simpa using not_mem_sanitize (c := '>') (by decide) p.name
  rw [toList_portField, readField?, hc]
  simp

/-- No field holds a character that parts fields or closes braces. -/
theorem not_mem_portField {c : Char} (hf : c ≠ '<' ∧ c ≠ '>') (hc : isTextChar c = false)
    (p : Port) : c ∉ (portField p).toList := by
  have hs : isFieldChar c = false := by
    simp only [isTextChar, Bool.or_eq_false_iff] at hc
    exact hc.1.1.1
  rw [toList_portField]
  simp [hf, not_mem_pretty hc, not_mem_sanitize hs]

/-- The ports that go one way, as they are read. -/
def fieldsOf (ports : List Port) (d : Direction) : List (String × String) :=
  (ports.filter (·.direction = d)).map fun p => (sanitize p.name, pretty p.label)

theorem toList_portFields (ports : List Port) (d : Direction) :
    (portFields ports d).toList =
      ['|'].intercalate ((ports.filter (·.direction = d)).map fun p => (portField p).toList) := by
  rw [portFields, String.toList_intercalate, List.map_map]
  rfl

/-- No field has a bar in it, so cutting at the bars gives the fields again; a side without ports is
the empty text, which is read as no fields and not as an empty one. -/
theorem readFields?_portFields (ports : List Port) (d : Direction) :
    readFields? (portFields ports d).toList = some (fieldsOf ports d) := by
  rw [toList_portFields, fieldsOf, readFields?]
  generalize ports.filter (·.direction = d) = ps
  cases ps with
  | nil => rfl
  | cons p ps =>
    have hne : ['|'].intercalate ((p :: ps).map fun p => (portField p).toList) ≠ [] := by
      cases ps <;> simp [toList_portField]
    -- no field holds a bar of its own, so cutting at the bars gives the fields back
    have hbar : ∀ s ∈ (p :: ps).map fun p => (portField p).toList, '|' ∉ s := by
      intro s hs
      obtain ⟨p, -, rfl⟩ := List.mem_map.mp hs
      exact not_mem_portField (by decide) (by decide) p
    rw [if_neg hne, pieces_intercalate (by simp) hbar, List.mapM_map]
    refine mapM_eq_some fun p _ => ?_
    rw [Function.comp_apply, readField?_portField]

/-- The fields of a side hold no closing brace, so the brace behind them is the first one. -/
theorem not_mem_portFields (ports : List Port) (d : Direction) :
    '\x7d' ∉ (portFields ports d).toList := by
  intro h
  refine forall_mem_intercalate (P := ('\x7d' ≠ ·)) (by simp) (fun t ht c hc he => ?_) _ h rfl
  obtain ⟨p, -, rfl⟩ := List.mem_map.mp ht
  exact not_mem_portField (by decide) (by decide) p (he ▸ hc)

theorem afterMark?_append (mark r : List Char) : afterMark? mark (mark ++ r) = some r :=
  afterMark?_eq_some.mpr rfl

/-- Braces are read up to the closing one. -/
theorem readBraces?_append {s : List Char} (hs : '\x7d' ∉ s) (r : List Char) :
    readBraces? (['\x7b', ' '] ++ (s ++ [' ', '\x7d'] ++ r)) = some (s, r) := by
  rw [readBraces?, afterMark?_append]
  exact cutAt_of_not_mem (c := '\x7d') (by simp) (by simpa using hs) r

/-- A record label is read back as the fields that it was written from. -/
theorem readRecord?_record (process : Rows) (ports : List Port) :
    readRecord? (record process ports) =
      some ⟨fieldsOf ports .input, pretty process, fieldsOf ports .output⟩ := by
  have hi := not_mem_portFields ports .input
  have hb : '\x7d' ∉ (pretty process).toList := not_mem_pretty (by decide) process
  have ho := not_mem_portFields ports .output
  have hrecord : (record process ports).toList =
      ['\x7b', ' '] ++ (['\x7b', ' '] ++ ((portFields ports .input).toList ++ [' ', '\x7d'] ++
        ([' ', '|', ' '] ++ (['\x7b', ' '] ++ ((pretty process).toList ++ [' ', '\x7d'] ++
          ([' ', '|', ' '] ++ (['\x7b', ' '] ++ ((portFields ports .output).toList ++
            [' ', '\x7d'] ++ [' ', '\x7d'])))))))) := by
    simp [record]
  -- each brace is read, then the bar after it
  simp only [readRecord?, hrecord, afterMark?_append, readBraces?_append hi,
    readBraces?_append hb, readBraces?_append ho, readFields?_portFields, Option.bind_eq_bind,
    Option.bind_some, if_true, String.ofList_toList]

end NetPlot.Label
