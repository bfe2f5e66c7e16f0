/-
  Bound values put into quotes.

  1. **Putting in** — a value takes the place of its reference, and what stands around it stays
     (`render_reference`).

  2. **Queries** — so a reference in single quotes is a quoted text if the value has no such quote in
     it (`evaluate_quoted`), and the value that an attribute is compared with
     (`evaluate_comparison`).
-/
import NetPlot.Proofs.Label.Alignment
import NetPlot.Proofs.Query.ChildAttributes

namespace NetPlot.Label

open NetPlot.Text NetPlot.Xml
open NetPlot.Query (IsName evaluate_childAttribute isPicked parse_childAttribute
  print_childAttribute_attrEquals)
open NetPlot.Query.Reader (isNameChar not_mem_of_isName)

/-! ## Putting in

A template is split at its references, and rendering writes the segments one after the other.  Text
in front that has no `$` is split off as it stands, so the references behind it are found alike. -/

namespace Segment

/-- A text with values put in for its references. -/
def rendered (values : List String) (s : List Char) : List Char :=
  (split s).flatMap fun segment => (segment.render values).toList

/-- A character in front of a text goes in front of what the text is rendered to. -/
theorem flatMap_render_consText (values : List String) (c : Char) (segments : List Segment) :
    (consText c segments).flatMap (fun segment => (segment.render values).toList) =
      c :: segments.flatMap fun segment => (segment.render values).toList := by
  cases segments with
  | nil => simp [consText, render]
  | cons x r => cases x <;> simp [consText, render]

/-- Text without a `$` stays where it is. -/
theorem rendered_append {front : List Char} (h : '$' ∉ front) (values : List String)
    (s : List Char) : rendered values (front ++ s) = front ++ rendered values s := by
  induction front with
  | nil => rfl
  | cons c front ih =>
    rw [List.mem_cons, not_or] at h
    rw [List.cons_append, rendered, split_of_ne (Ne.symm h.1), flatMap_render_consText]
    exact congrArg (c :: ·) (ih h.2)

theorem rendered_plain {s : List Char} (h : '$' ∉ s) (values : List String) :
    rendered values s = s := by
  rw [rendered, split_plain h]
  split
  next hs => rw [hs, List.flatMap_nil]
  next => simp [render]

/-- A value takes the place of its reference. -/
theorem rendered_reference {n : Nat} (hn : 0 < n ∧ n < 0x10000000000000000) {back : List Char}
    (hback : ∀ c ∈ back.head?, c.isDigit = false) {values : List String} {v : String}
    (hv : values[n - 1]? = some v) :
    rendered values ('$' :: (n.repr.toList ++ back)) = v.toList ++ rendered values back := by
  rw [rendered, split_reference (reference?_repr_append hn hback), List.flatMap_cons, render, hv]
  rfl

end Segment

/-- A value is put in for the first reference, between what stands around it. -/
theorem render_reference {text front back : String} (htext : text = front ++ "$1" ++ back)
    (hfront : '$' ∉ front.toList) (hback : '$' ∉ back.toList)
    (hdigit : ∀ c ∈ back.toList.head?, c.isDigit = false) (v : String) (more : List String) :
    (Template.parse text).render (v :: more) = front ++ v ++ back := by
  have hrender : ((Template.parse text).render (v :: more)).toList =
      Segment.rendered (v :: more) text.toList := by
    rw [Template.render, String.toList_join, List.flatMap_map]
    rfl
  have hlist : text.toList = front.toList ++ '$' :: ((1 : Nat).repr.toList ++ back.toList) := by
    rw [htext, String.toList_append, String.toList_append, List.append_assoc]
    rfl
  rw [← String.toList_inj, hrender, hlist, Segment.rendered_append hfront,
    Segment.rendered_reference (by decide) hdigit rfl, Segment.rendered_plain hback]
  simp

/-! ## Quoted texts

A query that begins with a quote is read up to the next one.  If the value put in has a quote of its
own, the text ends there, and what is left of the value makes the query invalid; a column that is no
query has no values. -/

section

variable {v : String}

/-- A value without a single quote is written in single quotes by the printer as well, so the round
trip of the printer reads it back. -/
theorem parse_singleQuoted (h : '\'' ∉ v.toList) :
    Query.parse ("'" ++ v ++ "'") = .ok (.literal v) := by
  have hprint : Query.print (.literal v) = "'" ++ v ++ "'" := by
    rw [Query.print, Query.quoted_eq h, ← String.toList_inj, String.toList_ofList]
    simp
  rw [← hprint]
  exact Query.parse_print (q := .literal v) (Or.inl h)

/-- A text with the quote in it ends at this quote, and something follows. -/
theorem parse_singleQuoted_of_mem (h : '\'' ∈ v.toList) (q : Query) :
    Query.parse ("'" ++ v ++ "'") ≠ .ok q := by
  obtain ⟨before, after, hv, hbefore⟩ := List.eq_append_cons_of_mem h
  have htext : ("'" ++ v ++ "'").toList =
      '\'' :: (before ++ ['\''] ++ (after ++ ['\''])) := by
    simp [hv]
  -- the text is cut at the first quote of the value
  have hread : Query.Reader.query ('\'' :: (before ++ ['\''] ++ (after ++ ['\'']))) =
      .ok (.literal (String.ofList before), after ++ ['\'']) := by
    have hcut : cutAt ['\''] (before ++ ['\''] ++ (after ++ ['\''])) =
        some (before, after ++ ['\'']) :=
      cutAt_of_not_mem List.mem_cons_self (by simpa using hbefore) _
    have hquote : ('\'' :: (before ++ ['\''] ++ (after ++ ['\'']))).head?.any
        (fun c => c == '\'' || c == '"') = true := rfl
    rw [Query.Reader.query, if_pos hquote, Query.Reader.literal, if_pos (.inl rfl), hcut]
    rfl
  -- behind it at least the closing quote is left, which is no blank
  have hrest : skipBlanks (after ++ ['\'']) ≠ [] := by
    rw [skipBlanks, List.dropWhile_append]
    split
    · exact List.cons_ne_nil _ _
    · simp
  rw [ne_eq, Query.parse_eq_ok, htext, Query.Reader.whole, skipBlanks_of_head (by rintro c ⟨⟩; rfl),
    hread]
  change ¬ (if skipBlanks (after ++ ['\'']) = [] then _ else _) = _
  rw [if_neg hrest]
  rintro ⟨⟩

/-- A reference in quotes is the value put in, unless it has such a quote in it. -/
theorem evaluate_quoted (v : String) (more : List String) (c : Cursor) :
    (Template.parse "'$1'").evaluate (v :: more) c = if '\'' ∈ v.toList then [] else [v] := by
  have hrender : (Template.parse "'$1'").render (v :: more) = "'" ++ v ++ "'" :=
    render_reference (by decide) (by decide) (by decide) (by simp) v more
  rw [Template.evaluate, hrender]
  -- the rendered text is a query exactly if its quotes are the only ones
  split
  next q hq =>
    by_cases h : '\'' ∈ v.toList
    · exact absurd hq (parse_singleQuoted_of_mem h q)
    · rw [parse_singleQuoted h] at hq
      cases hq
      rw [if_neg h]
      rfl
  next e he =>
    rw [if_pos]
    refine Decidable.not_not.1 fun h => ?_
    cases (parse_singleQuoted h).symm.trans he

end

/-! ## Compared values

Here the value stands inside of a predicate.  With names around it that are names, the whole is the
printed form of a comparison, and is read back as that. -/

/-- The query for an attribute of the children with a name and a value of another attribute. -/
def comparison (name a v b : String) : Query :=
  .union [⟨false, [⟨false, .child (.name name) [.attrEquals a v]⟩,
    ⟨false, .attribute (.name b)⟩]⟩]

section

variable {name a b v : String}

/-- The comparison is read from what it is written as, blanks and brackets in the value included. -/
theorem parse_comparison (hname : IsName name) (ha : IsName a) (hb : IsName b)
    (hv : '\'' ∉ v.toList) :
    Query.parse (name ++ "[@" ++ a ++ "='" ++ v ++ "']/@" ++ b) = .ok (comparison name a v b) := by
  rw [← print_childAttribute_attrEquals hv]
  refine parse_childAttribute hname hb ?_
  rw [List.forall_mem_singleton]
  exact ⟨ha, Or.inl hv⟩

/-- Does a child have the name, and the value of the attribute? -/
def isMatch (name a v : String) (e : Element) : Bool := e.name == name && e.attr? a == some v

theorem isMatch_eq (name a v : String) : isMatch name a v = isPicked name [.attrEquals a v] := by
  funext e
  rw [isMatch, isPicked, List.all_cons, List.all_nil, Bool.and_true]
  rfl

/-- The comparison selects the attribute of those children, in order. -/
theorem evaluate_comparison (c : Cursor) :
    (comparison name a v b).evaluate c =
      (c.element.children.filter (isMatch name a v)).filterMap (·.attr? b) := by
  rw [isMatch_eq]
  exact evaluate_childAttribute c (by simp) name b

/-- A reference in the comparison is the value that is compared with, unless it has such a quote in
it. -/
theorem evaluate_compared (hname : IsName name) (ha : IsName a) (hb : IsName b)
    (hv : '\'' ∉ v.toList) (more : List String) (c : Cursor) :
    (Template.parse (name ++ "[@" ++ a ++ "='$1']/@" ++ b)).evaluate (v :: more) c =
      (c.element.children.filter (isMatch name a v)).filterMap (·.attr? b) := by
  -- no name has a `$` in it, so the reference is the only one
  have hdollar : isNameChar '$' = false := by decide +kernel
  have hrender : (Template.parse (name ++ "[@" ++ a ++ "='$1']/@" ++ b)).render (v :: more) =
      (name ++ "[@" ++ a ++ "='") ++ v ++ ("']/@" ++ b) := by
    refine render_reference ?_ ?_ ?_ ?_ v more
    · rw [← String.toList_inj]
      simp
    · simp [not_mem_of_isName hname hdollar, not_mem_of_isName ha hdollar]
    · simp [not_mem_of_isName hb hdollar]
    · rw [String.toList_append]
      rintro d ⟨⟩
      rfl
  have htext : (name ++ "[@" ++ a ++ "='") ++ v ++ ("']/@" ++ b) =
      name ++ "[@" ++ a ++ "='" ++ v ++ "']/@" ++ b := by
    rw [← String.toList_inj]
    simp
  rw [Template.evaluate, hrender, htext, parse_comparison hname ha hb hv]
  exact evaluate_comparison c

end

/-! ## Labels

A row is evaluated with what the bindings of its element gave, so what was said of one template with
a value put in holds of the columns of a row. -/

/-- A bound value in single quotes is data where it has no such quote in it: a column that is the
quoted reference has the value itself, and one that compares an attribute with it selects just the
children with this value.  With such a quote in the value, the column has no values at all. -/
theorem evaluate_quoted_reference {spec : Spec} {c : Cursor} {v : String} {more : List String}
    (hbound : spec.bound c = v :: more) {i : Nat} {row : List Template}
    (hrow : spec.rows[i]? = some row) :
    ∃ records, (spec.evaluate c)[i]? = some records ∧ ∀ j,
      (row[j]? = some (Template.parse "'$1'") →
        HasColumn records j (if '\'' ∈ v.toList then [] else [v])) ∧
      ∀ name a b, IsName name → IsName a → IsName b → '\'' ∉ v.toList →
        row[j]? = some (Template.parse (name ++ "[@" ++ a ++ "='$1']/@" ++ b)) →
          HasColumn records j
            ((c.element.children.filter fun e => e.name = name ∧ e.attr? a = some v).filterMap
              (·.attr? b)) := by
  obtain ⟨records, hrecords⟩ : ∃ records, (spec.evaluate c)[i]? = some records :=
    ⟨_, by rw [Spec.evaluate, List.getElem?_map, hrow, Option.map_some]⟩
  refine ⟨records, hrecords, fun j => ⟨fun ht => ?_, fun name a b hname ha hb hv ht => ?_⟩⟩
  · have hcolumn := hasColumn_evaluate hrow hrecords ht
    rwa [hbound, evaluate_quoted] at hcolumn
  · have hcolumn := hasColumn_evaluate hrow hrecords ht
    have hmatch : (c.element.children.filter fun e => e.name = name ∧ e.attr? a = some v) =
        c.element.children.filter (isMatch name a v) :=
      List.filter_congr fun e _ => by rw [Bool.eq_iff_iff]; simp [isMatch]
    rwa [hbound, evaluate_compared hname ha hb hv, ← hmatch] at hcolumn

/-- A child of a place that is told by the value that is bound there. -/
theorem evaluate_quoted_reference_pair :
    let child (a b : String) : Element := ⟨"c", [⟨false, "a", a⟩, ⟨false, "b", b⟩], "", []⟩
    let e : Element := ⟨"p", [⟨false, "n", "x] y"⟩], "", [child "x] y" "1", child "z" "2"]⟩
    let spec : Spec :=
      ⟨[Template.parse "@n"], [[Template.parse "'$1'", Template.parse "c[@a='$1']/@b"]]⟩
    ∃ records, (spec.evaluate (.ofRoot e))[0]? = some records ∧
      HasColumn records 0 ["x] y"] ∧ HasColumn records 1 ["1"] := by
  intro child e spec
  have hbound : spec.bound (.ofRoot e) = ["x] y"] := by decide +kernel
  have hletter : ∀ n ∈ ["a", "b", "c"], IsName n := by
    intro n hn
    simp only [List.mem_cons, List.not_mem_nil, or_false] at hn
    rcases hn with rfl | rfl | rfl
    all_goals exact ⟨_, [], rfl, .inl (by decide +kernel), by simp⟩
  -- the value is one that holds no quote, though it holds a bracket and a blank
  obtain ⟨records, hrecords, hcolumns⟩ := evaluate_quoted_reference hbound (i := 0) rfl
  refine ⟨records, hrecords, (hcolumns 0).1 rfl, ?_⟩
  exact (hcolumns 1).2 "c" "a" "b" (hletter _ (by simp)) (hletter _ (by simp))
    (hletter _ (by simp)) (by decide) rfl

/-- A value with a single quote in it makes the column empty. -/
theorem not_evaluate_quoted_apostrophe :
    let e : Element := ⟨"p", [⟨false, "n", "it's"⟩], "", []⟩
    let spec : Spec := ⟨[Template.parse "@n"], [[Template.parse "'$1'"]]⟩
    spec.bound (.ofRoot e) = ["it's"] ∧ spec.evaluate (.ofRoot e) = [[]] ∧
      ¬ HasColumn [] 0 ["it's"] := by
  intro e spec
  exact ⟨by decide +kernel, by decide +kernel, fun h => absurd h.enough (by decide)⟩

end NetPlot.Label
