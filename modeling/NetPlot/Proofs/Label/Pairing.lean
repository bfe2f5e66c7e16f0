/-
  Two attributes of the same children, side by side.

  1. **Columns** — a query without a `$` has the same values whatever is bound
     (`evaluate_of_plain`), and it can be a column of a row if it holds no mark of labels and no
     blank stands around it (`fits_of_plain`).

  2. **Pairs** — columns with a value for each item of one list give a record for each item
     (`zipLongest_map_map`), so values that are equal stay with their items.

  3. **Labels** — the row of two attributes of the same children is read from its text
     (`parse_pairs`), and has a record for each child that has both (`evaluate_pairs`).
-/
import NetPlot.Proofs.Label.Alignment
import NetPlot.Proofs.Label.Quoting
import NetPlot.Proofs.Query.ChildAttributes

namespace NetPlot.Label

open NetPlot.Text NetPlot.Xml
open NetPlot.Query (IsName Predicate childAttribute evaluate_childAttribute isPicked
  parse_childAttribute print_childAttribute print_childAttribute_attrEquals)
open NetPlot.Query.Reader (isBlank_of_isNameChar isBlank_of_isNameStart isNameChar
  not_mem_of_isName of_isName)

/-! ## Columns -/

section

variable {text : String} {q : Query}

theorem not_refers_of_plain {s : List Char} (h : '$' ∉ s) : ¬ Refers s := by
  rintro ⟨front, digits, rest, rfl, -⟩
  exact h (by simp)

/-- A query without a `$` has its own values, whatever is bound. -/
theorem evaluate_of_plain (h : Query.parse text = .ok q) (hr : '$' ∉ text.toList)
    (values : List String) (c : Cursor) :
    (Template.parse text).evaluate values c = q.evaluate c := by
  rw [Template.evaluate, render_parse_of_not_refers (not_refers_of_plain hr), h]

/-- A query without the marks of labels fits into a row. -/
theorem fits_of_plain (h : Query.parse text = .ok q) (ht : Trimmed text.toList)
    (hp : '&' ∉ text.toList) (hc : '\x7d' ∉ text.toList) : Fits .row (Template.parse text) := by
  refine fits_of_column (column_of_isColumn (Or.inr ⟨q, h⟩)) ?_ ht ?_ ?_
  · have hne := trimChars_ne_nil_of_parse h
    rwa [trimChars_of_trimmed ht] at hne
  · exact fun hi => hp (hi.subset List.mem_cons_self)
  · exact fun hi => hc (hi.subset List.mem_cons_self)

end

/-! ## Pairs

Columns are evaluated apart from each other, and only their order keeps values together.  It does so
where both columns have a value for every item. -/

/-- Two columns of the same items are zipped item by item. -/
theorem zipLongest_map_map {α : Type} (f g : α → String) (l : List α) :
    zipLongest [l.map f, l.map g] = l.map fun x => [f x, g x] := by
  have hlength : (zipLongest [l.map f, l.map g]).length = l.length := by
    simp [length_zipLongest, longest]
  refine List.ext_getElem (by rw [hlength, List.length_map]) fun i hi hi' => ?_
  rw [List.length_map] at hi'
  rw [getElem_zipLongest, List.getElem_map]
  simp [hi']

/-- An attribute that all elements have gives a value for each of them. -/
theorem filterMap_attr? {a : String} {es : List Element}
    (h : ∀ e ∈ es, (e.attr? a).isSome) : es.filterMap (·.attr? a) = es.map (·.attr a) := by
  have hvalue : ∀ e ∈ es, e.attr? a = some (e.attr a) := by
    intro e he
    obtain ⟨v, hv⟩ := Option.isSome_iff_exists.1 (h e he)
    rw [Element.attr, hv]
    rfl
  rw [List.filterMap_congr hvalue, List.filterMap_eq_map']

/-! ## Labels

The row is followed on its way through the program: it is read from its text, its columns are
evaluated, and their values are zipped. -/

/-- A predicate that counts no positions and can stand in a row. -/
structure IsPlain (p : Predicate) : Prop where
  wellFormed : p.WellFormed
  ne_position : ∀ n, p ≠ .position n
  unmarked : ∀ ch ∈ ['$', '&', '\x7d'], ch ∉ p.inBrackets

/-- A comparison can stand in a row if no mark of labels is in the value. -/
theorem isPlain_attrEquals {p v : String} (hp : IsName p)
    (hv : ∀ ch ∈ ['\'', '\x7d', '&', '$'], ch ∉ v.toList) : IsPlain (.attrEquals p v) where
  wellFormed := ⟨hp, Or.inl (hv _ (by simp))⟩
  ne_position := nofun
  unmarked ch hch := by
    -- the marks are in no name, none of those of a predicate, and by assumption not in the value
    have hmarks : ∀ ch ∈ ['$', '&', '\x7d'], isNameChar ch = false ∧
        ch ∉ ['[', '@', '=', '\'', ']'] ∧ ch ∈ ['\'', '\x7d', '&', '$'] :=
      forall_mem_of_all (by decide +kernel)
    obtain ⟨hname, hmark, hvalue⟩ := hmarks ch hch
    have hquoted : Query.quoted v = '\'' :: (v.toList ++ ['\'']) := Query.quoted_eq (hv _ (by simp))
    have hnot := hv ch hvalue
    have hnot' := not_mem_of_isName hp hname
    simp only [List.mem_cons, List.not_mem_nil, or_false, not_or] at hmark
    simp [Predicate.inBrackets, Predicate.chars, hquoted, hmark, hnot, hnot']

/-- The row of two attributes of the children with a name that pass all predicates. -/
def pairSpec (name : String) (predicates : List Predicate) (a b : String) : Spec where
  bindings := []
  rows := [[Template.parse (childAttribute name predicates a).print,
    Template.parse (childAttribute name predicates b).print]]

section

variable {name a b : String} {predicates : List Predicate}

/-- The query is free of the marks of labels if its predicates are. -/
theorem not_mem_print (hname : IsName name) (ha : IsName a) (hp : ∀ p ∈ predicates, IsPlain p) :
    ∀ ch ∈ ['$', '&', '\x7d'], ch ∉ (childAttribute name predicates a).print.toList := by
  have hmarks : ∀ ch ∈ ['$', '&', '\x7d'], isNameChar ch = false ∧ ch ∉ ['/', '@'] :=
    forall_mem_of_all (by decide +kernel)
  intro ch hmem
  obtain ⟨hch, hmark⟩ := hmarks ch hmem
  rw [print_childAttribute]
  simp only [String.toList_append, String.toList_ofList, List.mem_append, List.mem_flatMap, not_or,
    not_exists, not_and]
  exact ⟨⟨⟨not_mem_of_isName hname hch, fun p hpm => (hp p hpm).unmarked ch hmem⟩, hmark⟩,
    not_mem_of_isName ha hch⟩

/-- The query begins and ends with a name. -/
theorem trimmed_print (hname : IsName name) (ha : IsName a) :
    Trimmed (childAttribute name predicates a).print.toList := by
  obtain ⟨c, s, hn, hstart, -⟩ := of_isName hname
  obtain ⟨d, t, hd, -, hchars⟩ := of_isName ha
  constructor
  · rw [print_childAttribute, String.toList_append, String.toList_append, String.toList_append, hn]
    rintro _ ⟨⟩
    exact isBlank_of_isNameStart hstart
  · rw [print_childAttribute, String.toList_append, hd,
      List.getLast?_append_of_ne_nil _ (List.cons_ne_nil d t)]
    exact fun e he => isBlank_of_isNameChar e (hchars e (List.mem_of_getLast? he))

/-- The row is read from the text that it is. -/
theorem parse_pairs (hname : IsName name) (ha : IsName a) (hb : IsName b)
    (hp : ∀ p ∈ predicates, IsPlain p) :
    Spec.parse ("\x7b " ++ (childAttribute name predicates a).print ++ " && " ++
        (childAttribute name predicates b).print ++ " \x7d") =
      .ok (pairSpec name predicates a b) := by
  have hfree : ∀ n, IsName n → ∀ ch ∈ ['$', '&', '\x7d'],
      ch ∉ (childAttribute name predicates n).print.toList := fun n hn => not_mem_print hname hn hp
  have hfits : ∀ n, IsName n →
      Fits .row (Template.parse (childAttribute name predicates n).print) := fun n hn =>
    fits_of_plain (parse_childAttribute hname hn fun p hmem => (hp p hmem).wellFormed)
      (trimmed_print hname hn) (hfree n hn _ (by simp)) (hfree n hn _ (by simp))
  -- the text is what the row is displayed as, and the canonical text is read back
  have hdisplay : (pairSpec name predicates a b).display =
      "\x7b " ++ (childAttribute name predicates a).print ++ " && " ++
        (childAttribute name predicates b).print ++ " \x7d" := by
    rw [← String.toList_inj]
    simp [pairSpec, Spec.display, Spec.displayColumns,
      display_parse_of_plain (hfree a ha '$' (by simp)),
      display_parse_of_plain (hfree b hb '$' (by simp))]
  rw [← hdisplay]
  refine Spec.parse_display_of_fits (by simp [pairSpec]) ?_
  simpa [pairSpec, Spec.toBlocks] using ⟨hfits a ha, hfits b hb⟩

/-- Such a column has a value for each of the children if all have the attribute. -/
theorem evaluate_column (hname : IsName name) (ha : IsName a) (hp : ∀ p ∈ predicates, IsPlain p)
    {c : Cursor}
    (hsome : ∀ e ∈ c.element.children.filter (isPicked name predicates), (e.attr? a).isSome)
    (values : List String) :
    (Template.parse (childAttribute name predicates a).print).evaluate values c =
      (c.element.children.filter (isPicked name predicates)).map (·.attr a) := by
  have hparse := parse_childAttribute hname ha fun p hmem => (hp p hmem).wellFormed
  rw [evaluate_of_plain hparse (not_mem_print hname ha hp '$' (by simp)),
    evaluate_childAttribute c fun p hmem => (hp p hmem).ne_position, filterMap_attr? hsome]

/-- The row has a record for each of the children, with its own two values. -/
theorem evaluate_pairSpec (hname : IsName name) (ha : IsName a) (hb : IsName b)
    (hp : ∀ p ∈ predicates, IsPlain p) {c : Cursor}
    (hboth : ∀ e ∈ c.element.children.filter (isPicked name predicates),
      (e.attr? a).isSome ∧ (e.attr? b).isSome) :
    (pairSpec name predicates a b).evaluate c =
      [(c.element.children.filter (isPicked name predicates)).map fun e => [e.attr a, e.attr b]] := by
  rw [Spec.evaluate, pairSpec, List.map_singleton, List.map_cons, List.map_singleton,
    evaluate_column hname ha hp fun e he => (hboth e he).1,
    evaluate_column hname hb hp fun e he => (hboth e he).2, zipLongest_map_map]

/-- **Pairs.**  Where each child with a name has two attributes, the row of these attributes has just
one record for each of these children, in order, with its own values, whether they differ from those
of other children or not.  With a value of a third attribute to tell the children by, the same holds
of the children that have it. -/
theorem evaluate_pairs (hname : IsName name) (ha : IsName a) (hb : IsName b) (c : Cursor) :
    ((∀ e ∈ c.element.children, e.name = name → (e.attr? a).isSome ∧ (e.attr? b).isSome) →
      ∃ spec, Spec.parse ("\x7b " ++ name ++ "/@" ++ a ++ " && " ++ name ++ "/@" ++ b ++ " \x7d") =
          .ok spec ∧
        spec.evaluate c =
          [(c.element.children.filter fun e => e.name = name).map fun e => [e.attr a, e.attr b]]) ∧
    ∀ p v, IsName p → (∀ ch ∈ ['\'', '\x7d', '&', '$'], ch ∉ v.toList) →
      (∀ e ∈ c.element.children, e.name = name → e.attr? p = some v →
        (e.attr? a).isSome ∧ (e.attr? b).isSome) →
      ∃ spec, Spec.parse ("\x7b " ++ name ++ "[@" ++ p ++ "='" ++ v ++ "']/@" ++ a ++ " && " ++
            name ++ "[@" ++ p ++ "='" ++ v ++ "']/@" ++ b ++ " \x7d") = .ok spec ∧
        spec.evaluate c =
          [(c.element.children.filter fun e => e.name = name ∧ e.attr? p = some v).map fun e =>
            [e.attr a, e.attr b]] := by
  -- one row for both parts: without predicates, and with the comparison as the only one
  refine ⟨fun hboth => ⟨pairSpec name [] a b, ?_, ?_⟩, fun p v hpn hv hboth =>
    ⟨pairSpec name [.attrEquals p v] a b, ?_, ?_⟩⟩
  · have hparse := parse_pairs hname ha hb (List.forall_mem_nil IsPlain)
    rw [print_childAttribute, print_childAttribute] at hparse
    simpa [← String.append_assoc] using hparse
  · have hpicked : (c.element.children.filter fun e => e.name = name) =
        c.element.children.filter (isPicked name []) :=
      List.filter_congr fun e _ => by rw [Bool.eq_iff_iff]; simp [isPicked]
    rw [hpicked]
    refine evaluate_pairSpec hname ha hb (List.forall_mem_nil IsPlain) fun e he => ?_
    rw [← hpicked, List.mem_filter, decide_eq_true_eq] at he
    exact hboth e he.1 he.2
  · have hparse := parse_pairs hname ha hb
      (List.forall_mem_singleton.2 (isPlain_attrEquals hpn hv))
    rw [print_childAttribute_attrEquals (hv _ (by simp)),
      print_childAttribute_attrEquals (hv _ (by simp))] at hparse
    simpa only [← String.append_assoc] using hparse
  · have hpicked : (c.element.children.filter fun e => e.name = name ∧ e.attr? p = some v) =
        c.element.children.filter (isPicked name [.attrEquals p v]) :=
      List.filter_congr fun e _ => by rw [Bool.eq_iff_iff]; simp [isPicked, Predicate.holds]
    rw [hpicked]
    refine evaluate_pairSpec hname ha hb
      (List.forall_mem_singleton.2 (isPlain_attrEquals hpn hv)) fun e he => ?_
    rw [← hpicked, List.mem_filter, decide_eq_true_eq] at he
    exact hboth e he.1 he.2.1 he.2.2

end

/-- Ports with equal names and types, and one of them that goes the other way. -/
theorem evaluate_pairs_ports :
    let port (n t d : String) : Element :=
      ⟨"port", [⟨false, "name", n⟩, ⟨false, "type", t⟩, ⟨false, "way", d⟩], "", []⟩
    let e : Element := ⟨"p", [], "", [port "a" "int" "in", ⟨"note", [], "", []⟩,
      port "a" "int" "in", port "b" "int" "out", port "c" "int" "in"]⟩
    (∃ spec, Spec.parse "\x7b port/@name && port/@type \x7d" = .ok spec ∧
      spec.evaluate (.ofRoot e) = [[["a", "int"], ["a", "int"], ["b", "int"], ["c", "int"]]]) ∧
    ∃ spec, Spec.parse "\x7b port[@way='in']/@name && port[@way='in']/@type \x7d" = .ok spec ∧
      spec.evaluate (.ofRoot e) = [[["a", "int"], ["a", "int"], ["c", "int"]]] := by
  intro port e
  have hread : ∀ n ∈ ["port", "name", "type", "way"], Query.Reader.name n.toList = .ok (n, []) := by
    decide +kernel
  have hnames : ∀ n ∈ ["port", "name", "type", "way"], IsName n := fun n hn =>
    Query.Reader.isName_of_name (hread n hn)
  have hin : ∀ ch ∈ ['\'', '\x7d', '&', '$'], ch ∉ "in".toList :=
    forall_mem_of_all (by decide)
  -- both parts are instances of the general pairing
  obtain ⟨hall, hsome⟩ := evaluate_pairs (hnames "port" (by simp)) (hnames "name" (by simp))
    (hnames "type" (by simp)) (.ofRoot e)
  exact ⟨hall (by decide +kernel), hsome "way" "in" (hnames _ (by simp)) hin (by decide +kernel)⟩

end NetPlot.Label
