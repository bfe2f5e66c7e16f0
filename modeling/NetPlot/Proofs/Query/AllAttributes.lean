/-
  All attributes of an element.

  1. **Query** — `@*` selects an element's attributes by their names proper, each name once, and
     each is looked up again as a plain name (`evaluate_allAttributes`).

  2. **Values** — a plain name finds the attribute that is written so.  One that is written with a
     qualifier is found by no name, and shares its name proper with a plain one at most
     (`Shows`).

  3. **Documents** — so the values are those of the attributes themselves just where the names
     proper are different and no qualified attribute has a value (`allAttributes_of_parse`).
-/
import NetPlot.Proofs.Query.ChildAttributes
import NetPlot.Proofs.Xml.Attributes

namespace NetPlot.Query

open NetPlot.Xml
open NetPlot.FirstSeen (eraseDups_map eraseDups_of_nodup eraseDups_sublist nodup_eraseDups)

/-! ## Query -/

/-- The query for all attributes. -/
def allAttributes : Query := .union [⟨false, [⟨false, .attribute .any⟩]⟩]

/-- The text `@*` is read as this query. -/
theorem parse_allAttributes : parse "@*" = .ok allAttributes := by
  have hprint : allAttributes.print = "@*" := by decide
  rw [← hprint]
  refine parse_print ⟨List.cons_ne_nil _ _, ?_⟩
  rw [List.forall_mem_singleton]
  exact ⟨fun _ => ⟨_, rfl, rfl⟩, by rw [List.forall_mem_singleton]; trivial⟩

/-- There is one value for every name proper, and it is looked up by this name. -/
theorem evaluate_allAttributes (c : Cursor) :
    allAttributes.evaluate c =
      (c.element.attributes.map (·.name)).eraseDups.map c.element.attr := by
  have hinjective : Function.Injective (Item.attribute c.address) := fun n m h => by
    cases h
    rfl
  -- the items are told apart by their names, so the duplicates dropped are those among the names
  have hselect : (LocationPath.mk false [⟨false, .attribute .any⟩]).select c.root c.address =
      (c.element.attributes.map (·.name)).eraseDups.map (.attribute c.address) := by
    rw [← eraseDups_map hinjective, List.map_map]
    change ((([Item.element c.address].flatMap fun item => [item]).flatMap
      ((Move.attribute .any).candidates c.root))).eraseDups = _
    rw [List.flatMap_singleton, List.flatMap_singleton, Move.candidates, c.found]
    rfl
  rw [allAttributes, evaluate, List.flatMap_singleton, hselect, List.map_map]
  refine List.map_congr_left fun n _ => ?_
  rw [Function.comp_apply, Item.value, c.found]
  rfl

/-! ## Values

A value is found by a name without a qualifier, whichever attribute the name came from.  What is
shown for an attribute with a qualifier is therefore that of another attribute, or nothing. -/

/-- What a name stands for: the value of the attribute that is written as the name alone, or nothing
where all attributes of that name are written with a qualifier. -/
def Shows (attributes : List Attribute) (name value : String) : Prop :=
  ⟨false, name, value⟩ ∈ attributes ∨
    value = "" ∧ ∀ a ∈ attributes, a.name = name → a.qualified = true

section

variable {e : Element}

/-- Where plain names tell attributes apart, a name is looked up as what it stands for. -/
theorem shows_iff (hplain : Plain e.attributes) {name value : String} :
    Shows e.attributes name value ↔ value = e.attr name := by
  rw [Element.attr, Element.attr?]
  -- looking up by name sees the unprefixed attributes only
  cases hfind : e.attributes.find? fun a => !a.qualified && a.name == name with
  | none =>
    have hnone : ∀ a ∈ e.attributes, a.name = name → a.qualified = true := by
      intro a ha hname
      have hnot := List.find?_eq_none.1 hfind a ha
      simpa [hname] using hnot
    constructor
    · rintro (hmem | ⟨hvalue, -⟩)
      · cases hnone _ hmem rfl
      · exact hvalue
    · exact fun hvalue => .inr ⟨hvalue, hnone⟩
  | some b =>
    have hb : b ∈ e.attributes := List.mem_of_find?_eq_some hfind
    obtain ⟨hq, hname⟩ : b.qualified = false ∧ b.name = name := by
      simpa using List.find?_some hfind
    constructor
    · rintro (hmem | ⟨-, hall⟩)
      · -- both are plain and have the name, so they are one
        have hsame : (⟨false, name, value⟩ : Attribute) = b :=
          List.inj_on_of_nodup_map hplain (List.mem_filter.2 ⟨hmem, rfl⟩)
            (List.mem_filter.2 ⟨hb, by simp [hq]⟩) hname.symm
        exact congrArg Attribute.value hsame
      · cases (hall b hb hname).symm.trans hq
    · rintro rfl
      refine .inl ?_
      rw [← hname, ← hq]
      exact hb

/-- Where names proper tell attributes apart, one without a qualifier has its own value, and one
with a qualifier has none. -/
theorem attr_of_mem (hnodup : (e.attributes.map (·.name)).Nodup) {a : Attribute}
    (ha : a ∈ e.attributes) : e.attr a.name = if a.qualified then "" else a.value := by
  have hplain : Plain e.attributes := List.Nodup.sublist (List.filter_sublist.map _) hnodup
  refine ((shows_iff hplain).1 ?_).symm
  split
  next hq =>
    refine .inr ⟨rfl, fun b hb hname => ?_⟩
    rwa [List.inj_on_of_nodup_map hnodup hb ha hname]
  next hq =>
    rw [Bool.not_eq_true] at hq
    refine .inl ?_
    rw [← hq]
    exact ha

/-- The values are those of the attributes themselves just where the names proper are different and
no qualified attribute has a value. -/
theorem map_attr_eq_iff :
    (e.attributes.map (·.name)).eraseDups.map e.attr = e.attributes.map (·.value) ↔
      (e.attributes.map (·.name)).Nodup ∧
        ∀ a ∈ e.attributes, a.qualified = true → a.value = "" := by
  have hvalues : (e.attributes.map (·.name)).Nodup →
      ((e.attributes.map (·.name)).map e.attr = e.attributes.map (·.value) ↔
        ∀ a ∈ e.attributes, a.qualified = true → a.value = "") := by
    intro hnodup
    rw [List.map_map, List.map_inj_left]
    refine forall₂_congr fun a ha => ?_
    rw [Function.comp_apply, attr_of_mem hnodup ha]
    cases a.qualified with
    | false => exact iff_of_true rfl fun h => by cases h
    | true => exact ⟨fun h _ => h.symm, fun h => (h rfl).symm⟩
  constructor
  · intro h
    -- a repetition would make for fewer values than there are attributes
    have hlength : (e.attributes.map (·.name)).eraseDups.length =
        (e.attributes.map (·.name)).length := by
      simpa using congrArg List.length h
    have herase := (eraseDups_sublist (e.attributes.map (·.name))).eq_of_length hlength
    have hnodup : (e.attributes.map (·.name)).Nodup := herase ▸ nodup_eraseDups _
    rw [herase] at h
    exact ⟨hnodup, (hvalues hnodup).1 h⟩
  · rintro ⟨hnodup, hqualified⟩
    rw [eraseDups_of_nodup hnodup]
    exact (hvalues hnodup).2 hqualified

end

/-! ## Documents -/

/-- On every element of a document, `@*` gives one value for every name proper of an attribute, in
the order in which the names come first: what the name stands for.  So it gives the attributes' own
values, one for each of them in order, just where no two have one name proper and none with a
qualifier has a value; and where there are no qualifiers. -/
theorem allAttributes_of_parse {text : String} {root : Element} (hroot : parse? text = some root) :
    parse "@*" = .ok allAttributes ∧ ∀ c : Cursor, c.root = root →
      List.Forall₂ (Shows c.element.attributes) (c.element.attributes.map (·.name)).eraseDups
        (allAttributes.evaluate c) ∧
      (∀ name value value', Shows c.element.attributes name value →
        Shows c.element.attributes name value' → value = value') ∧
      (allAttributes.evaluate c = c.element.attributes.map (·.value) ↔
        (c.element.attributes.map (·.name)).Nodup ∧
          ∀ a ∈ c.element.attributes, a.qualified = true → a.value = "") ∧
      ((∀ a ∈ c.element.attributes, a.qualified = false) →
        allAttributes.evaluate c = c.element.attributes.map (·.value)) := by
  refine ⟨parse_allAttributes, fun c hc => ?_⟩
  have hplain : Plain c.element.attributes :=
    plain_of_parse? hroot c.address c.element (hc ▸ c.found)
  have hiff := map_attr_eq_iff (e := c.element)
  rw [← evaluate_allAttributes] at hiff
  refine ⟨?_, fun name value value' h h' => ?_, hiff, fun hq => hiff.2 ⟨?_, fun a ha h => ?_⟩⟩
  · rw [evaluate_allAttributes, List.forall₂_map_right_iff, List.forall₂_same]
    exact fun name _ => (shows_iff hplain).2 rfl
  · rw [(shows_iff hplain).1 h, (shows_iff hplain).1 h']
  · have hfilter : c.element.attributes.filter (fun a => !a.qualified) = c.element.attributes :=
      List.filter_eq_self.2 fun a ha => by simp [hq a ha]
    rwa [Plain, hfilter] at hplain
  · cases (hq a ha).symm.trans h

/-- An element with two qualified attributes of one name proper, and a plain one. -/
def mixedText : String :=
  "<p xmlns:x=\"urn:x\" xmlns:y=\"urn:y\" x:a=\"1\" y:a=\"2\" b=\"3\"/>"

/-- The element as it is read. -/
def mixed : Element := ⟨"p", [⟨true, "a", "1"⟩, ⟨true, "a", "2"⟩, ⟨false, "b", "3"⟩], "", []⟩

theorem parse?_mixed : parse? mixedText = some mixed := by decide +kernel

/-- Two qualified attributes are one match without a value; plain ones have their own. -/
theorem allAttributes_of_parse_mixed :
    (parse? mixedText = some mixed ∧
      List.Forall₂ (Shows mixed.attributes) ["a", "b"] (allAttributes.evaluate (.ofRoot mixed))) ∧
    ∃ root, parse? "<p a=\"1\" b=\"2\"/>" = some root ∧
      allAttributes.evaluate (.ofRoot root) = ["1", "2"] := by
  have hplain : parse? "<p a=\"1\" b=\"2\"/>" =
      some ⟨"p", [⟨false, "a", "1"⟩, ⟨false, "b", "2"⟩], "", []⟩ := by decide +kernel
  obtain ⟨hshows, -⟩ := (allAttributes_of_parse parse?_mixed).2 (.ofRoot mixed) rfl
  obtain ⟨-, -, -, hvalues⟩ := (allAttributes_of_parse hplain).2 (.ofRoot _) rfl
  exact ⟨⟨parse?_mixed, hshows⟩, _, hplain, hvalues (by decide)⟩

/-- The values are not always those of the attributes themselves. -/
theorem exists_not_own_values : ∃ text root, parse? text = some root ∧
    ∃ q, parse "@*" = .ok q ∧ q.evaluate (.ofRoot root) ≠ root.attributes.map (·.value) := by
  refine ⟨mixedText, mixed, parse?_mixed, allAttributes, parse_allAttributes, fun h => ?_⟩
  obtain ⟨hnodup, -⟩ := map_attr_eq_iff.1 ((evaluate_allAttributes (.ofRoot mixed)).symm.trans h)
  exact absurd hnodup (by decide)

end NetPlot.Query
