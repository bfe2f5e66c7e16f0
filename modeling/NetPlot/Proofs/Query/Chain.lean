/-
  What a location path means.

  1. **Links** — `Move.Links` says which places one move joins, `Step.From` which places a step may
     be taken from: the one reached, and with `descend` the elements below it.  A `Chain` takes
     one link for each step of a path.

  2. **Meaning** — a path selects the ends of the chains that begin at the document (absolute) or
     at the context element, and the absolute path without steps selects the root element.

  3. **Bridge** — from places of the document the program reaches places of the document
     (`placed_of_links`), and a step of the program is a link (`mem_apply`); by induction on the
     steps, a run is a chain (`mem_foldl_apply`).  So `select` gives everything that the path
     selects, once (`select_exact`).

  The meaning is given by rules so that the program can be held against something that is not a
  program.  The rules say what is selected; in which order is a question of its own.
-/
import NetPlot.Proofs.FirstSeen
import NetPlot.Proofs.Query.Children
import NetPlot.Proofs.Xml.Places

namespace NetPlot.Query

open NetPlot.Text NetPlot.Xml

/-! ## Links

The meaning of a path is given by rules, one for each way to get from one place to another.  It
speaks of single places, and not of the lists that the program goes through. -/

/-- The move leads from the first place to the second. -/
inductive Move.Links (root : Element) : Move → Item → Item → Prop where
  | self (item : Item) : Links root .self item item
  /-- The document is above the root element. -/
  | aboveRoot : Links root .parent (.element []) .document
  | above (a : Address) (i : Nat) : Links root .parent (.element (a ++ [i])) (.element a)
  | ownerOfAttribute (a : Address) (n : String) : Links root .parent (.attribute a n) (.element a)
  | ownerOfText (a : Address) : Links root .parent (.text a) (.element a)
  | named {a : Address} {e : Element} {n : String} (at_a : root.at? a = some e)
      (has : (e.attr? n).isSome) : Links root (.attribute (.name n)) (.element a) (.attribute a n)
  | anyNamed {a : Address} {e : Element} {x : Attribute} (at_a : root.at? a = some e)
      (has : x ∈ e.attributes) : Links root (.attribute .any) (.element a) (.attribute a x.name)
  | text {a : Address} {e : Element} (at_a : root.at? a = some e)
      (has : ∃ ch ∈ e.text.toList, isBlank ch = false) : Links root .text (.element a) (.text a)
  | child {test : NameTest} {predicates : List Predicate} {origin : Item} {i : Nat}
      (left : survives root test predicates origin i) :
      Links root (.child test predicates) origin (.element (origin.below i))

/-- The second item is an element below the first. -/
inductive Item.Above (root : Element) : Item → Item → Prop where
  | document {b : Address} {e : Element} (at_b : root.at? b = some e) :
      Above root .document (.element b)
  | element {a b : Address} {e : Element} (nonempty : b ≠ []) (at_b : root.at? (a ++ b) = some e) :
      Above root (.element a) (.element (a ++ b))

/-- Having reached `item`, the step may be taken from `origin`. -/
def Step.From (root : Element) (step : Step) (item origin : Item) : Prop :=
  origin = item ∨ step.descend ∧ item.Above root origin

/-- One link for each of the steps leads from the first item to the last. -/
inductive Chain (root : Element) : List Step → Item → Item → Prop where
  | nil (item : Item) : Chain root [] item item
  | cons {step : Step} {steps : List Step} {item origin next last : Item}
      (leaves : step.From root item origin) (link : step.move.Links root origin next)
      (rest : Chain root steps next last) : Chain root (step :: steps) item last

/-- Where the chains of a path begin. -/
def LocationPath.start (path : LocationPath) (context : Address) : Item :=
  if path.absolute then .document else .element context

/-- The meaning of a path: what it selects, seen from the element at `context`. -/
def LocationPath.Selects (root : Element) (path : LocationPath) (context : Address)
    (item : Item) : Prop :=
  if path.absolute && path.steps.isEmpty then item = .element []
  else Chain root path.steps (path.start context) item

/-! ## Places of the document

The rules for going up do not look at the document.  That they stay within it follows from where
they start. -/

/-- The document, or something of one of its elements. -/
def Item.Placed (root : Element) : Item → Prop
  | .document => True
  | .element a | .attribute a _ | .text a => ∃ e, root.at? a = some e

section

variable {root : Element} {item origin next last : Item} {step : Step} {move : Move}

/-- An element that stands below something is an element of the document. -/
theorem placed_of_above (h : item.Above root origin) : origin.Placed root := by
  cases h with
  | document at_b => exact ⟨_, at_b⟩
  | element _ at_b => exact ⟨_, at_b⟩

/-- A step leaves from a place of the document if it reached one. -/
theorem placed_of_from (hp : item.Placed root) (h : step.From root item origin) :
    origin.Placed root := by
  rcases h with rfl | ⟨-, h⟩
  · exact hp
  · exact placed_of_above h

/-- No link leads out of the document.  The one that goes up needs an argument: the address that is
left is a beginning of one that leads somewhere. -/
theorem placed_of_links (hp : origin.Placed root) (h : move.Links root origin next) :
    next.Placed root := by
  cases h with
  | self => exact hp
  | aboveRoot => trivial
  | above a i =>
    -- an address that leads somewhere has every shorter one on its way
    obtain ⟨e, he⟩ := hp
    rw [Element.at?_append] at he
    obtain ⟨f, hf, -⟩ := Option.bind_eq_some_iff.mp he
    exact ⟨f, hf⟩
  | ownerOfAttribute => exact hp
  | ownerOfText => exact hp
  | named => exact hp
  | anyNamed => exact hp
  | text => exact hp
  | child left =>
    obtain ⟨e, he⟩ := Option.isSome_iff_exists.mp (child?_isSome_of_survives left)
    exact ⟨e, Item.at?_below he⟩

/-! ## The program takes links

For each kind of move, what the program lists from a place are the places that the links lead to.
Moves from a place where they lead nowhere give the empty list, and no link matches. -/

/-- Below the root, going up drops the last number of the address. -/
theorem candidates_parent_concat (a : Address) (i : Nat) :
    Move.parent.candidates root (.element (a ++ [i])) = [.element a] := by
  rw [Move.candidates, List.dropLast_concat]
  simp

/-- Up from the root is the document; up from an attribute or a text is the element that has it. -/
theorem mem_candidates_parent :
    next ∈ Move.parent.candidates root origin ↔ Move.parent.Links root origin next := by
  cases origin with
  | document => exact ⟨fun h => (List.not_mem_nil h).elim, fun h => by cases h⟩
  | element a =>
    rcases List.eq_nil_or_concat a with rfl | ⟨a, i, rfl⟩
    · rw [Move.candidates, List.mem_singleton]
      constructor
      · rintro rfl
        exact .aboveRoot
      · intro h
        -- the links are inverted on a variable, since an address with a number at its end is not
        -- `[]`
        generalize hb : ([] : Address) = b at h
        cases h with
        | aboveRoot => rfl
        | above a i => exact absurd hb (by simp)
    · rw [List.concat_eq_append, candidates_parent_concat, List.mem_singleton]
      constructor
      · rintro rfl
        exact .above a i
      · intro h
        generalize hb : a ++ [i] = b at h
        cases h with
        | aboveRoot => exact absurd hb (by simp)
        | above b j => rw [(List.append_inj' hb rfl).1]
  | «attribute» a n =>
    rw [Move.candidates, List.mem_singleton]
    refine ⟨?_, fun h => by cases h; rfl⟩
    rintro rfl
    exact .ownerOfAttribute a n
  | text a =>
    rw [Move.candidates, List.mem_singleton]
    refine ⟨?_, fun h => by cases h; rfl⟩
    rintro rfl
    exact .ownerOfText a

/-- A name finds one attribute or none, while `@*` lists an attribute for each that the element has.
-/
theorem mem_candidates_attribute {test : NameTest} {a : Address} :
    next ∈ (Move.attribute test).candidates root (.element a)
      ↔ (Move.attribute test).Links root (.element a) next := by
  -- a name asks whether the attribute is there, the star lists them all
  cases test with
  | name n =>
    rw [Move.candidates]
    constructor
    · intro h
      split at h
      next hs =>
        obtain ⟨v, hv⟩ := Option.isSome_iff_exists.mp hs
        obtain ⟨e, he, hv⟩ := Option.bind_eq_some_iff.mp hv
        rw [List.mem_singleton] at h
        exact h ▸ .named he (by rw [hv]; rfl)
      next => cases h
    · intro h
      cases h with
      | named he hn => simp [he, hn]
  | any =>
    rw [Move.candidates]
    cases ha : root.at? a with
    | none =>
      refine ⟨fun h => by simp at h, fun h => ?_⟩
      cases h with
      | anyNamed he _ => cases ha.symm.trans he
    | some e =>
      rw [Option.map_some, Option.getD_some, List.mem_map]
      constructor
      · rintro ⟨x, hx, rfl⟩
        exact .anyNamed ha hx
      · intro h
        cases h with
        | anyNamed he hx =>
          cases ha.symm.trans he
          exact ⟨_, hx, rfl⟩

/-- An element whose text is blank has no text to select. -/
theorem mem_candidates_text {a : Address} :
    next ∈ Move.text.candidates root (.element a) ↔ Move.text.Links root (.element a) next := by
  rw [Move.candidates]
  -- an address with no element behind it has no candidates and no links
  cases ha : root.at? a with
  | none =>
    refine ⟨fun h => by simp at h, fun h => ?_⟩
    cases h with
    | text he _ => cases ha.symm.trans he
  | some e =>
    constructor
    · intro h
      split at h
      next hs =>
        rw [List.mem_singleton] at h
        exact h ▸ .text ha (by simpa using hs)
      next => cases h
    · intro h
      cases h with
      | text he ht =>
        cases ha.symm.trans he
        simpa using ht

/-- A move lists the places that it leads to. -/
theorem mem_candidates :
    next ∈ move.candidates root origin ↔ move.Links root origin next := by
  cases move with
  | self =>
    rw [Move.candidates, List.mem_singleton]
    exact ⟨fun h => h ▸ .self _, fun h => by cases h; rfl⟩
  | parent => exact mem_candidates_parent
  | «attribute» test =>
    -- only an element has attributes and a text
    cases origin with
    | element a => exact mem_candidates_attribute
    | _ => cases test <;> exact ⟨fun h => (List.not_mem_nil h).elim, fun h => by cases h⟩
  | text =>
    cases origin with
    | element a => exact mem_candidates_text
    | _ => exact ⟨fun h => (List.not_mem_nil h).elim, fun h => by cases h⟩
  | child test predicates =>
    rw [mem_candidates_child]
    constructor
    · rintro ⟨i, hi, rfl⟩
      exact .child hi
    · intro h
      cases h with
      | child hi => exact ⟨_, hi, rfl⟩

/-- The items that a place is widened to are itself and the elements below it. -/
theorem mem_widen (hp : item.Placed root) :
    origin ∈ widen root item ↔ origin = item ∨ item.Above root origin := by
  cases item with
  | document =>
    rw [widen, List.mem_cons, List.mem_map]
    refine or_congr_right ⟨?_, fun h => ?_⟩
    · rintro ⟨b, hb, rfl⟩
      obtain ⟨e, he⟩ := Element.mem_addresses_iff.mp hb
      exact .document he
    · cases h with
      | document he => exact ⟨_, Element.mem_addresses_iff.mpr ⟨_, he⟩, rfl⟩
  | element a =>
    obtain ⟨e, ha⟩ := hp
    have hat : ∀ b, root.at? (a ++ b) = e.at? b := fun b => by rw [Element.at?_append, ha]; rfl
    rw [widen, ha, Option.map_some, Option.getD_some, List.mem_map]
    constructor
    · rintro ⟨b, hb, rfl⟩
      obtain ⟨f, hf⟩ := Element.mem_addresses_iff.mp hb
      by_cases hnil : b = []
      -- the addresses of a subtree begin with the empty one, which is the element itself
      · exact .inl (by rw [hnil, List.append_nil])
      · exact .inr (.element hnil ((hat b).trans hf))
    · rintro (rfl | h)
      · exact ⟨[], Element.mem_addresses_iff.mpr ⟨e, rfl⟩, by rw [List.append_nil]⟩
      · cases h with
        | element _ hf => exact ⟨_, Element.mem_addresses_iff.mpr ⟨_, (hat _).symm.trans hf⟩, rfl⟩
  | «attribute» a n =>
    exact List.mem_singleton.trans (or_iff_left fun h => by cases h).symm
  | text a =>
    exact List.mem_singleton.trans (or_iff_left fun h => by cases h).symm

/-- Where a step is taken from in the program is where it may be taken from. -/
theorem mem_origins (hp : item.Placed root) :
    origin ∈ step.origins root item ↔ step.From root item origin := by
  rw [Step.origins, Step.From]
  cases step.descend with
  | true => simp [mem_widen hp]
  | false => simp

/-- A step leads from the items listed to everything that a link away from an origin of one of
    them. -/
theorem mem_apply {items : List Item} (hp : ∀ x ∈ items, x.Placed root) :
    next ∈ step.apply root items
      ↔ ∃ x ∈ items, ∃ origin, step.From root x origin ∧ step.move.Links root origin next := by
  rw [Step.apply, List.mem_eraseDups, List.mem_flatMap]
  constructor
  · rintro ⟨origin, ho, hn⟩
    obtain ⟨x, hx, ho⟩ := List.mem_flatMap.mp ho
    exact ⟨x, hx, origin, (mem_origins (hp x hx)).mp ho, mem_candidates.mp hn⟩
  · rintro ⟨x, hx, origin, ho, hn⟩
    exact ⟨origin, List.mem_flatMap.mpr ⟨x, hx, (mem_origins (hp x hx)).mpr ho⟩,
      mem_candidates.mpr hn⟩

/-- The steps in turn lead from the items listed to the ends of the chains from them. -/
theorem mem_foldl_apply {steps : List Step} {items : List Item} (hp : ∀ x ∈ items, x.Placed root) :
    last ∈ steps.foldl (fun items step => step.apply root items) items
      ↔ ∃ x ∈ items, Chain root steps x last := by
  induction steps generalizing items with
  | nil =>
    refine ⟨fun h => ⟨last, h, .nil last⟩, ?_⟩
    rintro ⟨x, hx, hc⟩
    cases hc
    exact hx
  | cons step steps ih =>
    -- the invariant of the run: what is reached is in the document
    have hplaced : ∀ y ∈ step.apply root items, y.Placed root := by
      intro y hy
      obtain ⟨x, hx, origin, ho, hl⟩ := (mem_apply hp).mp hy
      exact placed_of_links (placed_of_from (hp x hx) ho) hl
    rw [List.foldl_cons, ih hplaced]
    constructor
    · rintro ⟨y, hy, hc⟩
      obtain ⟨x, hx, origin, ho, hl⟩ := (mem_apply hp).mp hy
      exact ⟨x, hx, .cons ho hl hc⟩
    · rintro ⟨x, hx, hc⟩
      cases hc with
      | cons ho hl hc => exact ⟨_, (mem_apply hp).mpr ⟨x, hx, _, ho, hl⟩, hc⟩

end

/-! ## Main result -/

/-- Each step drops repetitions, so only a run without steps could keep some from the start. -/
theorem nodup_foldl_apply {root : Element} {steps : List Step} {items : List Item}
    (h : items.Nodup) : (steps.foldl (fun items step => step.apply root items) items).Nodup := by
  induction steps generalizing items with
  | nil => exact h
  | cons step steps ih => exact ih (FirstSeen.nodup_eraseDups _)

/-- The program selects what the path means: the run of the steps is a chain. -/
theorem LocationPath.mem_select_iff (path : LocationPath) (c : Cursor) (item : Item) :
    item ∈ path.select c.root c.address ↔ path.Selects c.root c.address item := by
  have hp : ∀ x ∈ [path.start c.address], x.Placed c.root := by
    intro x hx
    obtain rfl := List.mem_singleton.mp hx
    rw [start]
    split
    · trivial
    · exact ⟨_, c.found⟩
  rw [select, Selects]
  split
  · exact List.mem_singleton
  · rw [← start, mem_foldl_apply hp]
    simp

/-- Nothing is selected twice. -/
theorem LocationPath.nodup_select (path : LocationPath) (root : Element) (context : Address) :
    (path.select root context).Nodup := by
  rw [select]
  split
  · simp
  · exact nodup_foldl_apply (by simp)

/-- What a path selects, each match once: the ends of its chains of links, and from the document
    the same for every element of it as context. -/
theorem LocationPath.select_exact (path : LocationPath) (c : Cursor) :
    (path.select c.root c.address).Nodup
      ∧ (∀ item, item ∈ path.select c.root c.address ↔ path.Selects c.root c.address item)
      ∧ (path.absolute → ∀ d : Cursor, d.root = c.root →
          path.select d.root d.address = path.select c.root c.address) := by
  refine ⟨path.nodup_select _ _, path.mem_select_iff c, fun ha d hd => ?_⟩
  rw [select, select, hd, ha]
  rfl

/-- Two elements of one name, one further down than the other. -/
def sampleDocument : Element :=
  ⟨"r", [], "", [⟨"c", [], "", [⟨"b", [⟨false, "n", "1"⟩], "", []⟩]⟩,
    ⟨"b", [⟨false, "n", "2"⟩], "", []⟩]⟩

/-- Every `b` that is the first of its parent. -/
def firstOfB : LocationPath := ⟨true, [⟨true, .child (.name "b") [.position 1]⟩]⟩

/-- The position counts within each parent, so both elements are selected, from anywhere. -/
theorem LocationPath.select_exact_sample :
    (firstOfB.select sampleDocument [0]).Nodup
      ∧ firstOfB.Selects sampleDocument [0] (.element [0, 0])
      ∧ firstOfB.Selects sampleDocument [0] (.element [1])
      ∧ firstOfB.select sampleDocument [1] = firstOfB.select sampleDocument [0] := by
  have h := firstOfB.select_exact ⟨sampleDocument, [0], _, rfl⟩
  exact ⟨h.1, (h.2.1 _).mp (by decide +kernel), (h.2.1 _).mp (by decide +kernel),
    h.2.2 rfl ⟨sampleDocument, [1], _, rfl⟩ rfl⟩

end NetPlot.Query
