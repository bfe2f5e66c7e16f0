/-
  The order in which a path selects.

  1. **Stages** — what is known of the items after some steps: they are all at one depth
     (`level`), or closed under going up to some depth (`rooted`), or in the order of what is `k`
     levels above them (`grouped k`); and they are elements or belong to elements (`owned`).
     `LocationPath.stage?` computes the stage, where there is one: from `//` on, every step to
     children puts one level more above, and every `..` one less.

  2. **Soundness** — one step takes items that fit a stage to items that fit the next
     (`fits_apply`), and so do all steps of a path (`fits_foldl_apply`).

  3. **Order** — paths without `//` select in document order, as do all whose stage has nothing
     above; the others that have a stage select in the order that it says (`order_of_select`).
     A child step after `//` does not select in document order (`exists_out_of_order`).

  **The crux** — order is lost at one point only, by going down after a step that has put items of
  different depths in a row.  From there on a path selects in the order of what stands some levels
  above, and the stage counts these levels.
-/
import NetPlot.Proofs.Query.Order
import NetPlot.Proofs.Query.RoundTrip

namespace NetPlot.Query

open NetPlot.Xml
open NetPlot.FirstSeen (collect mem_collect)

/-! ## Stages

The stages are computed from the steps of a path alone.  They hold for every document, so what a
stage says cannot depend on how deep a document is or what stands in it. -/

/-- What is known of the order in which items are listed. -/
inductive Shape where
  /-- All at one depth, and in document order. -/
  | level
  /-- Closed under going up to some depth, and in document order. -/
  | rooted
  /-- In the order of what stands so many levels above. -/
  | grouped (k : Nat)
  deriving DecidableEq, Repr

namespace Shape

/-- By what stands how many levels above are the items listed? -/
def grouping : Shape → Nat
  | grouped k => k
  | _ => 0

/-- After all elements below have been added. -/
def widened? : Shape → Option Shape
  | grouped (_ + 1) => none
  | grouped 0 => some (grouped 0)
  | _ => some rooted

/-- After going up from elements. -/
def parents? : Shape → Option Shape
  | grouped 0 => none
  | grouped (k + 1) => some (grouped k)
  | shape => some shape

/-- After going down to children. -/
def children : Shape → Shape
  | level => level
  | rooted => grouped 1
  | grouped k => grouped (k + 1)

/-- After some have been left out, and others replaced by what stands at the same place. -/
def sifted : Shape → Shape
  | rooted => grouped 0
  | shape => shape

/-- The items are as the shape says. -/
def Fits : Shape → List Item → Prop
  | level, items => ∃ depth, (∀ x ∈ items, x.place.length = depth) ∧ InOrder depth items
  | rooted, items => ∃ depth, Rooted depth items ∧ InDocumentOrder items
  | grouped k, items => (∀ x ∈ items, k ≤ x.place.length) ∧ InOrder k items

end Shape

/-- What is known of the items after some steps of a path. -/
structure Stage where
  shape : Shape
  /-- They belong to elements, and nothing is below them. -/
  owned : Bool
  deriving DecidableEq, Repr

/-- The stage after all elements below have been added. -/
def Stage.widened? (s : Stage) : Option Stage :=
  if s.owned then some s else s.shape.widened?.map (⟨·, false⟩)

/-- The stage after a move. -/
def Stage.moved? (s : Stage) : Move → Option Stage
  | .self => some s
  | .parent => if s.owned then some ⟨s.shape.sifted, false⟩ else s.shape.parents?.map (⟨·, false⟩)
  | .attribute _ | .text => some ⟨s.shape.sifted, true⟩
  | .child _ _ => some (if s.owned then s else ⟨s.shape.children, false⟩)

/-- The stage after a step. -/
def Stage.stepped? (s : Stage) (step : Step) : Option Stage :=
  (if step.descend then s.widened? else some s).bind (·.moved? step.move)

/-- The stage that the steps of a path lead to, if the order of what they select is known. -/
def LocationPath.stage? (path : LocationPath) : Option Stage :=
  path.steps.foldlM Stage.stepped? ⟨.level, false⟩

/-- The items are as the stage says. -/
structure Stage.Fits (root : Element) (s : Stage) (items : List Item) : Prop where
  nodup : items.Nodup
  placed : ∀ x ∈ items, x.Placed root
  owned : ∀ x ∈ items, x.owned = s.owned
  shape : s.shape.Fits items

/-! ## Soundness

`sifted`, `children`, `parents` and `widened` are sound for the lists that the moves collect, first
for the shape alone, then for whole stages.  Items that belong to elements have nothing below them
and are left where they are, or give the empty list, which has every shape. -/

section

variable {root : Element} {items : List Item} {shape shape' : Shape} {s s' : Stage}

/-- No items have every shape. -/
theorem Shape.fits_nil (shape : Shape) : shape.Fits [] := by
  cases shape with
  | level => exact ⟨0, by simp, List.Pairwise.nil⟩
  | rooted => exact ⟨0, ⟨by simp, by simp⟩, List.Pairwise.nil⟩
  | grouped k => exact ⟨by simp, List.Pairwise.nil⟩

/-- All at one depth are in document order. -/
theorem inDocumentOrder_of_length_eq {depth : Nat} (hd : ∀ x ∈ items, x.place.length = depth)
    (h : InOrder depth items) : InDocumentOrder items :=
  h.imp_of_mem fun hx hy hf => (follows_iff_of_length_eq (hd _ hx) (hd _ hy)).mp hf

/-- Whatever the shape, the items are in the order of what stands so many levels above. -/
theorem Shape.Fits.inOrder (h : shape.Fits items) : InOrder shape.grouping items := by
  cases shape with
  | level =>
    obtain ⟨depth, hd, h⟩ := h
    exact inOrder_zero.mpr (inDocumentOrder_of_length_eq hd h)
  | rooted => exact inOrder_zero.mpr h.choose_spec.2
  | grouped k => exact h.2

/-- Replaced by what stands at the same places. -/
theorem Shape.Fits.sifted {f : Item → List Item} (h : shape.Fits items) (hn : items.Nodup)
    (hf : ∀ x ∈ items, ∀ u ∈ f x, u.place = x.place) :
    shape.sifted.Fits (collect f items) := by
  -- what holds of the depths of the items holds of what stands at their places
  have length {P : Nat → Prop} (hP : ∀ x ∈ items, P x.place.length) :
      ∀ u ∈ collect f items, P u.place.length := by
    intro u hu
    obtain ⟨x, hx, hu⟩ := mem_collect.mp hu
    exact hf x hx u hu ▸ hP x hx
  cases shape with
  | level =>
    obtain ⟨depth, hd, h⟩ := h
    exact ⟨depth, length (P := (· = depth)) hd, inOrder_of_place_eq hn h hf⟩
  | rooted =>
    obtain ⟨depth, -, h⟩ := h
    exact ⟨fun _ _ => Nat.zero_le _, inOrder_of_place_eq hn (inOrder_zero.mpr h) hf⟩
  | grouped k => exact ⟨length h.1, inOrder_of_place_eq hn h.2 hf⟩

/-- Children of items on one level are on the next; those of items in any other order are in the
order of what they are the children of, and no more is known. -/
theorem Shape.Fits.children {test : NameTest} {predicates : List Predicate}
    (h : shape.Fits items) (hn : items.Nodup) (ho : ∀ x ∈ items, x.owned = false) :
    shape.children.Fits
      (collect ((Move.child test predicates).candidates root) items) := by
  -- a child lies one level below the item it comes from
  have length : ∀ u ∈ collect ((Move.child test predicates).candidates root) items,
      ∃ x ∈ items, u.place.length = x.place.length + 1 := by
    intro u hu
    obtain ⟨x, hx, hu⟩ := mem_collect.mp hu
    obtain ⟨i, hi, rfl⟩ := mem_candidates_child.mp hu
    exact ⟨x, hx, by rw [(place_of_survives hi).1, List.length_append, List.length_singleton]⟩
  cases shape with
  | level =>
    obtain ⟨depth, hd, h⟩ := h
    refine ⟨depth + 1, fun u hu => ?_, inOrder_children hn ho (fun x hx => (hd x hx).ge) h⟩
    obtain ⟨x, hx, hl⟩ := length u hu
    rw [hl, hd x hx]
  | rooted =>
    obtain ⟨depth, -, h⟩ := h
    refine ⟨fun u hu => ?_, inOrder_children hn ho (fun _ _ => Nat.zero_le _) (inOrder_zero.mpr h)⟩
    obtain ⟨x, hx, hl⟩ := length u hu
    omega
  | grouped k =>
    refine ⟨fun u hu => ?_, inOrder_children hn ho h.1 h.2⟩
    obtain ⟨x, hx, hl⟩ := length u hu
    have := h.1 x hx
    omega

/-- Parents of items on one level are on the one before; only the document has nothing above it, and
then there are none. -/
theorem Shape.Fits.parents (h : shape.Fits items) (hs : shape.parents? = some shape')
    (hn : items.Nodup) (hp : ∀ x ∈ items, x.Placed root) (ho : ∀ x ∈ items, x.owned = false) :
    shape'.Fits (collect (Move.parent.candidates root) items) := by
  -- a parent lies one level above the item it comes from
  have length : ∀ u ∈ collect (Move.parent.candidates root) items,
      ∃ x ∈ items, x.place.length = u.place.length + 1 := by
    intro u hu
    obtain ⟨x, hx, hu⟩ := mem_collect.mp hu
    obtain ⟨-, i, hi⟩ := (links_parent_iff (ho x hx)).mp (mem_candidates.mp hu)
    exact ⟨x, hx, by rw [hi, List.length_append, List.length_singleton]⟩
  cases shape with
  | level =>
    cases hs
    obtain ⟨depth, hd, h⟩ := h
    cases depth with
    | zero =>
      -- at the top there are no parents, and nothing fits any shape
      have hnil : collect (Move.parent.candidates root) items = [] := by
        refine List.eq_nil_iff_forall_not_mem.mpr fun u hu => ?_
        obtain ⟨x, hx, hl⟩ := length u hu
        rw [hd x hx] at hl
        cases hl
      rw [hnil]
      exact Shape.fits_nil _
    | succ depth =>
      refine ⟨depth, fun u hu => ?_, inOrder_parents hn ho (fun x hx => (hd x hx).ge) h⟩
      obtain ⟨x, hx, hl⟩ := length u hu
      rw [hd x hx] at hl
      exact (Nat.succ.inj hl).symm
  | rooted =>
    cases hs
    obtain ⟨depth, hr, h⟩ := h
    exact ⟨depth - 1, rooted_parents hp ho hr, inDocumentOrder_parents hp ho hr h⟩
  | grouped k =>
    cases k with
    | zero => cases hs
    | succ k =>
      cases hs
      refine ⟨fun u hu => ?_, inOrder_parents hn ho h.1 h.2⟩
      obtain ⟨x, hx, hl⟩ := length u hu
      have := h.1 x hx
      omega

/-- Adding what is below keeps document order, so it needs items that are in document order. -/
theorem Shape.Fits.widened (h : shape.Fits items) (hs : shape.widened? = some shape')
    (hp : ∀ x ∈ items, x.Placed root) (ho : ∀ x ∈ items, x.owned = false) :
    shape'.Fits (collect (widen root) items) := by
  cases shape with
  | level =>
    cases hs
    obtain ⟨depth, hd, h⟩ := h
    exact ⟨depth, rooted_widened hp ho (rooted_of_length_eq hd),
      inDocumentOrder_widened hp ho (inDocumentOrder_of_length_eq hd h)⟩
  | rooted =>
    cases hs
    obtain ⟨depth, hr, h⟩ := h
    exact ⟨depth, rooted_widened hp ho hr, inDocumentOrder_widened hp ho h⟩
  | grouped k =>
    -- widening needs document order, which is the order of the shape for `k = 0` alone
    cases k with
    | zero =>
      cases hs
      exact ⟨fun _ _ => Nat.zero_le _,
        inOrder_zero.mpr (inDocumentOrder_widened hp ho (inOrder_zero.mp h.2))⟩
    | succ k => cases hs

/-- What is collected has no repetitions, so a stage is fitted as soon as its shape is. -/
theorem Stage.fits_collect {f : Item → List Item} (placed : ∀ x ∈ items, ∀ u ∈ f x, u.Placed root)
    (owned : ∀ x ∈ items, ∀ u ∈ f x, u.owned = s.owned) (shape : s.shape.Fits (collect f items)) :
    s.Fits root (collect f items) where
  nodup := FirstSeen.nodup_collect f items
  placed u hu := by
    obtain ⟨x, hx, hu⟩ := mem_collect.mp hu
    exact placed x hx u hu
  owned u hu := by
    obtain ⟨x, hx, hu⟩ := mem_collect.mp hu
    exact owned x hx u hu
  shape := shape

theorem Stage.Fits.placed_of_mem {move : Move} (h : s.Fits root items) :
    ∀ x ∈ items, ∀ u ∈ move.candidates root x, u.Placed root := fun x hx _ hu =>
  placed_of_links (h.placed x hx) (mem_candidates.mp hu)

/-- Up from elements is to what is above them, up from the rest to what they belong to. -/
theorem Stage.Fits.parents (h : s.Fits root items) (hs : s.moved? .parent = some s') :
    s'.Fits root (collect (Move.parent.candidates root) items) := by
  -- a parent is never owned, so the stage behind is one of elements
  have elements : ∀ x ∈ items, ∀ u ∈ Move.parent.candidates root x, u.owned = false := by
    intro x _ u hu
    cases mem_candidates.mp hu <;> rfl
  obtain ⟨shape, owned⟩ := s
  cases owned with
  | true =>
    cases hs
    refine Stage.fits_collect h.placed_of_mem elements (h.shape.sifted h.nodup fun x hx u hu => ?_)
    -- from owned items a parent is the owner, which has their place
    have hx : x.owned = true := h.owned x hx
    cases mem_candidates.mp hu with
    | aboveRoot => cases hx
    | above => cases hx
    | ownerOfAttribute => rfl
    | ownerOfText => rfl
  | false =>
    obtain ⟨shape', hs', rfl⟩ := Option.map_eq_some_iff.mp hs
    exact Stage.fits_collect h.placed_of_mem elements
      (h.shape.parents hs' h.nodup h.placed h.owned)

/-- Down from elements is to their children; nothing is below the rest. -/
theorem Stage.Fits.children {test : NameTest} {predicates : List Predicate}
    (h : s.Fits root items) (hs : s.moved? (.child test predicates) = some s') :
    s'.Fits root (collect ((Move.child test predicates).candidates root) items) := by
  obtain ⟨shape, owned⟩ := s
  cases hs
  cases owned with
  | true =>
    -- nothing survives below what belongs to an element
    have hnil : collect ((Move.child test predicates).candidates root) items = [] := by
      refine FirstSeen.collect_eq_nil fun x hx u hu => ?_
      obtain ⟨i, hi, -⟩ := mem_candidates_child.mp hu
      exact absurd ((place_of_survives hi).2.symm.trans (h.owned x hx)) (by simp)
    rw [hnil]
    exact ⟨List.nodup_nil, by simp, by simp, Shape.fits_nil _⟩
  | false =>
    refine Stage.fits_collect h.placed_of_mem (fun x _ u hu => ?_)
      (h.shape.children h.nodup h.owned)
    cases mem_candidates.mp hu
    rfl

/-- What a move leads to from items that fit a stage fits the next. -/
theorem Stage.Fits.moved {move : Move} (h : s.Fits root items) (hs : s.moved? move = some s') :
    s'.Fits root (collect (move.candidates root) items) := by
  cases move with
  | self =>
    cases hs
    have hself : collect (Move.self.candidates root) items = items :=
      FirstSeen.collect_of_singleton (fun _ _ => rfl) h.nodup
    rwa [hself]
  | parent => exact h.parents hs
  | «attribute» test =>
    cases hs
    -- every item leads to items at its own place, so the shape stays
    refine Stage.fits_collect h.placed_of_mem (fun x _ u hu => ?_)
      (h.shape.sifted h.nodup fun x _ u hu => ?_) <;> cases mem_candidates.mp hu <;> rfl
  | text =>
    cases hs
    refine Stage.fits_collect h.placed_of_mem (fun x _ u hu => ?_)
      (h.shape.sifted h.nodup fun x _ u hu => ?_) <;> cases mem_candidates.mp hu <;> rfl
  | child test predicates => exact h.children hs

/-- Items that fit a stage, with all elements below, fit the stage so widened. -/
theorem Stage.Fits.widened (h : s.Fits root items) (hs : s.widened? = some s') :
    s'.Fits root (collect (widen root) items) := by
  obtain ⟨shape, owned⟩ := s
  cases owned with
  | true =>
    cases hs
    -- only the document and elements have anything below them
    have hone : ∀ x ∈ items, widen root x = [x] := by
      intro x hx
      have ho : x.owned = true := h.owned x hx
      cases x with
      | document => cases ho
      | element a => cases ho
      | «attribute» a n => rfl
      | text a => rfl
    rwa [FirstSeen.collect_of_singleton hone h.nodup]
  | false =>
    obtain ⟨shape', hs', rfl⟩ := Option.map_eq_some_iff.mp hs
    have below : ∀ x ∈ items, ∀ u ∈ widen root x, u.owned = false ∧ u.Placed root := by
      intro x hx u hu
      obtain ⟨ho, hp, -⟩ := (mem_widen_iff (h.placed x hx) (h.owned x hx)).mp hu
      exact ⟨ho, hp⟩
    exact Stage.fits_collect (fun x hx u hu => (below x hx u hu).2)
      (fun x hx u hu => (below x hx u hu).1) (h.shape.widened hs' h.placed h.owned)

/-- A step is a move from all its origins. -/
theorem apply_eq_collect (root : Element) (step : Step) (items : List Item) :
    step.apply root items = collect (step.move.candidates root)
      (if step.descend then collect (widen root) items else items) := by
  have horigins : step.origins root = if step.descend then widen root else fun x => [x] := by
    funext x
    rw [Step.origins]
    -- the program collects the origins without dropping repetitions, and drops them in the end
    split <;> rfl
  have happly : step.apply root items
      = collect (step.move.candidates root) (items.flatMap (step.origins root)) := rfl
  rw [happly, horigins]
  split
  · rw [FirstSeen.collect_collect]
  · rw [List.flatMap_singleton']

/-- A step takes items that fit a stage to items that fit the next. -/
theorem fits_apply {step : Step} (h : s.Fits root items) (hs : s.stepped? step = some s') :
    s'.Fits root (step.apply root items) := by
  obtain ⟨t, ht, hs⟩ := Option.bind_eq_some_iff.mp hs
  rw [apply_eq_collect]
  split at ht
  next hd =>
    rw [if_pos hd]
    exact (h.widened ht).moved hs
  next hd =>
    cases ht
    rw [if_neg hd]
    exact h.moved hs

/-- The steps of a path take items that fit a stage to items that fit the stage they lead to. -/
theorem fits_foldl_apply {steps : List Step} (h : s.Fits root items)
    (hs : steps.foldlM Stage.stepped? s = some s') :
    s'.Fits root (steps.foldl (fun items step => step.apply root items) items) := by
  induction steps generalizing s items with
  | nil =>
    cases hs
    exact h
  | cons step steps ih =>
    rw [List.foldlM_cons] at hs
    obtain ⟨t, ht, hs⟩ := Option.bind_eq_some_iff.mp hs
    exact ih (fits_apply h ht) hs

end

/-! ## Main result -/

/-- Without `//`, all items stay at one depth. -/
theorem level_foldlM_stepped {steps : List Step} (h : ∀ step ∈ steps, step.descend = false)
    (owned : Bool) : ∃ o, steps.foldlM Stage.stepped? ⟨.level, owned⟩ = some ⟨.level, o⟩ := by
  induction steps generalizing owned with
  | nil => exact ⟨owned, rfl⟩
  | cons step steps ih =>
    obtain ⟨hstep, hsteps⟩ := List.forall_mem_cons.mp h
    have hlevel : ∃ o, Stage.stepped? ⟨.level, owned⟩ step = some ⟨.level, o⟩ := by
      obtain ⟨descend, move⟩ := step
      cases hstep
      cases move <;> cases owned <;> exact ⟨_, rfl⟩
    obtain ⟨o, ho⟩ := hlevel
    rw [List.foldlM_cons, ho]
    exact ih hsteps o

/-- A single place is at one depth. -/
theorem fits_singleton {root : Element} {x : Item} (hp : x.Placed root) (ho : x.owned = false) :
    Stage.Fits root ⟨.level, false⟩ [x] :=
  ⟨by simp, by simpa using hp, by simpa using ho, x.place.length, by simp, List.pairwise_singleton _ _⟩

/-- What a path selects fits the stage that its steps lead to. -/
theorem LocationPath.fits_select {path : LocationPath} {s : Stage} (h : path.stage? = some s)
    (c : Cursor) : s.Fits c.root (path.select c.root c.address) := by
  rw [select]
  split
  -- the absolute path without steps selects the root element
  next hbare =>
    rw [Bool.and_eq_true, List.isEmpty_iff] at hbare
    rw [stage?, hbare.2] at h
    cases h
    exact fits_singleton ⟨c.root, rfl⟩ rfl
  next =>
    refine fits_foldl_apply (fits_singleton ?_ ?_) h
    · split
      · trivial
      · exact ⟨_, c.found⟩
    · split <;> rfl

/-- The order in which a path selects, and so the order of its values: document order without
    `//`, and for every path whose steps lead to a stage the order that the stage says. -/
theorem LocationPath.order_of_select (path : LocationPath) (c : Cursor) :
    evaluate (.union [path]) c = (path.select c.root c.address).map (·.value c.root)
      ∧ ((∀ step ∈ path.steps, step.descend = false) →
          InDocumentOrder (path.select c.root c.address))
      ∧ ∀ s, path.stage? = some s →
          InOrder s.shape.grouping (path.select c.root c.address)
            ∧ (s.shape.grouping = 0 → InDocumentOrder (path.select c.root c.address)) := by
  have ordered : ∀ s, path.stage? = some s →
      InOrder s.shape.grouping (path.select c.root c.address) := fun s hs =>
    (path.fits_select hs c).shape.inOrder
  refine ⟨by simp [evaluate], fun hsteps => ?_, fun s hs => ⟨ordered s hs, fun hzero => ?_⟩⟩
  · obtain ⟨o, ho⟩ := level_foldlM_stepped hsteps false
    exact inOrder_zero.mp (ordered _ ho)
  · exact inOrder_zero.mp (hzero ▸ ordered s hs)

/-- The elements that have a `b` in them. -/
def aboveB : LocationPath := ⟨true, [⟨true, .child (.name "b") []⟩, ⟨false, .parent⟩]⟩

/-- The numbers of every `b`. -/
def numbersOfB : LocationPath :=
  ⟨true, [⟨true, .child (.name "b") []⟩, ⟨false, .attribute (.name "n")⟩]⟩

/-- Up from every `b` in document order; the numbers of every `b` in the order of their parents. -/
theorem order_of_select_sample :
    (aboveB.stage? = some ⟨.grouped 0, false⟩ ∧
      aboveB.select sampleDocument [] = [.element [], .element [0]] ∧
      InDocumentOrder (aboveB.select sampleDocument [])) ∧
    (numbersOfB.stage? = some ⟨.grouped 1, true⟩ ∧
      InOrder 1 (numbersOfB.select sampleDocument [])) := by
  have h := (aboveB.order_of_select (.ofRoot sampleDocument)).2.2 _ rfl
  have h' := (numbersOfB.order_of_select (.ofRoot sampleDocument)).2.2 _ rfl
  exact ⟨⟨rfl, by decide +kernel, h.2 rfl⟩, rfl, h'.1⟩

/-- A `b` further up is selected before one further down, though it stands after it. -/
theorem exists_out_of_order :
    parse "//b/@n" = .ok (.union [numbersOfB]) ∧
      evaluate (.union [numbersOfB]) (.ofRoot sampleDocument) = ["2", "1"] ∧
      ¬ InDocumentOrder (numbersOfB.select sampleDocument []) := by
  refine ⟨?_, by decide +kernel, ?_⟩
  · have hprint : (Query.union [numbersOfB]).print = "//b/@n" := by decide +kernel
    have hb : IsName "b" := ⟨'b', [], rfl, Or.inl (by decide +kernel), by simp⟩
    have hn : IsName "n" := ⟨'n', [], rfl, Or.inl (by decide +kernel), by simp⟩
    have h : (Query.union [numbersOfB]).WellFormed := by
      refine ⟨List.cons_ne_nil _ _, ?_⟩
      rw [List.forall_mem_singleton]
      refine ⟨nofun, ?_⟩
      simp [numbersOfB, Move.WellFormed, NameTest.WellFormed, hb, hn]
    rw [← hprint]
    exact parse_print h
  · have h : numbersOfB.select sampleDocument [] = [[1], [0, 0]].map (.attribute · "n") := by
      decide +kernel
    -- the second item found lies in the first child, the first in the second
    have hlt : [0, 0] < [1] := by decide
    rw [h]
    simp [InDocumentOrder, Item.place, hlt]

end NetPlot.Query
