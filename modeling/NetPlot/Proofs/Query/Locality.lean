/-
  Queries that look at nothing but the element that they start from.

  1. **Inward queries** — a path is inward if it starts from a place and no step goes up.  Whatever
     it meets is an element below that place, an attribute or a text of one; the document itself
     is not.

  2. **Subtrees** — an item of a subtree is an item of the whole document under the address of the
     subtree (`Item.under`).  Every part of a step commutes with that: moves
     (`candidates_under`), widening (`widen_under`) and whole steps (`apply_under`).

  3. **Locality** — an inward query has the same values wherever its element stands
     (`evaluate_eq_ofRoot`).

  This is why a label can be known from an element alone, wherever the element stands.
-/
import NetPlot.Proofs.FirstSeen
import NetPlot.Query.Select

namespace NetPlot.Query

open NetPlot.Text NetPlot.Xml

/-! ## Inward queries

A step that goes up would find the elements around, and an absolute path begins above all of them.
These are the only two ways to look at something outside. -/

/-- Does a move stay at a place or go down? -/
def Move.isInward : Move → Bool
  | .parent => false
  | _ => true

/-- Does a path start from a place, with no step that goes up? -/
def LocationPath.isInward (path : LocationPath) : Bool :=
  !path.absolute && path.steps.all (·.move.isInward)

/-- Is a query a text, or are all its paths inward? -/
def isInward : Query → Bool
  | literal _ => true
  | union paths => paths.all (·.isInward)

/-! ## Subtrees

Throughout, `e` is the element at `a`, and addresses of the subtree become addresses of the document
by putting `a` before them.  The document itself is excluded: seen from the subtree it is the parent
of `e`, while in the whole document it is further up. -/

/-- The item of a subtree at an address, as an item of the whole document. -/
def Item.under (a : Address) : Item → Item
  | .document => .document
  | .element b => .element (a ++ b)
  | .attribute b name => .attribute (a ++ b) name
  | .text b => .text (a ++ b)

/-- Different items of the subtree stay different, so repetitions are dropped alike. -/
theorem Item.under_injective (a : Address) : Function.Injective (Item.under a) := by
  intro x y h
  cases x <;> cases y <;> simp_all [under]

section

variable {root e : Element} {a : Address} (h : root.at? a = some e)
include h

/-- An address of the subtree finds the same element there and, with `a` before it, in the document.
-/
theorem at?_under (b : Address) : root.at? (a ++ b) = e.at? b := by
  rw [Element.at?_append, h]
  rfl

theorem childAddresses_under (test : NameTest) (b : Address) :
    childAddresses root test (a ++ b) = (childAddresses e test b).map (a ++ ·) := by
  rw [childAddresses, childAddresses, at?_under h]
  cases e.at? b with
  | none => rfl
  | some f =>
    show List.map _ _ = List.map _ (List.map _ _)
    rw [List.map_map]
    exact List.map_congr_left fun x _ => List.append_assoc a b [x.2]

/-- A predicate keeps the same children of a subtree, wherever the subtree stands. -/
theorem keep_under (p : Predicate) (bs : List Address) :
    p.keep root (bs.map (a ++ ·)) = (p.keep e bs).map (a ++ ·) := by
  -- a condition is on the element, a position on the list
  have hfilter : ∀ holds : Element → Bool,
      (bs.map (a ++ ·)).filter (fun b => (root.at? b).any holds) =
        (bs.filter fun b => (e.at? b).any holds).map (a ++ ·) := by
    intro holds
    rw [List.filter_map]
    refine congrArg _ (List.filter_congr fun b _ => ?_)
    rw [Function.comp_apply, at?_under h]
  cases p with
  | position n =>
    show (bs.map (a ++ ·))[n - 1]?.toList = (bs[n - 1]?.toList).map (a ++ ·)
    rw [List.getElem?_map, Option.toList_map]
  | hasAttr x => exact hfilter _
  | attrEquals x v => exact hfilter _
  | childEquals c v => exact hfilter _

/-- All predicates of a step keep the same children, by induction on them. -/
theorem foldl_keep_under (ps : List Predicate) (bs : List Address) :
    ps.foldl (fun as p => p.keep root as) (bs.map (a ++ ·)) =
      (ps.foldl (fun as p => p.keep e as) bs).map (a ++ ·) := by
  induction ps generalizing bs with
  | nil => rfl
  | cons p ps ih => rw [List.foldl_cons, List.foldl_cons, keep_under h, ih]

/-- A move that does not go up reaches the same items of the subtree. -/
theorem candidates_under {move : Move} (hm : move.isInward = true) {item : Item}
    (hi : item ≠ .document) :
    move.candidates root (item.under a) = (move.candidates e item).map (Item.under a) := by
  have helements : ∀ bs : List Address, (bs.map (a ++ ·)).map Item.element =
      (bs.map Item.element).map (Item.under a) := fun bs => by
    rw [List.map_map, List.map_map]
    rfl
  -- only `parent` looks outside the subtree, and it is excluded; the others look the element up
  cases move with
  | self => rfl
  | parent => cases hm
  | «attribute» test =>
    cases item with
    | document => exact absurd rfl hi
    | element b =>
      cases test with
      | name n =>
        show (if ((root.at? (a ++ b)).bind (·.attr? n)).isSome then _ else _) = List.map _ _
        rw [at?_under h, Move.candidates]
        split <;> rfl
      | any =>
        show List.map _ ((Option.map _ (root.at? (a ++ b))).getD []) =
          List.map _ (List.map _ ((Option.map _ (e.at? b)).getD []))
        rw [at?_under h, List.map_map]
        rfl
    | «attribute» b n => cases test <;> rfl
    | text b => cases test <;> rfl
  | text =>
    cases item with
    | document => exact absurd rfl hi
    | element b =>
      show (if ((root.at? (a ++ b)).map fun e => e.text.toList.all isBlank) == some false then _
        else _) = List.map _ _
      rw [at?_under h, Move.candidates]
      split <;> rfl
    | «attribute» b n => rfl
    | text b => rfl
  | child test ps =>
    cases item with
    | document => exact absurd rfl hi
    | element b =>
      show (ps.foldl (fun as p => p.keep root as) (childAddresses root test (a ++ b))).map
        Item.element = List.map _ (List.map _ _)
      rw [childAddresses_under h, foldl_keep_under h, helements]
    | «attribute» b n => rfl
    | text b => rfl

/-- Widening an item of a subtree stays within the subtree. -/
theorem widen_under {item : Item} (hi : item ≠ .document) :
    widen root (item.under a) = (widen e item).map (Item.under a) := by
  cases item with
  | document => exact absurd rfl hi
  | element b =>
    show List.map _ ((Option.map _ (root.at? (a ++ b))).getD []) =
      List.map _ (List.map _ ((Option.map _ (e.at? b)).getD []))
    rw [at?_under h, List.map_map]
    exact List.map_congr_left fun c _ => congrArg Item.element (List.append_assoc a b c)
  | «attribute» b n => rfl
  | text b => rfl

omit h in
/-- Going down never leads to the document. -/
theorem ne_document_of_widen {item x : Item} (hi : item ≠ .document) (hx : x ∈ widen root item) :
    x ≠ .document := by
  cases item with
  | document => exact absurd rfl hi
  | element b =>
    obtain ⟨c, -, rfl⟩ := List.mem_map.mp hx
    exact nofun
  | «attribute» b n =>
    obtain rfl := List.mem_singleton.mp hx
    exact hi
  | text b =>
    obtain rfl := List.mem_singleton.mp hx
    exact hi

omit h in
/-- Only going up leads to the document, and an inward move does not. -/
theorem ne_document_of_candidates {move : Move} (hm : move.isInward = true) {item x : Item}
    (hi : item ≠ .document) (hx : x ∈ move.candidates root item) : x ≠ .document := by
  rintro rfl
  cases move with
  | self => exact hi (List.mem_singleton.mp hx).symm
  | parent => cases hm
  | «attribute» test =>
    cases item <;> cases test <;> simp [Move.candidates] at hx
  | text =>
    cases item <;> simp [Move.candidates] at hx
  | child test ps =>
    cases item <;> simp [Move.candidates] at hx

/-- A step that does not go up reaches the same items of the subtree, none of them the document. -/
theorem apply_under {step : Step} (hm : step.move.isInward = true) {items : List Item}
    (hi : ∀ x ∈ items, x ≠ .document) :
    step.apply root (items.map (Item.under a)) = (step.apply e items).map (Item.under a) ∧
      ∀ x ∈ step.apply e items, x ≠ .document := by
  -- an inward step starts from the same places, shifted, and never from the document
  have horigins : ∀ x ∈ items, step.origins root (x.under a) =
      (step.origins e x).map (Item.under a) ∧ ∀ y ∈ step.origins e x, y ≠ .document := by
    intro x hx
    rw [Step.origins, Step.origins]
    split
    · exact ⟨widen_under h (hi x hx), fun y hy => ne_document_of_widen (hi x hx) hy⟩
    · refine ⟨rfl, fun y hy => ?_⟩
      obtain rfl := List.mem_singleton.mp hy
      exact hi y hx
  have hplaces : ∀ y ∈ items.flatMap (step.origins e), y ≠ .document := by
    intro y hy
    obtain ⟨x, hx, hy⟩ := List.mem_flatMap.mp hy
    exact (horigins x hx).2 y hy
  constructor
  -- widening, moving and dropping duplicates each commute with the shift
  · have hwide : (items.map (Item.under a)).flatMap (step.origins root) =
        (items.flatMap (step.origins e)).map (Item.under a) := by
      rw [List.flatMap_map, List.map_flatMap]
      exact List.flatMap_congr fun x hx => (horigins x hx).1
    have hmoved : ((items.flatMap (step.origins e)).map (Item.under a)).flatMap
        (step.move.candidates root) =
          ((items.flatMap (step.origins e)).flatMap (step.move.candidates e)).map
            (Item.under a) := by
      rw [List.flatMap_map, List.map_flatMap]
      exact List.flatMap_congr fun y hy => candidates_under h hm (hplaces y hy)
    rw [Step.apply, Step.apply, hwide, hmoved]
    exact FirstSeen.eraseDups_map (Item.under_injective a) _
  · intro x hx
    obtain ⟨y, hy, hx⟩ := List.mem_flatMap.mp (List.mem_eraseDups.mp hx)
    exact ne_document_of_candidates hm (hplaces y hy) hx

/-- By induction on the steps, with the invariant that no step reaches the document. -/
theorem foldl_apply_under {steps : List Step} (hs : ∀ step ∈ steps, step.move.isInward = true)
    {items : List Item} (hi : ∀ x ∈ items, x ≠ .document) :
    steps.foldl (fun items step => step.apply root items) (items.map (Item.under a)) =
      (steps.foldl (fun items step => step.apply e items) items).map (Item.under a) := by
  induction steps generalizing items with
  | nil => rfl
  | cons step steps ih =>
    obtain ⟨happly, hnext⟩ := apply_under h (hs step List.mem_cons_self) hi
    rw [List.foldl_cons, List.foldl_cons, happly]
    exact ih (fun step hm => hs step (List.mem_cons_of_mem _ hm)) hnext

/-- An inward path selects the same items of the subtree. -/
theorem LocationPath.select_under {path : LocationPath} (hp : path.isInward = true) :
    path.select root a = (path.select e []).map (Item.under a) := by
  rw [isInward, Bool.and_eq_true, Bool.not_eq_true', List.all_eq_true] at hp
  obtain ⟨hrelative, hsteps⟩ := hp
  rw [select, select, hrelative]
  have hitem : ∀ x ∈ [Item.element []], x ≠ .document := by simp
  have hstart := foldl_apply_under h hsteps hitem
  rw [List.map_singleton, Item.under, List.append_nil] at hstart
  exact hstart

/-- An item of a subtree has its value wherever the subtree stands. -/
theorem Item.value_under (item : Item) : (item.under a).value root = item.value e := by
  cases item with
  | document => rfl
  | element b =>
    show ((root.at? (a ++ b)).map _).getD _ = _
    rw [at?_under h]
    rfl
  | «attribute» b n =>
    show ((root.at? (a ++ b)).map _).getD _ = _
    rw [at?_under h]
    rfl
  | text b =>
    show ((root.at? (a ++ b)).map _).getD _ = _
    rw [at?_under h]
    rfl

end

/-! ## Locality -/

/-- An inward query has the values that it has of the element alone. -/
theorem evaluate_eq_ofRoot {query : Query} (hq : query.isInward = true) (c : Cursor) :
    query.evaluate c = query.evaluate (.ofRoot c.element) := by
  cases query with
  | literal s => rfl
  | union paths =>
    rw [isInward, List.all_eq_true] at hq
    refine List.flatMap_congr fun path hp => ?_
    rw [LocationPath.select_under c.found (hq path hp), List.map_map]
    exact List.map_congr_left fun item _ => Item.value_under c.found item

end NetPlot.Query
