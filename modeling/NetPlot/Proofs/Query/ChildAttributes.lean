/-
  An attribute of the children with a name.

  1. **Query** — `childAttribute` goes to the children with a name that pass some predicates, and on
     to one of their attributes; it is read from what it is written as (`parse_childAttribute`).

  2. **Steps** — both steps keep the children apart by their numbers, never by what is in them, so
     nothing is left out as a repetition (`apply_child`, `apply_attribute`).

  3. **Values** — so there is one value for each of the children that has the attribute, in order
     (`evaluate_childAttribute`).
-/
import NetPlot.Proofs.FirstSeen
import NetPlot.Proofs.Query.Children
import NetPlot.Proofs.Query.RoundTrip

namespace NetPlot.Query

open NetPlot.Text NetPlot.Xml
open NetPlot.FirstSeen (eraseDups_of_nodup)

/-! ## Query -/

/-- The query for an attribute of the children with a name that pass all predicates. -/
def childAttribute (name : String) (predicates : List Predicate) (attr : String) : Query :=
  .union [⟨false, [⟨false, .child (.name name) predicates⟩, ⟨false, .attribute (.name attr)⟩]⟩]

/-- Does an element have the name, and do all predicates hold of it, positions aside? -/
def isPicked (name : String) (predicates : List Predicate) (e : Element) : Bool :=
  e.name == name && predicates.all (·.holds e)

section

variable {name attr : String} {predicates : List Predicate}

theorem print_childAttribute (name : String) (predicates : List Predicate) (attr : String) :
    (childAttribute name predicates attr).print =
      name ++ String.ofList (predicates.flatMap (·.inBrackets)) ++ "/@" ++ attr := by
  rw [← String.toList_inj, childAttribute, print, String.toList_ofList, List.map_singleton,
    List.intercalate_singleton]
  simp [LocationPath.chars, Step.chars, Move.chars, NameTest.chars]

/-- With a comparison for its predicate, the query is written with the value in single quotes. -/
theorem print_childAttribute_attrEquals {v : String} (hv : '\'' ∉ v.toList) (name p attr : String) :
    (childAttribute name [.attrEquals p v] attr).print =
      name ++ "[@" ++ p ++ "='" ++ v ++ "']/@" ++ attr := by
  rw [print_childAttribute, ← String.toList_inj]
  simp [Predicate.inBrackets, Predicate.chars, quoted_eq hv]

/-- What is written so is read back as the query, as soon as both names are names and the predicates
can be written. -/
theorem parse_childAttribute (hname : IsName name) (hattr : IsName attr)
    (hp : ∀ p ∈ predicates, p.WellFormed) :
    parse (childAttribute name predicates attr).print =
      .ok (childAttribute name predicates attr) := by
  refine parse_print ⟨List.cons_ne_nil _ _, ?_⟩
  rw [List.forall_mem_singleton]
  refine ⟨fun _ => ⟨_, rfl, rfl⟩, ?_⟩
  simp only [List.forall_mem_cons]
  exact ⟨⟨hname, hp⟩, hattr, List.forall_mem_nil _⟩

end

/-! ## Steps -/

theorem at?_of_mem_zipIdx {c : Cursor} {x : Element × Nat}
    (hx : x ∈ c.element.children.zipIdx) : c.root.at? (c.address ++ [x.2]) = some x.1 := by
  rw [Element.at?_concat c.found, List.mem_zipIdx_iff_getElem?.1 hx]

/-- Children listed with their numbers stay different where something is made of the numbers. -/
theorem nodup_map_zipIdx {α : Type} {f : Nat → α} (hf : Function.Injective f) (es : List Element)
    (p : Element × Nat → Bool) : ((es.zipIdx.filter p).map fun x => f x.2).Nodup := by
  have hnumbers : ((es.zipIdx.filter p).map Prod.snd).Nodup := by
    refine List.Nodup.sublist (List.Sublist.map _ List.filter_sublist) ?_
    rw [List.zipIdx_map_snd]
    exact List.nodup_range'
  have hmap : ((es.zipIdx.filter p).map fun x => f x.2) =
      ((es.zipIdx.filter p).map Prod.snd).map f := by
    rw [List.map_map]
    rfl
  rw [hmap]
  exact List.Pairwise.map f (fun _ _ hne h => hne (hf h)) hnumbers

/-- What is made of one element or of none is made of those that pass. -/
theorem flatMap_ite {α β : Type} (p : α → Bool) (f : α → β) (l : List α) :
    (l.flatMap fun x => if p x then [f x] else []) = (l.filter p).map f := by
  induction l with
  | nil => rfl
  | cons x l ih =>
    rw [List.flatMap_cons, ih, List.filter_cons]
    split <;> rfl

/-- Predicates that count no positions keep what all of them hold of. -/
theorem foldl_keep_of_ne_position {predicates : List Predicate}
    (hp : ∀ p ∈ predicates, ∀ n, p ≠ .position n) (root : Element) (as : List Address) :
    predicates.foldl (fun as p => p.keep root as) as =
      as.filter fun a => predicates.all fun p => (root.at? a).any p.holds := by
  induction predicates generalizing as with
  | nil => exact (List.filter_eq_self.2 fun _ _ => rfl).symm
  | cons p ps ih =>
    rw [List.foldl_cons, Predicate.keep_of_ne_position (hp p List.mem_cons_self),
      ih fun q hq => hp q (List.mem_cons_of_mem p hq), List.filter_filter]
    refine List.filter_congr fun a _ => ?_
    rw [List.all_cons, Bool.and_comm]

section

variable {predicates : List Predicate} (c : Cursor)

/-- The first step leads to the children that are picked. -/
theorem apply_child (hp : ∀ p ∈ predicates, ∀ n, p ≠ .position n) (name : String) :
    Step.apply c.root ⟨false, .child (.name name) predicates⟩ [.element c.address] =
      (c.element.children.zipIdx.filter fun x => isPicked name predicates x.1).map fun x =>
        .element (c.address ++ [x.2]) := by
  have hcandidates : (Move.child (.name name) predicates).candidates c.root (.element c.address) =
      (c.element.children.zipIdx.filter fun x => isPicked name predicates x.1).map fun x =>
        .element (c.address ++ [x.2]) := by
    -- the test and the predicates are two filters of the numbered children, in the other order
    rw [Move.candidates, childAddresses, c.found]
    dsimp only
    rw [foldl_keep_of_ne_position hp, List.filter_map, List.filter_filter, List.map_map]
    refine congrArg (List.map _) (List.filter_congr fun x hx => ?_)
    rw [Function.comp_apply, at?_of_mem_zipIdx hx, Bool.and_comm]
    rfl
  have horigins : Step.origins c.root ⟨false, .child (.name name) predicates⟩ =
      fun item => [item] := rfl
  -- different numbers make different items, so no repetition is there to be dropped
  rw [Step.apply, horigins, List.flatMap_singleton, List.flatMap_singleton, hcandidates]
  refine eraseDups_of_nodup (nodup_map_zipIdx (f := fun i => Item.element (c.address ++ [i]))
    (fun i k h => ?_) _ _)
  simpa using h

/-- The second step leads to their attributes. -/
theorem apply_attribute (attr : String) (p : Element × Nat → Bool) :
    Step.apply c.root ⟨false, .attribute (.name attr)⟩
        ((c.element.children.zipIdx.filter p).map fun x => .element (c.address ++ [x.2])) =
      (c.element.children.zipIdx.filter fun x => (x.1.attr? attr).isSome && p x).map fun x =>
        .attribute (c.address ++ [x.2]) attr := by
  -- each child that has the attribute gives one item, and different children different ones
  have hcandidates : ((c.element.children.zipIdx.filter p).map fun x =>
      Item.element (c.address ++ [x.2])).flatMap
        ((Move.attribute (.name attr)).candidates c.root) =
      (c.element.children.zipIdx.filter fun x => (x.1.attr? attr).isSome && p x).map fun x =>
        .attribute (c.address ++ [x.2]) attr := by
    rw [List.flatMap_map, ← List.filter_filter, ← flatMap_ite]
    refine List.flatMap_congr fun x hx => ?_
    rw [Move.candidates, at?_of_mem_zipIdx (List.mem_of_mem_filter hx)]
    rfl
  have horigins : Step.origins c.root ⟨false, .attribute (.name attr)⟩ = fun item => [item] := rfl
  rw [Step.apply, horigins, List.flatMap_singleton', hcandidates]
  refine eraseDups_of_nodup (nodup_map_zipIdx (f := fun i => Item.attribute (c.address ++ [i]) attr)
    (fun i k h => ?_) _ _)
  simpa using h

/-! ## Values -/

/-- A look-up with a default, after a filter for what is there, is the look-up itself. -/
theorem map_filter_isSome {α β : Type} (p : α → Bool) (g : α → Option β) (d : β) (l : List α) :
    (l.filter fun x => (g x).isSome && p x).map (fun x => (g x).getD d) =
      (l.filter p).filterMap g := by
  induction l with
  | nil => rfl
  | cons x l ih =>
    rw [List.filter_cons, List.filter_cons]
    cases hg : g x with
    | none => by_cases hp : p x <;> simp [hp, hg, ih]
    | some y => by_cases hp : p x <;> simp [hp, hg, ih]

/-- The query gives the attribute of the children that are picked, in order, each its own. -/
theorem evaluate_childAttribute (hp : ∀ p ∈ predicates, ∀ n, p ≠ .position n)
    (name attr : String) :
    (childAttribute name predicates attr).evaluate c =
      (c.element.children.filter (isPicked name predicates)).filterMap (·.attr? attr) := by
  have hselect : (LocationPath.mk false [⟨false, .child (.name name) predicates⟩,
      ⟨false, .attribute (.name attr)⟩]).select c.root c.address =
        (c.element.children.zipIdx.filter fun x =>
          (x.1.attr? attr).isSome && isPicked name predicates x.1).map fun x =>
            .attribute (c.address ++ [x.2]) attr := by
    rw [← apply_attribute, ← apply_child c hp]
    rfl
  have hvalue : ∀ x ∈ c.element.children.zipIdx,
      (Item.attribute (c.address ++ [x.2]) attr).value c.root = (x.1.attr? attr).getD "" := by
    intro x hx
    rw [Item.value, at?_of_mem_zipIdx hx]
    rfl
  rw [childAttribute, evaluate, List.flatMap_singleton, hselect, List.map_map,
    ← map_filter_isSome (isPicked name predicates) (·.attr? attr) ""]
  -- the places of the children go, and with them the default, which no picked child needs
  calc ((c.element.children.zipIdx.filter fun x =>
          (x.1.attr? attr).isSome && isPicked name predicates x.1).map
            (Item.value c.root ∘ fun x => .attribute (c.address ++ [x.2]) attr))
      = (c.element.children.zipIdx.filter fun x =>
          (x.1.attr? attr).isSome && isPicked name predicates x.1).map
            ((fun e => (e.attr? attr).getD "") ∘ Prod.fst) :=
        List.map_congr_left fun x hx => hvalue x (List.mem_of_mem_filter hx)
    _ = ((c.element.children.zipIdx.map Prod.fst).filter fun e =>
          (e.attr? attr).isSome && isPicked name predicates e).map fun e =>
            (e.attr? attr).getD "" := by
        rw [List.filter_map, List.map_map]
        rfl
    _ = _ := by rw [List.zipIdx_map_fst]

end

end NetPlot.Query
