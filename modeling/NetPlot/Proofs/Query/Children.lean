/-
  The children that a step reaches from one place.

  1. **Survivors** — the children of a place are known by their numbers, and the document's only
     child is the root.  Each predicate narrows down which numbers are in: a position lets in the
     one with so many numbers in before it, the other predicates look at the child alone.
     `survives` reads the predicates from left to right.

  2. **Bridge** — the candidates that the program lists are the survivors, by increasing number
     (`candidates_child`), so membership is survival (`mem_candidates_child`).
-/
import NetPlot.Query.Select

namespace NetPlot.Query

open NetPlot.Xml

/-! ## Survivors

A predicate of a position counts the children that are still in, so whether a child survives depends
on the others.  The predicate on numbers that is carried along says which those are. -/

/-- The address of a child by its number. -/
def Item.below : Item → Nat → Address
  | .element a, i => a ++ [i]
  | _, _ => []

/-- The child with a number, if there is one. -/
def Item.child? (root : Element) : Item → Nat → Option Element
  | .document, 0 => some root
  | .element a, i => root.at? (a ++ [i])
  | _, _ => none

/-- How many children an item has. -/
def Item.childCount (root : Element) : Item → Nat
  | .document => 1
  | .element a => ((root.at? a).map (·.children.length)).getD 0
  | _ => 0

theorem Item.at?_below {root e : Element} {item : Item} {i : Nat}
    (h : item.child? root i = some e) : root.at? (item.below i) = some e := by
  cases item with
  | document =>
    cases i with
    | zero => exact h
    | succ i => cases h
  | element a => exact h
  | «attribute» a n => cases h
  | text a => cases h

/-- The numbers of the children are those below their count, so a range lists them all. -/
theorem Item.lt_childCount {root : Element} {item : Item} {i : Nat}
    (h : (item.child? root i).isSome) : i < item.childCount root := by
  cases item with
  | document =>
    cases i with
    | zero => exact Nat.zero_lt_one
    | succ i => cases h
  | element a =>
    rw [Item.child?, Element.at?_append] at h
    rw [Item.childCount]
    cases ha : root.at? a with
    | none => simp [ha] at h
    | some e => simpa [ha, Element.at?] using h
  | «attribute» a n => cases h
  | text a => cases h

/-- Which of the children that are still in does a predicate let pass?  A position counts those
    in before. -/
def Predicate.admits (root : Element) (origin : Item) (p : Predicate) (within : Nat → Bool)
    (i : Nat) : Bool :=
  within i &&
    match p with
    | position n => (List.range i).countP within == n - 1
    | p => (origin.child? root i).any p.holds

/-- Does the child with a number pass the test, and then the predicates from left to right? -/
def survives (root : Element) (test : NameTest) (predicates : List Predicate) (origin : Item) :
    Nat → Bool :=
  predicates.foldl (fun within p => p.admits root origin within)
    fun i => (origin.child? root i).any test.accepts

/-! ## The candidates listed

The program numbers the children, filters the list and counts positions in what is left; the
survivors are decided one number at a time.  Both are a range of numbers, filtered, and the lemmas
here carry this form through one predicate after another. -/

/-- The item that so many others in `within` precede. -/
theorem toList_getElem?_filter_range (within : Nat → Bool) (m k : Nat) :
    ((List.range m).filter within)[k]?.toList
      = (List.range m).filter fun i => within i && (List.range i).countP within == k := by
  induction m with
  | zero => rfl
  | succ m ih =>
    have hc : ((List.range m).filter within).length = (List.range m).countP within :=
      List.countP_eq_length_filter.symm
    -- the last number is the one wanted just when `k` others are in before it
    rw [List.range_succ, List.filter_append, List.filter_append, ← ih, List.getElem?_append, hc]
    by_cases hk : k < (List.range m).countP within
    · have hne : ((List.range m).countP within == k) = false := beq_false_of_ne (by omega)
      simp [hk, hne]
    · have hnone : ((List.range m).filter within)[k]? = none :=
        List.getElem?_eq_none (by rw [hc]; omega)
      rw [if_neg hk, hnone]
      by_cases hm : within m
      · by_cases he : (List.range m).countP within = k
        · simp [hm, he]
        · have : k - (List.range m).countP within ≠ 0 := by omega
          simp [hm, he, this]
      · simp [hm]

section

variable {root : Element} {origin : Item}

theorem Predicate.within_of_admits {p : Predicate} {within : Nat → Bool} {i : Nat}
    (h : p.admits root origin within i) : within i :=
  (Bool.and_eq_true_iff.mp h).1

/-- A condition on the child does not look at which others are in, as a position does. -/
theorem Predicate.admits_of_ne_position {p : Predicate} (hp : ∀ n, p ≠ position n)
    (within : Nat → Bool) (i : Nat) :
    p.admits root origin within i = (within i && (origin.child? root i).any p.holds) := by
  cases p with
  | position n => exact absurd rfl (hp n)
  | _ => rfl

/-- In the program such a condition is a filter of the addresses. -/
theorem Predicate.keep_of_ne_position {p : Predicate} (hp : ∀ n, p ≠ position n)
    (as : List Address) : p.keep root as = as.filter fun a => (root.at? a).any p.holds := by
  cases p with
  | position n => exact absurd rfl (hp n)
  | _ => rfl

/-- A predicate keeps of the children listed by number those that it admits. -/
theorem Predicate.keep_listed (p : Predicate) {within : Nat → Bool}
    (hw : ∀ i, within i → (origin.child? root i).isSome) (m : Nat) :
    p.keep root (((List.range m).filter within).map origin.below)
      = ((List.range m).filter (p.admits root origin within)).map origin.below := by
  by_cases hp : ∃ n, p = position n
  · obtain ⟨n, rfl⟩ := hp
    rw [keep, List.getElem?_map, Option.toList_map, toList_getElem?_filter_range]
    rfl
  · replace hp : ∀ n, p ≠ position n := not_exists.mp hp
    rw [keep_of_ne_position hp, List.filter_map, List.filter_filter]
    congr 1
    refine List.filter_congr fun i _ => ?_
    rw [admits_of_ne_position hp, Function.comp_apply, Bool.and_comm]
    by_cases hi : within i
    · obtain ⟨e, he⟩ := Option.isSome_iff_exists.mp (hw i hi)
      rw [he, Item.at?_below he]
    · simp [hi]

/-- The predicates keep, from left to right, those that survive them all. -/
theorem foldl_keep_listed (predicates : List Predicate) {within : Nat → Bool}
    (hw : ∀ i, within i → (origin.child? root i).isSome) (m : Nat) :
    predicates.foldl (fun as p => p.keep root as) (((List.range m).filter within).map origin.below)
      = ((List.range m).filter
          (predicates.foldl (fun within p => p.admits root origin within) within)).map
          origin.below := by
  induction predicates generalizing within with
  | nil => rfl
  | cons p ps ih =>
    rw [List.foldl_cons, List.foldl_cons, p.keep_listed hw]
    exact ih fun i hi => hw i (Predicate.within_of_admits hi)

theorem within_of_foldl_admits {predicates : List Predicate} {within : Nat → Bool} {i : Nat}
    (h : predicates.foldl (fun within p => p.admits root origin within) within i) : within i := by
  induction predicates generalizing within with
  | nil => exact h
  | cons p ps ih => exact Predicate.within_of_admits (ih h)

/-- Every survivor is a child. -/
theorem child?_isSome_of_survives {test : NameTest} {predicates : List Predicate} {i : Nat}
    (h : survives root test predicates origin i) : (origin.child? root i).isSome :=
  Option.isSome_of_any (within_of_foldl_admits h)

/-- The children that pass the name test, as a filtered range of numbers: where the predicates
begin. -/
theorem childAddresses_eq (test : NameTest) (a : Address) :
    childAddresses root test a
      = ((List.range ((Item.element a).childCount root)).filter fun i =>
          ((Item.element a).child? root i).any test.accepts).map (Item.element a).below := by
  rw [childAddresses, Item.childCount]
  cases ha : root.at? a with
  | none => rfl
  | some e =>
    -- filtering the numbered children is filtering the numbers by what stands there
    have hsnd : (e.children.zipIdx.filter fun x => test.accepts x.1).map Prod.snd
        = (List.range e.children.length).filter fun i =>
            ((Item.element a).child? root i).any test.accepts := by
      rw [List.range_eq_range', ← List.zipIdx_map_snd, List.filter_map]
      congr 1
      refine List.filter_congr fun x hx => ?_
      rw [List.mem_zipIdx_iff_getElem?] at hx
      rw [Function.comp_apply, Item.child?, Element.at?_concat ha, hx]
      rfl
    calc _ = ((e.children.zipIdx.filter fun x => test.accepts x.1).map Prod.snd).map
            (Item.element a).below := (List.map_map (f := Prod.snd)).symm
      _ = _ := congrArg (List.map (Item.element a).below) hsnd

/-- The candidates of a child step from one place: its survivors, by increasing number. -/
theorem candidates_child (test : NameTest) (predicates : List Predicate) (origin : Item) :
    (Move.child test predicates).candidates root origin
      = ((List.range (origin.childCount root)).filter (survives root test predicates origin)).map
          fun i => .element (origin.below i) := by
  have hw : ∀ i, (origin.child? root i).any test.accepts → (origin.child? root i).isSome :=
    fun _ => Option.isSome_of_any
  cases origin with
  | document =>
    -- the document has the root for its only child, with no address to look up
    have hone : (if test.accepts root then [[]] else [] : List Address)
        = ((List.range 1).filter fun i => (Item.document.child? root i).any test.accepts).map
            Item.document.below := by
      cases ht : test.accepts root <;> simp [List.range_one, Item.child?, Item.below, ht]
    rw [Move.candidates, hone, foldl_keep_listed predicates hw, List.map_map]
    rfl
  | element a =>
    rw [Move.candidates, childAddresses_eq, foldl_keep_listed predicates hw, List.map_map]
    rfl
  | «attribute» a n => rfl
  | text a => rfl

/-- The order of the candidates aside, a child is a candidate just when it survives. -/
theorem mem_candidates_child {test : NameTest} {predicates : List Predicate} {item : Item} :
    item ∈ (Move.child test predicates).candidates root origin
      ↔ ∃ i, survives root test predicates origin i ∧ item = .element (origin.below i) := by
  rw [candidates_child, List.mem_map]
  constructor
  · rintro ⟨i, hi, rfl⟩
    exact ⟨i, (List.mem_filter.mp hi).2, rfl⟩
  · rintro ⟨i, hi, rfl⟩
    have hlt : i < origin.childCount root := Item.lt_childCount (child?_isSome_of_survives hi)
    exact ⟨i, List.mem_filter.mpr ⟨List.mem_range.mpr hlt, hi⟩, rfl⟩

end

end NetPlot.Query
