/-
  Places of what a path selects, and their order.

  1. **Place** — an item stands where its element does, the document above the root element.
     `InDocumentOrder` lists no item before one that stands earlier; `InOrder k` does so for what
     stands `k` levels above the items, and for the items below the same.

  2. **Moves** — what stands at the same places keeps the order (`inOrder_of_place_eq`), children
     are in the order with one level more above (`inOrder_children`), parents in that with one
     level less (`inOrder_parents`).

  3. **Going down and up** — adding everything below keeps document order
     (`inDocumentOrder_widened`).  So does going up once more than there are levels above, if
     everything above is there already (`Rooted`, `inDocumentOrder_parents`).
-/
import NetPlot.Proofs.Query.Chain
import NetPlot.Proofs.Xml.Order

namespace NetPlot.Query

open NetPlot.Xml
open NetPlot.FirstSeen (collect mem_collect)

/-! ## Places of items

Attributes and texts are compared by the element that they belong to.  So all items have a place in
one order, and the ones that belong to one element stand together in it. -/

/-- Where an item stands: the document above the root element, the rest where its element is. -/
def Item.place : Item → List Nat
  | .document => []
  | .element a | .attribute a _ | .text a => 0 :: a

/-- Does the item belong to an element? -/
def Item.owned : Item → Bool
  | .attribute _ _ | .text _ => true
  | .document | .element _ => false

/-- No item is listed before one that stands earlier in the document; the addresses of a document
    increase as its elements stand (`Element.pairwise_addresses`). -/
def InDocumentOrder (items : List Item) : Prop :=
  items.Pairwise fun x y => x.place ≤ y.place

/-- Listed in the order of what stands `k` levels above, and in document order below the same. -/
def InOrder (k : Nat) (items : List Item) : Prop :=
  items.Pairwise fun x y => Follows k x.place y.place

theorem inOrder_zero {items : List Item} : InOrder 0 items ↔ InDocumentOrder items := by
  simp only [InOrder, InDocumentOrder, follows_zero]

section

variable {root : Element} {x y u v : Item}

/-- The document and the elements are known by their places. -/
theorem eq_of_place_eq (hx : x.owned = false) (hy : y.owned = false) (h : x.place = y.place) :
    x = y := by
  cases x <;> cases y <;> simp_all [Item.place, Item.owned]

/-- A child stands one number further down than what it is a child of, the root below the document.
-/
theorem place_of_survives {test : NameTest} {predicates : List Predicate} {i : Nat}
    (h : survives root test predicates x i) :
    (Item.element (x.below i)).place = x.place ++ [i] ∧ x.owned = false := by
  have hc : (x.child? root i).isSome := child?_isSome_of_survives h
  cases x with
  | document =>
    cases i with
    | zero => exact ⟨rfl, rfl⟩
    | succ i => cases hc
  | element a => exact ⟨rfl, rfl⟩
  | «attribute» a n => cases hc
  | text a => cases hc

/-- Up from an element is to what stands one level above. -/
theorem links_parent_iff (hx : x.owned = false) :
    Move.parent.Links root x u ↔ u.owned = false ∧ ∃ i, x.place = u.place ++ [i] := by
  constructor
  · intro h
    -- the items that are owned by an element are not among those meant here
    cases h with
    | aboveRoot => exact ⟨rfl, 0, rfl⟩
    | above a i => exact ⟨rfl, i, rfl⟩
    | ownerOfAttribute => cases hx
    | ownerOfText => cases hx
  · rintro ⟨hu, i, h⟩
    cases x with
    | document => exact absurd h (by simp [Item.place])
    | element a =>
      cases u with
      | document =>
        obtain ⟨rfl, rfl⟩ : 0 = i ∧ a = [] := by simpa [Item.place] using h
        exact .aboveRoot
      | element b =>
        obtain rfl : a = b ++ [i] := by simpa [Item.place] using h
        exact .above b i
      | «attribute» b n => cases hu
      | text b => cases hu
    | «attribute» a n => cases hx
    | text a => cases hx

/-- Something of the document is the document, or stands where one of its elements does. -/
theorem place_of_placed (h : x.Placed root) :
    x.place = [] ∨ ∃ a e, x.place = 0 :: a ∧ root.at? a = some e := by
  cases x with
  | document => exact .inl rfl
  | element a => exact .inr ⟨a, h.choose, rfl, h.choose_spec⟩
  | «attribute» a n => exact .inr ⟨a, h.choose, rfl, h.choose_spec⟩
  | text a => exact .inr ⟨a, h.choose, rfl, h.choose_spec⟩

/-- At every place above something of the document stands an element, or the document. -/
theorem exists_at_place {q : List Nat} (hv : v.Placed root) (hq : q <+: v.place) :
    ∃ w : Item, w.owned = false ∧ w.Placed root ∧ w.place = q := by
  cases q with
  | nil => exact ⟨.document, rfl, trivial, rfl⟩
  | cons j b =>
    rcases place_of_placed hv with h | ⟨a, e, h, he⟩
    · exact absurd (h ▸ hq) (by simp)
    · rw [h, List.cons_prefix_cons] at hq
      obtain ⟨rfl, t, rfl⟩ := hq
      rw [Element.at?_append] at he
      obtain ⟨f, hf, -⟩ := Option.bind_eq_some_iff.mp he
      exact ⟨.element b, rfl, ⟨f, hf⟩, rfl⟩

/-- An element is widened to everything that stands below it. -/
theorem mem_widen_iff (hx : x.Placed root) (ho : x.owned = false) :
    v ∈ widen root x ↔ v.owned = false ∧ v.Placed root ∧ x.place <+: v.place := by
  rw [mem_widen hx]
  constructor
  · rintro (rfl | h)
    · exact ⟨ho, hx, List.prefix_refl _⟩
    · refine ⟨?_, placed_of_above h, ?_⟩
      · cases h <;> rfl
      · cases h with
        | document => exact List.nil_prefix
        | @element a b => exact List.prefix_append (0 :: a) b
  · rintro ⟨hv, hp, t, ht⟩
    -- nothing further down is the item itself, else an element below it
    by_cases ht0 : t = []
    · exact .inl (eq_of_place_eq hv ho (by rw [← ht, ht0, List.append_nil]))
    · refine .inr ?_
      cases v with
      | document => exact absurd ht (by simp [Item.place, ht0])
      | element c =>
        obtain ⟨e, he⟩ := hp
        cases x with
        | document => exact .document he
        | element a =>
          obtain rfl : a ++ t = c := by simpa [Item.place] using ht
          exact .element ht0 he
        | «attribute» a n => cases ho
        | text a => cases ho
      | «attribute» c n => cases hv
      | text c => cases hv

/-- A place is widened in document order. -/
theorem inDocumentOrder_widen (root : Element) (x : Item) : InDocumentOrder (widen root x) := by
  have below : ∀ (e : Element) (a : Address),
      InDocumentOrder (e.addresses.map fun b => .element (a ++ b)) := fun e a =>
    List.pairwise_map.mpr <| e.pairwise_addresses.imp fun h => append_le_append (0 :: a) h.le
  -- addresses are in order within an element, and a common front keeps them so
  cases x with
  | document =>
    refine List.pairwise_cons.mpr ⟨fun y _ => le_of_isPrefix List.nil_prefix, ?_⟩
    exact below root []
  | element a =>
    rw [widen]
    cases root.at? a with
    | none => exact List.Pairwise.nil
    | some e => simpa using below e a
  | «attribute» a n => exact List.pairwise_singleton _ _
  | text a => exact List.pairwise_singleton _ _

end

/-! ## Order through one move

What is collected first stays first, so order is lost where a later item leads to something that
stands earlier.  Each lemma gives a condition that rules this out, or an order for which it does not
matter. -/

section

variable {root : Element} {k : Nat} {items : List Item}

/-- What is collected from different items is in order, if it follows as the items do. -/
theorem inOrder_collect {m : Nat} {f : Item → List Item} (hn : items.Nodup) (h : InOrder k items)
    (each : ∀ x ∈ items, InOrder m (f x))
    (across : ∀ x ∈ items, ∀ y ∈ items, x ≠ y → Follows k x.place y.place →
      ∀ u ∈ f x, ∀ v ∈ f y, Follows m u.place v.place) :
    InOrder m (collect f items) :=
  FirstSeen.pairwise_collect_of_pairwise (hn.and h) each fun x hx y hy hxy =>
    across x hx y hy hxy.1 hxy.2

/-- What stands where the items do is listed in their order. -/
theorem inOrder_of_place_eq {f : Item → List Item} (hn : items.Nodup) (h : InOrder k items)
    (hf : ∀ x ∈ items, ∀ u ∈ f x, u.place = x.place) : InOrder k (collect f items) := by
  refine inOrder_collect hn h (fun x hx => ?_) fun x hx y hy _ hxy u hu v hv => ?_
  · refine List.pairwise_of_forall_mem_list fun u hu v hv => ?_
    rw [hf x hx u hu, hf x hx v hv]
    exact Follows.refl k _
  · rwa [hf x hx u hu, hf y hy v hv]

/-- Children are listed by what stands one level more above. -/
theorem inOrder_children {test : NameTest} {predicates : List Predicate} (hn : items.Nodup)
    (ho : ∀ x ∈ items, x.owned = false) (hk : ∀ x ∈ items, k ≤ x.place.length)
    (h : InOrder k items) :
    InOrder (k + 1)
      (collect ((Move.child test predicates).candidates root) items) := by
  refine inOrder_collect hn h (fun x _ => ?_) fun x hx y hy hne hxy u hu v hv => ?_
  · rw [candidates_child]
    refine List.pairwise_map.mpr <| (List.pairwise_lt_range.filter _).imp_of_mem ?_
    intro i j hi hj hij
    rw [(place_of_survives (List.mem_filter.mp hi).2).1,
      (place_of_survives (List.mem_filter.mp hj).2).1]
    exact follows_children _ hij.le
  · obtain ⟨i, hi, rfl⟩ := mem_candidates_child.mp hu
    obtain ⟨j, hj, rfl⟩ := mem_candidates_child.mp hv
    rw [(place_of_survives hi).1, (place_of_survives hj).1]
    exact hxy.concat (hk x hx) (hk y hy)
      (fun he => hne (eq_of_place_eq (ho x hx) (ho y hy) he)) i j

/-- Parents are listed by what stands one level less above. -/
theorem inOrder_parents (hn : items.Nodup) (ho : ∀ x ∈ items, x.owned = false)
    (hk : ∀ x ∈ items, k + 1 ≤ x.place.length) (h : InOrder (k + 1) items) :
    InOrder k (collect (Move.parent.candidates root) items) := by
  have up : ∀ x ∈ items, ∀ u ∈ Move.parent.candidates root x,
      k ≤ u.place.length ∧ ∃ i, x.place = u.place ++ [i] := by
    intro x hx u hu
    obtain ⟨-, i, hi⟩ := (links_parent_iff (ho x hx)).mp (mem_candidates.mp hu)
    have hlen := hk x hx
    rw [hi, List.length_append, List.length_singleton] at hlen
    exact ⟨by omega, i, hi⟩
  -- one item has one parent at most; the parents of two are compared one level up
  refine inOrder_collect hn h (fun x hx => ?_) fun x hx y hy _ hxy u hu v hv => ?_
  · refine List.pairwise_of_forall_mem_list fun u hu v hv => ?_
    obtain ⟨-, i, hi⟩ := up x hx u hu
    obtain ⟨-, j, hj⟩ := up x hx v hv
    rw [(List.append_inj' (hi.symm.trans hj) rfl).1]
    exact Follows.refl k _
  · obtain ⟨hu, i, hi⟩ := up x hx u hu
    obtain ⟨hv, j, hj⟩ := up y hy v hv
    rw [hi, hj] at hxy
    exact hxy.of_concat hu hv

/-- Items in document order are widened in document order: what comes from a later item and stands
    earlier came already, from the earlier item that it is below. -/
theorem inDocumentOrder_widened (hp : ∀ x ∈ items, x.Placed root)
    (ho : ∀ x ∈ items, x.owned = false) (h : InDocumentOrder items) :
    InDocumentOrder (collect (widen root) items) := by
  refine FirstSeen.pairwise_collect (fun x _ => inDocumentOrder_widen root x) ?_
  rintro before x after rfl v hv hnew y hy u hu
  have hmem : ∀ z ∈ before, z ∈ before ++ x :: after := fun z hz => List.mem_append_left _ hz
  have hx : x ∈ before ++ x :: after := by simp
  obtain ⟨hvo, hvp, hxv⟩ := (mem_widen_iff (hp x hx) (ho x hx)).mp hv
  have hywiden := fun w => mem_widen_iff (v := w) (hp y (hmem y hy)) (ho y (hmem y hy))
  obtain ⟨-, -, hyu⟩ := (hywiden u).mp hu
  have hyx : y.place ≤ x.place := (List.pairwise_append.mp h).2.2 y hy x List.mem_cons_self
  refine le_of_not_gt fun hlt => hnew y hy ((hywiden v).mpr ⟨hvo, hvp, ?_⟩)
  exact prefix_of_between (hyx.trans (le_of_isPrefix hxv)) hlt.le hyu

/-- Closed under going up, but not above the given depth. -/
def Rooted (depth : Nat) (items : List Item) : Prop :=
  (∀ x ∈ items, depth ≤ x.place.length) ∧
    ∀ x ∈ items, ∀ q, q <+: x.place → depth ≤ q.length → ∃ y ∈ items, y.place = q

/-- The parents of items in document order that are closed under going up are in document order:
    a parent before one that was listed would be that of an item before. -/
theorem inDocumentOrder_parents {depth : Nat} (hp : ∀ x ∈ items, x.Placed root)
    (ho : ∀ x ∈ items, x.owned = false) (hr : Rooted depth items) (h : InDocumentOrder items) :
    InDocumentOrder (collect (Move.parent.candidates root) items) := by
  refine FirstSeen.pairwise_collect (fun x hx => ?_) ?_
  · refine List.pairwise_of_forall_mem_list fun u hu v hv => ?_
    obtain ⟨-, i, hi⟩ := (links_parent_iff (ho x hx)).mp (mem_candidates.mp hu)
    obtain ⟨-, j, hj⟩ := (links_parent_iff (ho x hx)).mp (mem_candidates.mp hv)
    rw [(List.append_inj' (hi.symm.trans hj) rfl).1]
  · rintro before x after rfl v hv hnew y hy u hu
    have hymem : y ∈ before ++ x :: after := List.mem_append_left _ hy
    have hxmem : x ∈ before ++ x :: after := by simp
    obtain ⟨hvo, i, hi⟩ := (links_parent_iff (ho x hxmem)).mp (mem_candidates.mp hv)
    obtain ⟨-, j, hj⟩ := (links_parent_iff (ho y hymem)).mp (mem_candidates.mp hu)
    have hyx : y.place ≤ x.place := (List.pairwise_append.mp h).2.2 y hy x List.mem_cons_self
    have huy : u.place < y.place := by
      rw [hj]
      exact lt_of_le_of_ne (le_of_isPrefix (List.prefix_append _ _)) (by simp)
    refine le_of_not_gt fun hlt => ?_
    -- between `v` and `x` below it stands `u`, so `v` has a child above `u`, or at `u`
    have hvu : v.place <+: u.place :=
      prefix_of_between hlt.le (huy.le.trans hyx) (hi ▸ List.prefix_append _ _)
    obtain ⟨n, hzu⟩ := exists_concat_of_isPrefix hvu hlt.ne
    have hzy : v.place ++ [n] <+: y.place := hzu.trans (hj ▸ List.prefix_append _ _)
    have hdepth : depth ≤ (v.place ++ [n]).length := by
      have := hr.1 x hxmem
      rw [hi] at this
      simpa using this
    obtain ⟨z, hz, hzp⟩ := hr.2 y hymem _ hzy hdepth
    have hzlt : z.place < y.place := hzp ▸ (le_of_isPrefix hzu).trans_lt huy
    have hzbefore : z ∈ before := by
      rcases List.mem_append.mp hz with hz | hz
      · exact hz
      · have hle : y.place ≤ z.place := (List.pairwise_append.mp h).2.2 y hy z hz
        exact absurd hzlt (not_lt_of_ge hle)
    exact hnew z hzbefore (mem_candidates.mpr
      ((links_parent_iff (ho z hz)).mpr ⟨hvo, n, hzp⟩))

/-- Items on one level have nothing above them but themselves from there on. -/
theorem rooted_of_length_eq {depth : Nat} (h : ∀ x ∈ items, x.place.length = depth) :
    Rooted depth items :=
  ⟨fun x hx => (h x hx).ge, fun x hx _ hq hd =>
    ⟨x, hx, (hq.eq_of_length_le ((h x hx).trans_le hd)).symm⟩⟩

/-- Whatever stands above something below an item is below the item as well, or above it and there
already. -/
theorem rooted_widened {depth : Nat} (hp : ∀ x ∈ items, x.Placed root)
    (ho : ∀ x ∈ items, x.owned = false) (hr : Rooted depth items) :
    Rooted depth (collect (widen root) items) := by
  have hmem : ∀ v, v ∈ collect (widen root) items ↔
      ∃ x ∈ items, v.owned = false ∧ v.Placed root ∧ x.place <+: v.place := by
    intro v
    rw [mem_collect]
    exact exists_congr fun x => and_congr_right fun hx => mem_widen_iff (hp x hx) (ho x hx)
  constructor
  · intro v hv
    obtain ⟨x, hx, -, -, hxv⟩ := (hmem v).mp hv
    exact (hr.1 x hx).trans hxv.length_le
  · intro v hv q hq hd
    obtain ⟨x, hx, -, hvp, hxv⟩ := (hmem v).mp hv
    obtain ⟨w, hwo, hwp, rfl⟩ := exists_at_place hvp hq
    -- `x` and `w` are both above `v`, so one of them is above the other
    rcases List.prefix_or_prefix_of_prefix hxv hq with hxw | hwx
    · exact ⟨w, (hmem w).mpr ⟨x, hx, hwo, hwp, hxw⟩, rfl⟩
    · obtain ⟨y, hy, hyw⟩ := hr.2 x hx _ hwx hd
      exact ⟨w, (hmem w).mpr ⟨y, hy, hwo, hwp, hyw ▸ List.prefix_refl _⟩, rfl⟩

/-- Going up once more keeps everything above, one level less deep: what is above a parent has a
child on the way to the item, and that child was listed. -/
theorem rooted_parents {depth : Nat} (hp : ∀ x ∈ items, x.Placed root)
    (ho : ∀ x ∈ items, x.owned = false) (hr : Rooted depth items) :
    Rooted (depth - 1) (collect (Move.parent.candidates root) items) := by
  have hmem : ∀ v, v ∈ collect (Move.parent.candidates root) items ↔
      ∃ x ∈ items, v.owned = false ∧ ∃ i, x.place = v.place ++ [i] := by
    intro v
    rw [mem_collect]
    exact exists_congr fun x => and_congr_right fun hx =>
      mem_candidates.trans (links_parent_iff (ho x hx))
  constructor
  · intro v hv
    obtain ⟨x, hx, -, i, hi⟩ := (hmem v).mp hv
    have hd := hr.1 x hx
    rw [hi, List.length_append, List.length_singleton] at hd
    exact Nat.sub_le_of_le_add hd
  · intro v hv q hq hd
    obtain ⟨x, hx, -, i, hi⟩ := (hmem v).mp hv
    obtain ⟨w, hwo, -, rfl⟩ :=
      exists_at_place (hp x hx) (hi ▸ hq.trans (List.prefix_append v.place [i]))
    -- the item below `w` on the way to `x`
    have hne : w.place ≠ x.place := fun he => by
      have hlen := hq.length_le
      rw [he, hi, List.length_append, List.length_singleton] at hlen
      omega
    obtain ⟨n, hn⟩ := exists_concat_of_isPrefix
      (hi ▸ hq.trans (List.prefix_append v.place [i])) hne
    have hlen : depth ≤ (w.place ++ [n]).length := by
      rw [List.length_append, List.length_singleton]
      omega
    obtain ⟨z, hz, hzn⟩ := hr.2 x hx _ hn hlen
    exact ⟨w, (hmem w).mpr ⟨z, hz, hwo, n, hzn⟩, rfl⟩

end

end NetPlot.Query
