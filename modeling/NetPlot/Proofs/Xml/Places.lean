/-
  The places of a document.

  The addresses of an element are those that lead somewhere (`mem_addresses_iff`).  So a document
  has an element of some name anywhere if and only if one is found (`firstNamed?_eq_none_iff`).

  The elements at these addresses are the `descendants`, and the one that is found is the first of
  them with the name (`element_firstNamed?`).
-/
import NetPlot.Xml.Element

namespace NetPlot.Xml

namespace Element

theorem addresses_eq (e : Element) : e.addresses = [] :: addressesFrom 0 e.children := by
  cases e
  rw [addresses]

/-- An address below some children begins with the number of one of them. -/
theorem mem_addressesFrom_iff {n : Nat} {children : List Element} {a : Address} :
    a ∈ addressesFrom n children ↔
      ∃ i b c, children[i]? = some c ∧ b ∈ addresses c ∧ a = (n + i) :: b := by
  -- along the children, numbered from where the list starts
  induction children generalizing n with
  | nil => simp [addressesFrom]
  | cons c cs ih =>
    rw [addressesFrom, List.mem_append, List.mem_map, ih]
    constructor
    · rintro (⟨b, hb, rfl⟩ | ⟨i, b, d, hd, hb, rfl⟩)
      · exact ⟨0, b, c, rfl, hb, rfl⟩
      · exact ⟨i + 1, b, d, hd, hb, by rw [Nat.add_assoc, Nat.add_comm 1]⟩
    · rintro ⟨i, b, d, hd, hb, rfl⟩
      cases i with
      | zero =>
        obtain rfl : c = d := Option.some.inj hd
        exact Or.inl ⟨b, hb, rfl⟩
      | succ i => exact Or.inr ⟨i, b, d, hd, hb, by rw [Nat.add_assoc, Nat.add_comm 1]⟩

/-- The addresses of an element are those that lead somewhere. -/
theorem mem_addresses_iff {e : Element} {a : Address} :
    a ∈ e.addresses ↔ ∃ f, e.at? a = some f := by
  -- along the address: the first number picks a child, the rest leads on below it
  induction a generalizing e with
  | nil =>
    refine ⟨fun _ => ⟨e, rfl⟩, fun _ => ?_⟩
    rw [addresses_eq]
    exact List.mem_cons_self
  | cons i b ih =>
    rw [addresses_eq, List.mem_cons, mem_addressesFrom_iff, at?]
    constructor
    · rintro (h | ⟨j, d, c, hc, hd, h⟩)
      · cases h
      · rw [Nat.zero_add, List.cons.injEq] at h
        obtain ⟨rfl, rfl⟩ := h
        rw [hc]
        exact ih.mp hd
    · rintro ⟨f, hf⟩
      obtain ⟨c, hc, hf⟩ := Option.bind_eq_some_iff.mp hf
      exact Or.inr ⟨i, b, c, hc, ih.mpr ⟨f, hf⟩, by rw [Nat.zero_add]⟩

/-! ## Descendants -/

mutual

/-- The element and all elements below it, in document order. -/
def descendants : Element → List Element
  | ⟨name, attributes, text, children⟩ =>
    ⟨name, attributes, text, children⟩ :: descendantsOf children

/-- Elements and all elements below them, in document order. -/
def descendantsOf : List Element → List Element
  | [] => []
  | c :: cs => descendants c ++ descendantsOf cs

end

mutual

/-- The descendants are the elements at the addresses. -/
theorem filterMap_addresses : (e : Element) → e.addresses.filterMap e.at? = e.descendants
  | ⟨name, attributes, text, children⟩ => by
    have h := filterMap_addressesFrom ⟨name, attributes, text, children⟩ [] children rfl
    rw [addresses, descendants]
    exact congrArg (_ :: ·) h

/-- In some of the children, the addresses lead to what is below them; the children before are
counted, since they shift the numbers. -/
theorem filterMap_addressesFrom (root : Element) (before : List Element) :
    (children : List Element) → root.children = before ++ children →
      (addressesFrom before.length children).filterMap root.at? = descendantsOf children
  | [], _ => by
    rw [addressesFrom, descendantsOf, List.filterMap_nil]
  | c :: cs, h => by
    have hc : root.children[before.length]? = some c := by simp [h]
    have hrest := filterMap_addressesFrom root (before ++ [c]) cs (by simp [h])
    rw [List.length_append, List.length_singleton] at hrest
    have hfirst : ∀ a, root.at? (before.length :: a) = c.at? a := by
      intro a
      rw [at?, hc, Option.bind_some]
    rw [addressesFrom, descendantsOf, List.filterMap_append, List.filterMap_map, hrest,
      ← filterMap_addresses c]
    exact congrArg (List.filterMap · _ ++ _) (funext hfirst)

end

end Element

namespace Cursor

/-- An address with an element behind it is one of a cursor at that element. -/
theorem at?_eq_some {root e : Element} {a : Address} (h : root.at? a = some e) :
    at? root a = some ⟨root, a, e, h⟩ := by
  rw [at?]
  split
  next f hf =>
    obtain rfl : e = f := Option.some.inj (h.symm.trans hf)
    rfl
  next hn => exact absurd (h.symm.trans hn) (by simp)

/-- No element of a name is found if and only if there is none at any place. -/
theorem firstNamed?_eq_none_iff {root : Element} {name : String} :
    firstNamed? root name = none ↔ ∀ a e, root.at? a = some e → e.name ≠ name := by
  rw [firstNamed?, List.find?_eq_none]
  constructor
  · intro h a e he
    have hc : (⟨root, a, e, he⟩ : Cursor) ∈ root.addresses.filterMap (at? root) :=
      List.mem_filterMap.mpr ⟨a, Element.mem_addresses_iff.mpr ⟨e, he⟩, at?_eq_some he⟩
    simpa using h _ hc
  · intro h c hc
    obtain ⟨a, -, ha⟩ := List.mem_filterMap.mp hc
    -- the cursors searched all belong to this root
    have hr : c.root = root := by
      rw [at?] at ha
      split at ha
      · rw [← Option.some.inj ha]
      · cases ha
    simpa using h c.address c.element (hr ▸ c.found)

theorem map_element_at? (root : Element) (a : Address) :
    (at? root a).map (·.element) = root.at? a := by
  cases h : root.at? a with
  | none =>
    rw [at?]
    split
    next f hf => exact absurd (h.symm.trans hf) (by simp)
    next => rfl
  | some e => rw [at?_eq_some h, Option.map_some]

/-- The element that is found is the first descendant with the name. -/
theorem element_firstNamed? (root : Element) (name : String) :
    (firstNamed? root name).map (·.element) = root.descendants.find? (·.name == name) := by
  have hall : (root.addresses.filterMap (at? root)).map (·.element) = root.descendants := by
    rw [List.map_filterMap, ← Element.filterMap_addresses]
    exact congrArg (List.filterMap · _) (funext (map_element_at? root))
  rw [firstNamed?, ← hall, List.find?_map]
  rfl

theorem elements_childrenNamed (c : Cursor) (name : String) :
    (c.childrenNamed name).map (·.element) = c.element.children.filter (·.name == name) := by
  rw [childrenNamed, ← elements_children, List.filter_map]
  rfl

end Cursor

end NetPlot.Xml
