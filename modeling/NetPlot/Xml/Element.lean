/-
  Elements of an XML document, and places in it.

  1. **Data** — an `Element` has a name, attributes in the order written, a text and element
     children.  Its text is the character data at its very beginning, up to the first child,
     comment or processing instruction; later character data belongs to nobody.

  2. **Look-up** — attributes are looked up by plain name: one written with a qualifier is not
     found (`attr?`).  Elements are told apart by the name proper alone.

  3. **Places** — an `Address` is a path of child numbers from the root, `at?` follows it, and
     `addresses` lists all places in document order.  A `Cursor` is a root, an address and the
     element found there, so a query can climb up again.
-/

namespace NetPlot.Xml

/-- An attribute of an element, declarations of qualifiers left out. -/
structure Attribute where
  /-- The name is written with a qualifier. -/
  qualified : Bool
  /-- The name proper. -/
  name : String
  value : String
  deriving DecidableEq, Repr

/-- An element: its name proper, attributes, leading text and element children. -/
structure Element where
  name : String
  attributes : List Attribute
  text : String
  children : List Element
  deriving Repr

namespace Element

mutual

/-- Are two elements the same, with all below them? -/
def decEq : (e e' : Element) → Decidable (e = e')
  | ⟨name, attributes, text, children⟩, ⟨name', attributes', text', children'⟩ =>
    have := decEqs children children'
    decidable_of_decidable_of_iff (p := name = name' ∧ attributes = attributes' ∧ text = text' ∧
      children = children') (by rw [Element.mk.injEq])

/-- Are elements the same, one by one? -/
def decEqs : (es es' : List Element) → Decidable (es = es')
  | [], [] => isTrue rfl
  | [], _ :: _ => isFalse nofun
  | _ :: _, [] => isFalse nofun
  | e :: es, e' :: es' =>
    have := decEq e e'
    have := decEqs es es'
    decidable_of_decidable_of_iff (p := e = e' ∧ es = es') (by rw [List.cons.injEq])

end

instance : DecidableEq Element := decEq

/-- The value of the attribute that is written `name`, without a qualifier. -/
def attr? (e : Element) (name : String) : Option String :=
  (e.attributes.find? fun a => !a.qualified && a.name == name).map (·.value)

/-- The value of an attribute, empty where the element has none of that name. -/
def attr (e : Element) (name : String) : String := (e.attr? name).getD ""

end Element

/-! ## Places -/

/-- A path from the root: the number of the child taken at each step. -/
abbrev Address := List Nat

namespace Element

/-- The element at an address below `e`. -/
def at? : Element → Address → Option Element
  | e, [] => some e
  | e, i :: is => e.children[i]?.bind (·.at? is)

@[simp] theorem at?_nil (e : Element) : e.at? [] = some e := rfl

/-- Addresses compose. -/
theorem at?_append (e : Element) (a b : Address) :
    e.at? (a ++ b) = (e.at? a).bind (·.at? b) := by
  induction a generalizing e with
  | nil => rfl
  | cons i is ih =>
    simp only [List.cons_append, at?]
    cases e.children[i]? with
    | none => rfl
    | some c => exact ih c

/-- One step further down. -/
theorem at?_concat {e f : Element} {a : Address} (h : e.at? a = some f) (i : Nat) :
    e.at? (a ++ [i]) = f.children[i]? := by
  rw [at?_append, h]
  simp [at?]

mutual

/-- The addresses below `e` in document order, its own first. -/
def addresses : Element → List Address
  | ⟨_, _, _, children⟩ => [] :: addressesFrom 0 children

/-- The addresses below the children from number `i` on. -/
def addressesFrom (i : Nat) : List Element → List Address
  | [] => []
  | c :: cs => (addresses c).map (i :: ·) ++ addressesFrom (i + 1) cs

end

end Element

/-- A place in a document: the root, an address and the element there. -/
structure Cursor where
  root : Element
  address : Address
  element : Element
  /-- The address leads to the element. -/
  found : root.at? address = some element

namespace Cursor

/-- The place at an address of a document. -/
def at? (root : Element) (address : Address) : Option Cursor :=
  match h : root.at? address with
  | some e => some ⟨root, address, e, h⟩
  | none => none

/-- The root of a document. -/
def ofRoot (root : Element) : Cursor := ⟨root, [], root, rfl⟩

/-- The element children in order. -/
def children (c : Cursor) : List Cursor :=
  c.element.children.mapFinIdx fun i _ h =>
    ⟨c.root, c.address ++ [i], c.element.children[i], by simp [Element.at?_concat c.found]⟩

theorem elements_children (c : Cursor) : c.children.map (·.element) = c.element.children := by
  apply List.ext_getElem <;> simp [children]

/-- The element children with the given name, in order. -/
def childrenNamed (c : Cursor) (name : String) : List Cursor :=
  c.children.filter (·.element.name == name)

/-- The first element of a document, in document order, with the given name. -/
def firstNamed? (root : Element) (name : String) : Option Cursor :=
  (root.addresses.filterMap (at? root)).find? (·.element.name == name)

end Cursor

end NetPlot.Xml
