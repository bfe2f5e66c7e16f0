/-
  What a query selects.

  1. **Items** — a path selects elements, attributes and texts by their addresses, and may pass
     through the document itself.  Equal values at different places are different items.

  2. **Program** — `candidates` makes one move from one item and applies the predicates from left
     to right; `widen` adds all elements below an item; `Step.apply` makes a step from every item
     of a list and keeps the first of equal results; `select` takes the steps in turn.
     `Query.evaluate` gives the values of what was selected.

  3. **Values** — an element's value is its trimmed text, an attribute's the value that its name
     alone is looked up with, a text's the text as it is, the document's nothing.
-/
import NetPlot.Query.Basic
import NetPlot.Text.Blank
import NetPlot.Xml.Element

namespace NetPlot.Query

open NetPlot.Text NetPlot.Xml

/-- Something in a document that a path can reach. -/
inductive Item where
  | document
  | element (address : Address)
  | attribute (owner : Address) (name : String)
  | text (owner : Address)
  deriving DecidableEq, Repr

/-! ## Predicates -/

/-- Does an element pass the test for names? -/
def NameTest.accepts : NameTest → Element → Bool
  | name n, e => e.name == n
  | any, _ => true

/-- Does the predicate hold of an element, position aside? -/
def Predicate.holds : Predicate → Element → Bool
  | position _, _ => true
  | hasAttr a, e => (e.attr? a).isSome
  | attrEquals a v, e => e.attr? a == some v
  | childEquals c v, e => e.children.any fun f => f.name == c && trim f.text == v

/-- The elements that a predicate keeps of those reached from one place. -/
def Predicate.keep (root : Element) : Predicate → List Address → List Address
  | position n, as => as[n - 1]?.toList
  | p, as => as.filter fun a => (root.at? a).any p.holds

/-! ## Steps -/

/-- The addresses of the children of the element at `a` that pass a test. -/
def childAddresses (root : Element) (test : NameTest) (a : Address) : List Address :=
  match root.at? a with
  | some e => (e.children.zipIdx.filter fun (f, _) => test.accepts f).map fun (_, i) => a ++ [i]
  | none => []

/-- What one move reaches from one item. -/
def Move.candidates (root : Element) : Move → Item → List Item
  | .self, item => [item]
  | .parent, .element [] => [.document]
  | .parent, .element a => [.element a.dropLast]
  | .parent, .attribute a _ => [.element a]
  | .parent, .text a => [.element a]
  | .parent, .document => []
  | .attribute (.name n), .element a =>
    if ((root.at? a).bind (·.attr? n)).isSome then [.attribute a n] else []
  | .attribute .any, .element a =>
    ((root.at? a).map (·.attributes)).getD [] |>.map fun x => .attribute a x.name
  | .text, .element a =>
    if ((root.at? a).map fun e => e.text.toList.all isBlank) == some false then [.text a] else []
  | .child test ps, .document =>
    (ps.foldl (fun as p => p.keep root as) (if test.accepts root then [[]] else [])).map .element
  | .child test ps, .element a =>
    (ps.foldl (fun as p => p.keep root as) (childAddresses root test a)).map .element
  | .attribute _, _ => []
  | .text, _ => []
  | .child _ _, _ => []

/-- An item with all elements below it, in document order. -/
def widen (root : Element) : Item → List Item
  | .document => .document :: root.addresses.map .element
  | .element a => ((root.at? a).map (·.addresses)).getD [] |>.map fun b => .element (a ++ b)
  | item => [item]

/-- The items that a step is taken from. -/
def Step.origins (root : Element) (step : Step) (item : Item) : List Item :=
  if step.descend then widen root item else [item]

/-- A step from each of the items, every result once. -/
def Step.apply (root : Element) (step : Step) (items : List Item) : List Item :=
  ((items.flatMap (step.origins root)).flatMap (step.move.candidates root)).eraseDups

/-! ## Paths and queries -/

/-- What a path selects, seen from the element at `context`. -/
def LocationPath.select (root : Element) (path : LocationPath) (context : Address) : List Item :=
  if path.absolute && path.steps.isEmpty then [.element []]
  else
    path.steps.foldl (fun items step => step.apply root items)
      [if path.absolute then .document else .element context]

/-- The value of an item. -/
def Item.value (root : Element) : Item → String
  | .document => ""
  | .element a => ((root.at? a).map fun e => trim e.text).getD ""
  | .attribute a n => ((root.at? a).map (·.attr n)).getD ""
  | .text a => ((root.at? a).map (·.text)).getD ""

/-- The values of everything that a query selects, path by path. -/
def evaluate (query : Query) (c : Cursor) : List String :=
  match query with
  | literal s => [s]
  | union paths => paths.flatMap fun p => (p.select c.root c.address).map (·.value c.root)

end NetPlot.Query
