/-
  From tokens to the tree of a document.

  1. **Program** — an `Opened` element is one whose end tag has not been met; `grow?` takes one
     token after the other with the stack of opened elements, and `document?` finds the root and
     lets nothing but comments, processing instructions and white space stand beside it.
     `parse?` is the whole reader: text in, root element out, nothing for a text that is not a
     well-formed document.

  2. **Qualifiers** — `Scope` binds qualifiers to names of vocabularies.  A declaration
     `xmlns:q` binds `q` within its element; every qualifier used must be bound, except `xml` on
     attributes.  Two attributes of an element may not have the same name proper in the same
     vocabulary.
-/
import NetPlot.Xml.Element
import NetPlot.Xml.Reference
import NetPlot.Xml.Token

namespace NetPlot.Xml

open NetPlot.Text

/-! ## Qualifiers -/

/-- Qualifiers with the vocabularies they stand for, the innermost declaration first. -/
abbrev Scope := List (String × String)

/-- The vocabulary of the qualifier `xml`. -/
def xmlVocabulary : String := "http://www.w3.org/XML/1998/namespace"

/-- The vocabulary of declarations themselves. -/
def declarationVocabulary : String := "http://www.w3.org/2000/xmlns/"

/-- What an attribute of a start tag is for. -/
inductive Role where
  /-- It declares a qualifier. -/
  | declares (qualifier vocabulary : String)
  /-- It declares something that no name here depends on. -/
  | inert
  /-- It belongs to the element. -/
  | belongs (name : QName) (value : String)

/-- The role of an attribute; none for a declaration that is not allowed. -/
def Role.of? (name : QName) (value : String) : Option Role :=
  if name.qualifier = "xmlns" then
    if value = declarationVocabulary ∨ (name.name = "xml" ↔ value ≠ xmlVocabulary) then none
    else if name.name = "xml" then some .inert
    else some (.declares name.name value)
  else if name.name = "xmlns" then
    if value = declarationVocabulary ∨ value = xmlVocabulary then none else some .inert
  else some (.belongs name value)

/-- The vocabulary of an attribute, none if it is written without a qualifier. -/
def vocabulary? (scope : Scope) (name : QName) : Option (Option String) :=
  if name.qualifier = "" then some none
  else if name.qualifier = "xml" then some (some xmlVocabulary)
  else (scope.lookup name.qualifier).map some

/-! ## Opened elements -/

/-- An element whose end tag is still to come. -/
structure Opened where
  tag : QName
  attributes : List Attribute
  /-- The qualifiers bound inside it. -/
  scope : Scope
  /-- Its text so far. -/
  text : List Char
  /-- Nothing but character data so far. -/
  leading : Bool
  /-- Its children so far, the last one first. -/
  children : List Element

namespace Opened

/-- The element that a start tag opens inside `scope`. -/
def of? (scope : Scope) (tag : QName) (written : List (QName × List Char)) : Option Opened := do
  let roles ← written.mapM fun (name, raw) => do Role.of? name (← attributeValue? raw)
  let declared := roles.filterMap fun
    | .declares q v => some (q, v)
    | _ => none
  let own := roles.filterMap fun
    | .belongs n v => some (n, v)
    | _ => none
  let scope := declared.reverse ++ scope
  let names ← own.mapM fun (n, _) => (vocabulary? scope n).map (·, n.name)
  if declared.Pairwise (·.1 ≠ ·.1) ∧ names.Nodup
      ∧ (tag.qualifier = "" ∨ (scope.lookup tag.qualifier).isSome) then
    some {
      tag, scope
      attributes := own.map fun (n, v) => ⟨n.qualifier != "", n.name, v⟩
      text := [], leading := true, children := [] }
  else none

/-- The element, now that its end tag has come. -/
def close (o : Opened) : Element :=
  ⟨o.tag.name, o.attributes, String.ofList o.text, o.children.reverse⟩

/-- Character data counts only while nothing else has come. -/
def addText (o : Opened) (t : List Char) : Opened :=
  if o.leading then { o with text := o.text ++ t } else o

/-- A comment or a processing instruction has come. -/
def interrupt (o : Opened) : Opened := { o with leading := false }

def addChild (o : Opened) (e : Element) : Opened :=
  { o with leading := false, children := e :: o.children }

end Opened

/-! ## The tree -/

/-- Reads on until `top` and the elements around it are closed; what is left of the tokens comes
back with the outermost one. -/
def grow? (top : Opened) (outer : List Opened) : List Token → Option (Element × List Token)
  | [] => none
  | .comment :: ts => grow? top.interrupt outer ts
  | .instruction :: ts => grow? top.interrupt outer ts
  | .text raw :: ts =>
    match textValue? raw with
    | some t => grow? (top.addText t) outer ts
    | none => none
  | .cdata raw :: ts => grow? (top.addText (cdataValue raw)) outer ts
  | .start tag attributes closed :: ts =>
    match Opened.of? top.scope tag attributes with
    | some o =>
      if closed then grow? (top.addChild o.close) outer ts else grow? o (top :: outer) ts
    | none => none
  | .finish tag :: ts =>
    if tag = top.tag then
      match outer with
      | [] => some (top.close, ts)
      | o :: outer => grow? (o.addChild top.close) outer ts
    else none

/-- May the token stand beside the root? -/
def Token.isMisc : Token → Bool
  | .comment => true
  | .instruction => true
  | .text raw => raw.all isSpace
  | _ => false

/-- The root element of a document. -/
def document? (ts : List Token) : Option Element :=
  match ts.dropWhile Token.isMisc with
  | .start tag attributes closed :: ts => do
    let o ← Opened.of? [] tag attributes
    let (root, ts) ← if closed then some (o.close, ts) else grow? o [] ts
    if ts.all Token.isMisc then some root else none
  | _ => none

/-! ## The whole text -/

/-- `key = "value"` where `key` begins as given, then white space or the end of the declaration. -/
def declared? (key : String) (s : List Char) : Option (List Char) :=
  if (afterMark? key.toList s).isSome then do
    let (_, r) ← attribute? s
    if r.head?.all isSpace || (afterMark? "?>".toList r).isSome then some (skipSpaces r) else none
  else none

/-- What follows the XML declaration: a version, then maybe an encoding and a word on whether the
document stands alone.  A text without a declaration is left as it is. -/
def afterDeclaration? (s : List Char) : Option (List Char) :=
  match afterMark? "<?xml ".toList s with
  | none => some s
  | some r => do
    let r ← declared? "version" (skipSpaces r)
    let r ← if (afterMark? "encoding".toList r).isSome then declared? "encoding" r else some r
    let r ← if (afterMark? "standalone".toList r).isSome then (attribute? r).map (·.2) else some r
    afterMark? "?>".toList (skipSpaces r)

/-- The root element of a document; a byte order mark may stand in front of it. -/
def parse? (s : String) : Option Element := do
  let s := (afterMark? ['\uFEFF'] s.toList).getD s.toList
  if s.all isXmlChar then document? (← tokens? (← afterDeclaration? s)) else none

end NetPlot.Xml
