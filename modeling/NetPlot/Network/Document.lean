/-
  Model documents: where they come from and what can be wrong with one.

  A `Source` gives the text of a document or says why it cannot be read.  `Document.open` reads,
  parses and finds the element that the model hangs on; the three things that can go wrong are
  the constructors of `Fault`.
-/
import NetPlot.Path
import NetPlot.Xml.Document

namespace NetPlot.Network

open NetPlot.Xml

/-- Why a text cannot be read, outermost message first. -/
structure Unreadable where
  messages : List String
  deriving DecidableEq, Repr

/-- Where documents come from. -/
abbrev Source := Path → Except Unreadable String

/-- What is wrong with a document. -/
inductive Fault where
  | unreadable (cause : Unreadable)
  | malformed (path : Path)
  | lacking (name : String) (path : Path)
  deriving DecidableEq, Repr

/-- The fault in words, outermost first. -/
def Fault.messages : Fault → List String
  | unreadable cause => cause.messages
  | malformed path => ["Failed to parse XML " ++ path.text]
  | lacking name path => ["No <" ++ name ++ "> element in " ++ path.text]

/-- The first element of the given name in the document at a path. -/
def openDocument (source : Source) (name : String) (path : Path) : Except Fault Cursor :=
  match source path with
  | .error e => .error (.unreadable e)
  | .ok text =>
    match parse? text with
    | none => .error (.malformed path)
    | some root =>
      match Cursor.firstNamed? root name with
      | none => .error (.lacking name path)
      | some c => .ok c

end NetPlot.Network
