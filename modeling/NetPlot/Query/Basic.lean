/-
  Path queries: the language in which labels name parts of a model.

  1. **Language** — a query is a quoted text, or a union of location paths.  A path goes step by
     step from a place (or from the document, when it is absolute) to other places; a step may be
     taken from every place below the one reached (`descend`).

  2. **Refusals** — `Cause` lists what can be wrong with the text of a query, and `Error` adds
     the byte offset at which it is wrong.
-/

namespace NetPlot

namespace Query

/-- Which names a step accepts. -/
inductive NameTest where
  | name (n : String)
  | any
  deriving DecidableEq, Repr

/-- A condition on the elements that a step reaches. -/
inductive Predicate where
  /-- Only the one at this position, counted from one, of those reached from one place. -/
  | position (n : Nat)
  | hasAttr (attr : String)
  | attrEquals (attr value : String)
  /-- It has a child of that name whose trimmed text is the value. -/
  | childEquals (child value : String)
  deriving DecidableEq, Repr

/-- Where a step goes from a place. -/
inductive Move where
  | self
  | parent
  | attribute (test : NameTest)
  /-- To the text of the element, unless it is blank. -/
  | text
  | child (test : NameTest) (predicates : List Predicate)
  deriving DecidableEq, Repr

/-- One step of a path. -/
structure Step where
  /-- The move is made from the place itself and from every element below it. -/
  descend : Bool
  move : Move
  deriving DecidableEq, Repr

/-- Steps from the document (absolute) or from a given place. -/
structure LocationPath where
  absolute : Bool
  steps : List Step
  deriving DecidableEq, Repr

end Query

/-- A query: a fixed text, or everything that one of the paths selects. -/
inductive Query where
  | literal (text : String)
  | union (paths : List Query.LocationPath)
  deriving DecidableEq, Repr

namespace Query

/-- What can be wrong with the text of a query. -/
inductive Cause where
  | expectedLiteral
  | unterminatedLiteral
  | expectedName
  | expectedBracket
  | badPosition
  | expectedEquals
  | trailingInput
  deriving DecidableEq, Repr

/-- The cause in words. -/
def Cause.message : Cause → String
  | expectedLiteral => "expected a quoted literal"
  | unterminatedLiteral => "unterminated string literal"
  | expectedName => "expected a name"
  | expectedBracket => "expected `]`"
  | badPosition => "positions start at 1"
  | expectedEquals => "expected `=`"
  | trailingInput => "unexpected trailing input"

/-- A cause and the byte offset it was met at. -/
structure Error where
  offset : Nat
  cause : Cause
  deriving DecidableEq, Repr

/-- The error in words, with its offset. -/
def Error.message (e : Error) : String := e.cause.message ++ " at offset " ++ e.offset.repr

end Query

end NetPlot
