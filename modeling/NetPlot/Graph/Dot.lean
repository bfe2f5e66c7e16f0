/-
  Graphs as DOT text.

  1. **Program** — `Graph.block` turns the part of a graph inside a region into a tree of blocks;
     `Block.lines` writes a block, two spaces of indentation for each level: attributes, nodes,
     nested blocks, edges.  `Graph.toDot` writes a whole graph.

  2. **Quoting** — names and values stand in double quotes; a quote, a backslash and a line feed
     are written with a backslash, a carriage return is not written at all.
-/
import NetPlot.Graph.Basic

namespace NetPlot

namespace Dot

open NetPlot.Graph

/-! ## Quoting -/

/-- How a character is written between quotes. -/
def escape : Char → List Char
  | '"' => ['\\', '"']
  | '\\' => ['\\', '\\']
  | '\n' => ['\\', 'n']
  | '\r' => []
  | c => [c]

/-- A text in double quotes. -/
def quote (s : String) : String := String.ofList ('"' :: s.toList.flatMap escape ++ ['"'])

/-! ## Blocks -/

/-- A graph or subgraph as it is written: attributes, nodes, subgraphs, edges. -/
structure Block where
  name : String
  attributes : Attributes
  nodes : List (String × Attributes)
  blocks : List Block
  /-- Tail, head and attributes. -/
  edges : List (String × String × Attributes)

/-- An attribute of a node or an edge. -/
def pair (e : String × String) : String := e.1 ++ "=" ++ quote e.2

/-- The attributes of a node or an edge, in brackets if there are any. -/
def bracketed (a : Attributes) : String :=
  if a.entries = [] then "" else " [" ++ ", ".intercalate (a.entries.map pair) ++ "]"

/-- A line of text at a level. -/
def indented (level : Nat) (s : String) : String :=
  String.ofList (List.replicate (2 * level) ' ') ++ s

/-- A node statement. -/
def nodeText (n : String × Attributes) : String := quote n.1 ++ bracketed n.2 ++ ";"

/-- An edge statement. -/
def edgeText (e : String × String × Attributes) : String :=
  quote e.1 ++ " -> " ++ quote e.2.1 ++ bracketed e.2.2 ++ ";"

mutual

/-- The lines between the braces of a block. -/
def bodyLines (level : Nat) : Block → List String
  | ⟨_, attributes, nodes, blocks, edges⟩ =>
    attributes.entries.map (fun e => indented level (pair e ++ ";"))
      ++ nodes.map (fun n => indented level (nodeText n))
      ++ nestedLines level blocks
      ++ edges.map (fun e => indented level (edgeText e))

/-- The lines of nested blocks. -/
def nestedLines (level : Nat) : List Block → List String
  | [] => []
  | b :: bs =>
    indented level ("subgraph " ++ quote b.name ++ " \x7b") :: bodyLines (level + 1) b
      ++ indented level "\x7d" :: nestedLines level bs

end

/-- A whole document. -/
def render (strict : Bool) (b : Block) : String :=
  let opening := (if strict then "strict " else "") ++ "digraph " ++ quote b.name ++ " \x7b"
  String.join ((opening :: bodyLines 1 b ++ ["\x7d"]).map (· ++ "\n"))

end Dot

namespace Graph

/-- The part of a graph inside region `r`. -/
def block (g : Graph) (r : RegionId) : Dot.Block :=
  { name := ((g.region? r).map (·.name)).getD ""
    attributes := ((g.region? r).map (·.attributes)).getD ∅
    nodes := (g.nodesIn r).map fun n => (n.name, n.attributes)
    blocks := (g.children r).attach.map fun ⟨i, _h⟩ => g.block i
    edges := (g.edgesIn r).map fun e => (e.tail, e.head, e.attributes) }
termination_by g.regions.length - r
decreasing_by
  have h := lt_of_mem_children _h
  exact Nat.sub_lt_sub_left (Nat.lt_trans h.1 h.2) h.1

/-- The DOT text of a graph. -/
def toDot (g : Graph) : String := Dot.render g.strict (g.block rootId)

end Graph

end NetPlot
