/-
  Graphs as JSON: everything that a graph holds, with what each region holds listed by number.
-/
import NetPlot.Graph.Basic
import NetPlot.Json

namespace NetPlot

open NetPlot.Graph

/-- Attributes as an object. -/
def Graph.Attributes.toJson (a : Attributes) : Json :=
  .object (a.entries.map fun (k, v) => (k, .string v))

namespace Graph

/-- A region with the numbers of its parts and edges and the names of its nodes. -/
def regionJson (g : Graph) (r : RegionId) (x : Region) : Json :=
  .object [
    ("name", .string x.name),
    ("attrs", x.attributes.toJson),
    ("parent", (x.parent.map Json.number).getD .null),
    ("children", .array ((g.children r).map .number)),
    ("nodes", .array ((g.nodesIn r).map fun n => .string n.name)),
    ("edges", .array ((g.edgeIdsIn r).map .number))]

/-- A node. -/
def nodeJson (n : Node) : Json :=
  .object [
    ("name", .string n.name), ("attrs", n.attributes.toJson), ("region", .number n.region)]

/-- An edge. -/
def edgeJson (e : Edge) : Json :=
  .object [("tail", .string e.tail), ("head", .string e.head), ("attrs", e.attributes.toJson)]

/-- A graph. -/
def toJson (g : Graph) : Json :=
  .object [
    ("strict", .bool g.strict),
    ("regions", .array (g.regions.zipIdx.map fun (x, r) => g.regionJson r x)),
    ("nodes", .object (g.nodes.map fun n => (n.name, nodeJson n))),
    ("edges", .array (g.edges.map edgeJson))]

/-- The indented JSON text of a graph. -/
def dump (g : Graph) : String := g.toJson.pretty 0

end Graph

end NetPlot
