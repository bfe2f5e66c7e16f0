/-
  Directed graphs with nested regions.

  1. **Data** — regions, nodes and edges in the order of their creation.  Region 0 is the root;
     every other region is inside an earlier one.  A node belongs to the region of its first
     mention, an edge to the region that declares it.

  2. **Operations** — `addRegion`, `addNode`, `addEdge`.  A second node of the same name adds its
     attributes to the first; an edge brings in those of its ends that are not there yet.

  3. **Views** — what a region holds (`children`, `nodesIn`, `edgesIn`) is read off the lists, so
     nothing is listed twice and nothing is left out.
-/
import NetPlot.Graph.Attributes

namespace NetPlot

namespace Graph

/-- The number of a region. -/
abbrev RegionId := Nat

/-- A region: the root or a part nested in another region. -/
structure Region where
  name : String
  attributes : Attributes
  /-- The region it is nested in; none for the root. -/
  parent : Option RegionId
  deriving DecidableEq

/-- A node. -/
structure Node where
  name : String
  attributes : Attributes
  /-- The region in which it was first mentioned. -/
  region : RegionId
  deriving DecidableEq

/-- A directed edge. -/
structure Edge where
  tail : String
  head : String
  attributes : Attributes
  /-- The region that declares it. -/
  region : RegionId
  deriving DecidableEq

end Graph

/-- A graph; the root region is the head of its regions. -/
structure Graph where
  strict : Bool
  root : Graph.Region
  /-- All regions but the root, in order of creation. -/
  nested : List Graph.Region
  /-- All nodes in order of first mention. -/
  nodes : List Graph.Node
  /-- All edges in order of creation. -/
  edges : List Graph.Edge
  deriving DecidableEq

namespace Graph

/-! ## Regions -/

/-- A graph with nothing but its root. -/
def new (name : String) (strict : Bool) (attributes : Attributes) : Graph :=
  ⟨strict, ⟨name, attributes, none⟩, [], [], []⟩

/-- All regions by number. -/
def regions (g : Graph) : List Region := g.root :: g.nested

/-- The number of the root. -/
def rootId : RegionId := 0

/-- The name of the graph. -/
def name (g : Graph) : String := g.root.name

/-- The region with a number. -/
def region? (g : Graph) (r : RegionId) : Option Region := g.regions[r]?

/-- The number of the first region with a name. -/
def findRegion? (g : Graph) (name : String) : Option RegionId :=
  g.regions.findIdx? (·.name == name)

/-- The number that the next region gets. -/
def nextRegion (g : Graph) : RegionId := g.regions.length

/-- Opens a region inside `parent`; its number is `g.nextRegion`. -/
def addRegion (g : Graph) (parent : RegionId) (name : String) (attributes : Attributes) : Graph :=
  { g with nested := g.nested ++ [⟨name, attributes, some parent⟩] }

/-! ## Nodes and edges -/

/-- The node with a name. -/
def node? (g : Graph) (name : String) : Option Node := g.nodes.find? (·.name == name)

/-- Nodes after one more mention: attributes are merged into the node of that name, or else a
node is added at the end. -/
def mention (region : RegionId) (name : String) (attributes : Attributes) :
    List Node → List Node
  | [] => [⟨name, attributes, region⟩]
  | n :: ns =>
    if n.name = name then { n with attributes := n.attributes.merge attributes } :: ns
    else n :: mention region name attributes ns

/-- Adds a node to `region`, or its attributes to the node of that name wherever it is. -/
def addNode (g : Graph) (region : RegionId) (name : String) (attributes : Attributes) : Graph :=
  { g with nodes := mention region name attributes g.nodes }

/-- Adds an edge to `region`, and to the nodes those of its ends that are missing. -/
def addEdge (g : Graph) (region : RegionId) (tail head : String) (attributes : Attributes) :
    Graph :=
  let g := (g.addNode region tail ∅).addNode region head ∅
  { g with edges := g.edges ++ [⟨tail, head, attributes, region⟩] }

/-! ## What a region holds -/

/-- The regions nested directly in `r`. -/
def children (g : Graph) (r : RegionId) : List RegionId :=
  (List.range g.regions.length).filter fun i =>
    r < i && (g.region? i).any fun x => x.parent == some r

/-- The nodes of `r` in order of first mention. -/
def nodesIn (g : Graph) (r : RegionId) : List Node := g.nodes.filter (·.region == r)

/-- The numbers of the edges that `r` declares, in order. -/
def edgeIdsIn (g : Graph) (r : RegionId) : List Nat :=
  (g.edges.zipIdx.filter fun (e, _) => e.region == r).map (·.2)

/-- The edges that `r` declares, in order. -/
def edgesIn (g : Graph) (r : RegionId) : List Edge := g.edges.filter (·.region == r)

/-- Nested regions have larger numbers, and there are only so many. -/
theorem lt_of_mem_children {g : Graph} {r i : RegionId} (h : i ∈ g.children r) :
    r < i ∧ i < g.regions.length := by
  simp only [children, List.mem_filter, List.mem_range, Bool.and_eq_true, decide_eq_true_eq] at h
  exact ⟨h.2.1, h.1⟩

end Graph

end NetPlot
