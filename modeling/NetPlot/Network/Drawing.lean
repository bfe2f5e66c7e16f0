/-
  Drawing an expanded model as a graph.

  1. **Program** — `drawModel` lays out a root frame and draws the network in it.  In each
     container come a hidden node, the role clusters, the composites (boxes as records, expanded
     ones as frames with their networks drawn inside), the leaf processes, the interface ports
     with an edge each, and the signals.

  2. **Ends of edges** — a process that is drawn as a node is met at the field of the port; where
     it is a frame, or is not there at all, the end is the node of the interface port (`resolve`).
     Which processes are drawn is known before the first edge of the level is (`drawnProcesses`).
-/
import NetPlot.Network.Expansion

namespace NetPlot.Network

open NetPlot.Graph NetPlot.Label NetPlot.Xml

/-! ## Labels -/

/-- The ports of a process with their labels. -/
def portsOf (spec : Spec) (process : Cursor) : List Port :=
  (process.childrenNamed "port").map fun p =>
    ⟨p.element.attr "name", .ofText (p.element.attr "direction"), spec.evaluate p⟩

/-- The record of a process drawn as a node, filled with a colour. -/
def recordAttributes (label : Rows) (ports : List Port) (color : String) : Attributes :=
  nodeAttributes [("label", record label ports), ("fillcolor", color)]

/-- The attributes of an edge between two ends. -/
def edgeAttributes (d : PlotDirection) (tail head : Endpoint) (dataType label : String) :
    Attributes :=
  .ofGiven [
    ("tailport", anchor tail.port d.outputSide),
    ("headport", anchor head.port d.inputSide),
    ("style", if isEmphasized dataType then "bold" else ""),
    ("penwidth", if isEmphasized dataType then "2" else "1"),
    ("label", label)]

/-! ## The parts of a network -/

/-- Draws a process as a record node in the cluster of its role. -/
def drawProcess (cfg : Config) (clusters : Clusters) (parent : Identity) (spec ports : Spec)
    (color : String) (g : Graph) (site : Cursor) : Graph :=
  let ports := portsOf ports site
  let role := processRole cfg.clusters (hasPorts ports .input) (hasPorts ports .output)
  g.addNode (clusters.region role) (identityAt parent site).text
    (recordAttributes (spec.evaluate site) ports color)

/-- Draws a composite process as a box. -/
def drawBox (cfg : Config) (clusters : Clusters) (parent : Identity) : Graph → Cursor → Graph :=
  drawProcess cfg clusters parent cfg.labels.composite cfg.labels.compositePort cfg.boxColor

/-- Draws a leaf process. -/
def drawLeaf (cfg : Config) (clusters : Clusters) (parent : Identity) : Graph → Cursor → Graph :=
  drawProcess cfg clusters parent cfg.labels.leaf cfg.labels.leafPort cfg.leafColor

/-- The attributes of the node of an interface port. -/
def portAttributes (cfg : Config) (label : Rows) (dataType : String) : Attributes :=
  nodeAttributes [
    ("label", pretty label), ("shape", "invhouse"), ("width", "0.5"), ("height", "0.3"),
    ("style", if isEmphasized dataType then "bold" else ""),
    ("orientation", cfg.direction.orientation)]

/-- The ends of the edge of an interface port: inputs lead in, outputs lead out. -/
def portEnds (drawn : List Identity) (b : PortBinding) : Endpoint × Endpoint :=
  match b.direction with
  | .input => (.bare b.node, resolve drawn b.process b.port)
  | .output => (resolve drawn b.process b.port, .bare b.node)

/-- The ends of the edge of a signal. -/
def signalEnds (drawn : List Identity) (b : SignalBinding) : Endpoint × Endpoint :=
  (resolve drawn b.source b.sourcePort, resolve drawn b.target b.targetPort)

/-- Adds an edge between two ends. -/
def connect (cfg : Config) (container : RegionId) (g : Graph) (ends : Endpoint × Endpoint)
    (dataType label : String) : Graph :=
  g.addEdge container ends.1.node ends.2.node
    (edgeAttributes cfg.direction ends.1 ends.2 dataType label)

/-- Draws an interface port and its edge. -/
def drawPort (cfg : Config) (clusters : Clusters) (parent : Identity) (drawn : List Identity)
    (g : Graph) (site : Cursor) : Graph :=
  let b := PortBinding.ofElement parent site.element
  let g := g.addNode (clusters.region (portRole cfg.clusters b.direction)) b.node
    (portAttributes cfg (cfg.labels.compositePort.evaluate site) b.dataType)
  connect cfg clusters.container g (portEnds drawn b) b.dataType ""

/-- Draws a signal. -/
def drawSignal (cfg : Config) (clusters : Clusters) (parent : Identity) (drawn : List Identity)
    (g : Graph) (site : Cursor) : Graph :=
  let b := SignalBinding.ofElement parent site.element
  connect cfg clusters.container g (signalEnds drawn b) b.dataType
    (pretty (cfg.labels.signal.evaluate site))

/-! ## Networks -/

/-- The leaf processes of a network. -/
def leaves (network : Cursor) : List Cursor := network.childrenNamed "leaf_process"

/-- The processes of a network that are drawn as nodes. -/
def drawnProcesses (parent : Identity) (m : Model) : List Identity :=
  (m.composites.boxes ++ leaves m.network).map (identityAt parent)

/-- Draws everything of a network but its composites. -/
def drawRest (cfg : Config) (clusters : Clusters) (parent : Identity) (m : Model) (g : Graph) :
    Graph :=
  let drawn := drawnProcesses parent m
  let g := (leaves m.network).foldl (drawLeaf cfg clusters parent) g
  let g := (m.network.childrenNamed "port").foldl (drawPort cfg clusters parent drawn) g
  (m.network.childrenNamed "signal").foldl (drawSignal cfg clusters parent drawn) g

/-- Puts the hidden node and the role clusters of a process into a container. -/
def openLevel (cfg : Config) (id : Identity) (container : RegionId) (g : Graph) :
    Graph × Clusters :=
  Clusters.open (g.addNode container id.hidden (.ofGiven [("style", "invis")])) container
    cfg.clusters

/-- The attributes of the frame of an expanded composite at a level. -/
def frameAttributes (cfg : Config) (label : String) (level : Nat) : Attributes :=
  .ofGiven [
    ("label", label), ("style", "filled, rounded"),
    ("fillcolor", Color.background cfg.gradient level)]

/-- Draws the composites of a network, and all that is inside of them. -/
def drawComposites (cfg : Config) (clusters : Clusters) (parent : Identity) (level : Nat) :
    Expansion → Graph → Graph
  | .done, g => g
  | .box site rest, g =>
    drawComposites cfg clusters parent level rest (drawBox cfg clusters parent g site)
  | .expand site network inner rest, g =>
    let id := identityAt parent site
    let frame := g.nextRegion
    let g := g.addRegion (clusters.region (frameRole cfg.clusters)) ("cluster_" ++ id.text)
      (frameAttributes cfg (pretty (cfg.labels.composite.evaluate site)) level)
    let (g, inside) := openLevel cfg id frame g
    let g := drawComposites cfg inside id (level + 1) inner g
    let g := drawRest cfg inside id ⟨network, inner⟩ g
    drawComposites cfg clusters parent level rest g

/-- Draws a network into a container. -/
def drawNetwork (cfg : Config) (container : RegionId) (id : Identity) (level : Nat) (m : Model)
    (g : Graph) : Graph :=
  let (g, clusters) := openLevel cfg id container g
  drawRest cfg clusters id m (drawComposites cfg clusters id level m.composites g)

/-! ## Whole models -/

/-- A graph that holds nothing but the frame of the root process, and the number of the frame. -/
def rootFrame (s : Settings) (label : String) : Graph × RegionId :=
  let g := Graph.new s.rootName true (.ofGiven [
    ("rankdir", s.config.direction.rankdir), ("fontname", "Helvetica"), ("overlap", "prism"),
    ("splines", "true")])
  (g.addRegion rootId ("cluster_" ++ s.rootName) (.ofGiven [
    ("label", label), ("style", "filled, rounded"),
    ("fillcolor", Color.background s.config.gradient 1), ("fontsize", "13")]), g.nextRegion)

/-- The graph of a model. -/
def drawModel (s : Settings) (m : Model) : Graph :=
  let (g, frame) := rootFrame s s.rootName
  drawNetwork s.config frame ⟨s.rootName⟩ firstLevel m g

/-- The graph of the model that the settings name. -/
def compile (source : Source) (s : Settings) : Reading Failure Graph :=
  (Model.load source s).map (drawModel s)

end NetPlot.Network
