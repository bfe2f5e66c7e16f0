/-
  The wires of a network: what its edges connect, whatever is drawn of it.

  1. **Data** — a `Terminal` is an interface port of the network itself or a port of a process in
     it; a `Wire` leads from one terminal to another.  `Visit.wires` reads the wires of a network
     off its document, one for each interface port and one for each signal.

  2. **Edges** — the edges of a visit are its wires, one after the other (`Visit.edges_eq_map`).
     Where a wire ends and how it looks can be read off its edge (`Edge.tailEnd`, `Edge.headEnd`,
     `get?_wireEdge`).
-/
import NetPlot.Proofs.Network.Edges

namespace NetPlot.Network

open NetPlot.Graph NetPlot.Label NetPlot.Xml

/-! ## Data -/

/-- What an end of an edge is attached to. -/
inductive Terminal where
  /-- An interface port of the network itself. -/
  | own (port : String)
  /-- A port of a process in the network. -/
  | inner (process port : String)

/-- A connection of two terminals. -/
structure Wire where
  tail : Terminal
  head : Terminal
  dataType : String
  label : String

/-- The wire of an interface port: from the port inwards if it is an input, else to it. -/
def portWire (port : Cursor) : Wire :=
  let own := Terminal.own (port.element.attr "name")
  let peer := Terminal.inner (port.element.attr "bound_process") (port.element.attr "bound_port")
  if port.element.attr "direction" = "in" then ⟨own, peer, port.element.attr "type", ""⟩
  else ⟨peer, own, port.element.attr "type", ""⟩

/-- The wire of a signal, from its source to its target. -/
def signalWire (cfg : Config) (signal : Cursor) : Wire where
  tail := .inner (signal.element.attr "source") (signal.element.attr "source_port")
  head := .inner (signal.element.attr "target") (signal.element.attr "target_port")
  dataType := signal.element.attr "type"
  label := pretty (cfg.labels.signal.evaluate signal)

/-- The wires of a network: those of its interface ports, then those of its signals. -/
def Visit.wires (cfg : Config) (v : Visit) : List Wire :=
  v.ports.map portWire ++ v.signals.map (signalWire cfg)

/-! ## Edges

The edge of a wire is drawn at the ends of its two terminals.  That an end is shown as a node or not
is settled by the level (`resolve_drawn`), so wires can be compared across levels and graphs. -/

/-- The end of an edge at a terminal. -/
def Terminal.endAt (cfg : Config) (v : Visit) : Terminal → Endpoint
  | own port => .bare (v.id.boundary port)
  | inner process port => endOf cfg v.id v.level v.network process port

/-- The edge of a wire. -/
def Visit.wireEdge (cfg : Config) (v : Visit) (w : Wire) : Edge :=
  v.edge cfg (w.tail.endAt cfg v, w.head.endAt cfg v) w.dataType w.label

/-- The edge of a port is that of its wire, whichever way the port goes. -/
theorem Visit.portEdge_eq (cfg : Config) (v : Visit) (site : Cursor) :
    v.portEdge cfg site = v.wireEdge cfg (portWire site) := by
  rw [portEdge, wireEdge, portWire]
  by_cases hd : site.element.attr "direction" = "in"
  · simp [portEnds, PortBinding.ofElement, Direction.ofText, hd, Terminal.endAt, resolve_drawn]
  · simp [portEnds, PortBinding.ofElement, Direction.ofText, hd, Terminal.endAt, resolve_drawn]

theorem Visit.signalEdge_eq (cfg : Config) (v : Visit) (site : Cursor) :
    v.signalEdge cfg site = v.wireEdge cfg (signalWire cfg site) := by
  rw [signalEdge, wireEdge, signalWire, Terminal.endAt, Terminal.endAt, ← resolve_drawn,
    ← resolve_drawn]
  rfl

/-- The edges of a visit are its wires. -/
theorem Visit.edges_eq_map (cfg : Config) (v : Visit) :
    v.edges cfg = (v.wires cfg).map (v.wireEdge cfg) := by
  rw [edges, wires, List.map_append, List.map_map, List.map_map]
  congr 1
  · exact List.map_congr_left fun site _ => v.portEdge_eq cfg site
  · exact List.map_congr_left fun site _ => v.signalEdge_eq cfg site

/-- Where an edge begins: a node, and the place where it leaves it. -/
def tailEnd (e : Edge) : String × Option String := (e.tail, e.attributes.get? "tailport")

/-- Where an edge ends: a node, and the place where it enters it. -/
def headEnd (e : Edge) : String × Option String := (e.head, e.attributes.get? "headport")

/-- An end as it is written, on a side of the node. -/
def Endpoint.onSide (side : String) (e : Endpoint) : String × Option String :=
  (e.node, some (anchor e.port side))

/-- The attributes of the edge of a wire. -/
theorem get?_wireEdge (cfg : Config) (v : Visit) (w : Wire) (k : String) :
    (v.wireEdge cfg w).attributes.get? k =
      (List.lookup k [
        ("tailport", anchor (w.tail.endAt cfg v).port cfg.direction.outputSide),
        ("headport", anchor (w.head.endAt cfg v).port cfg.direction.inputSide),
        ("style", if isEmphasized w.dataType then "bold" else ""),
        ("penwidth", if isEmphasized w.dataType then "2" else "1"),
        ("label", w.label)]).filter (· ≠ "") :=
  Attributes.get?_ofGiven (by simp [Entries.keys]) k

/-- An anchor is never left out of the attributes of an edge. -/
theorem filter_anchor (port : Option String) {side : String} (hs : side ≠ "") :
    (some (anchor port side)).filter (· ≠ "") = some (anchor port side) :=
  Option.filter_eq_some_iff.mpr ⟨rfl, decide_eq_true (anchor_ne_empty port hs)⟩

theorem outputSide_ne_empty (d : PlotDirection) : d.outputSide ≠ "" := by
  cases d <;> decide

theorem inputSide_ne_empty (d : PlotDirection) : d.inputSide ≠ "" := by
  cases d <;> decide

theorem tailEnd_wireEdge (cfg : Config) (v : Visit) (w : Wire) :
    tailEnd (v.wireEdge cfg w) = (w.tail.endAt cfg v).onSide cfg.direction.outputSide := by
  rw [tailEnd, get?_wireEdge]
  exact congrArg _ (filter_anchor _ (outputSide_ne_empty _))

theorem headEnd_wireEdge (cfg : Config) (v : Visit) (w : Wire) :
    headEnd (v.wireEdge cfg w) = (w.head.endAt cfg v).onSide cfg.direction.inputSide := by
  rw [headEnd, get?_wireEdge]
  exact congrArg _ (filter_anchor _ (inputSide_ne_empty _))

end NetPlot.Network
