/-
  Identities, and what ports and signals connect.

  1. **Identities** — a process is named by the chain of its ancestors, parted by `@`.  The node
     of an interface port is named by the identity of its process, `@` and the port.

  2. **Bindings** — an interface port is bound to a port of a child process; a signal leads from
     one port to another.  What an element does not say is empty.

  3. **Endpoints** — an end at a process drawn as a node is that node with the field of the port;
     an end anywhere else is the node of the interface port (`resolve`).
-/
import NetPlot.Plot
import NetPlot.Xml.Element

namespace NetPlot.Network

open NetPlot.Text NetPlot.Label NetPlot.Xml

/-! ## Identities -/

/-- The name of a process that is unique in the whole hierarchy. -/
structure Identity where
  text : String
  deriving DecidableEq, Repr

namespace Identity

/-- The process `name` inside this one. -/
def child (p : Identity) (name : String) : Identity := ⟨p.text ++ "@" ++ name⟩

/-- The node of the interface port `port` of this process. -/
def boundary (p : Identity) (port : String) : String := p.text ++ "@" ++ port

/-- The hidden node that keeps the frame of this process from being empty. -/
def hidden (p : Identity) : String := p.text ++ "#anchor"

end Identity

/-! ## Bindings -/

/-- Are connections of this type of data drawn bold? -/
def isEmphasized (dataType : String) : Bool :=
  (cutAt "vector".toList dataType.toList).isSome || (cutAt "array".toList dataType.toList).isSome

/-- An interface port bound to a port of a child process. -/
structure PortBinding where
  name : String
  direction : Direction
  /-- The node of the port. -/
  node : String
  process : Identity
  port : String
  dataType : String
  deriving DecidableEq, Repr

/-- A signal from a port of one child process to a port of another. -/
structure SignalBinding where
  name : String
  source : Identity
  sourcePort : String
  target : Identity
  targetPort : String
  dataType : String
  deriving DecidableEq, Repr

/-- The binding that a `port` element of the network of `parent` describes. -/
def PortBinding.ofElement (parent : Identity) (e : Element) : PortBinding where
  name := e.attr "name"
  direction := .ofText (e.attr "direction")
  node := parent.boundary (e.attr "name")
  process := parent.child (e.attr "bound_process")
  port := e.attr "bound_port"
  dataType := e.attr "type"

/-- The binding that a `signal` element of the network of `parent` describes. -/
def SignalBinding.ofElement (parent : Identity) (e : Element) : SignalBinding where
  name := e.attr "name"
  source := parent.child (e.attr "source")
  sourcePort := e.attr "source_port"
  target := parent.child (e.attr "target")
  targetPort := e.attr "target_port"
  dataType := e.attr "type"

/-! ## Endpoints -/

/-- One end of an edge: a node, and the field of a port if the node has one. -/
structure Endpoint where
  node : String
  port : Option String
  deriving DecidableEq, Repr

/-- A node without fields. -/
def Endpoint.bare (node : String) : Endpoint := ⟨node, none⟩

/-- The end at a port of a process, where `drawn` are the processes that have nodes. -/
def resolve (drawn : List Identity) (process : Identity) (port : String) : Endpoint :=
  if process ∈ drawn then ⟨process.text, some port⟩ else .bare (process.boundary port)

theorem resolve_of_mem {drawn : List Identity} {p : Identity} (h : p ∈ drawn) (q : String) :
    resolve drawn p q = ⟨p.text, some q⟩ := if_pos h

theorem resolve_of_not_mem {drawn : List Identity} {p : Identity} (h : p ∉ drawn) (q : String) :
    resolve drawn p q = .bare (p.boundary q) := if_neg h

end NetPlot.Network
