/-
  Role clusters: how the parts of one network are grouped.

  1. **Roles** — processes without inputs or without outputs, interface ports of either
     direction, and all the rest.  `Flags` says which of the roles are drawn as clusters.

  2. **Policy** — `processRole`, `portRole` and `frameRole` choose a role for a process, a port
     and a frame; what has no drawn cluster falls back to the container of the level.

  3. **Regions** — `Clusters.open` creates one region for each drawn role inside a container, in
     the order of `Role.drawn`, and `Clusters.region` finds the region of a role.
-/
import NetPlot.Graph.Basic
import NetPlot.Label.Record

namespace NetPlot.Network

open NetPlot.Graph NetPlot.Label

/-- Which role clusters are drawn. -/
structure Flags where
  sources : Bool
  sinks : Bool
  inputPorts : Bool
  outputPorts : Bool
  others : Bool
  deriving DecidableEq, Repr

/-- Interface ports are grouped, processes are not. -/
def Flags.default : Flags := ⟨false, false, true, true, false⟩

/-- What a part of a network is to its level. -/
inductive Role where
  | source
  | sink
  | inputPort
  | outputPort
  | other
  /-- It stands in the container of the level itself. -/
  | container
  deriving DecidableEq, Repr

namespace Role

/-- What the name of a role's region ends in. -/
def key : Role → String
  | source => "sources"
  | sink => "sinks"
  | inputPort => "inps"
  | outputPort => "outps"
  | other => "others"
  | container => "parent"

/-- Is the role drawn as a cluster of its own? -/
def enabled (flags : Flags) : Role → Bool
  | source => flags.sources
  | sink => flags.sinks
  | inputPort => flags.inputPorts
  | outputPort => flags.outputPorts
  | other => flags.others
  | container => false

/-- The roles drawn as clusters, in the order of their regions. -/
def drawn (flags : Flags) : List Role :=
  [source, sink, inputPort, outputPort, other].filter (·.enabled flags)

end Role

/-! ## Policy -/

/-- The rest of a level: a cluster of its own if there is one. -/
def frameRole (flags : Flags) : Role := if flags.others then .other else .container

/-- The role of a process; one without inputs and outputs is a source first. -/
def processRole (flags : Flags) (hasInputs hasOutputs : Bool) : Role :=
  if !hasInputs && flags.sources then .source
  else if !hasOutputs && flags.sinks then .sink
  else frameRole flags

/-- The role of an interface port. -/
def portRole (flags : Flags) : Direction → Role
  | .input => if flags.inputPorts then .inputPort else frameRole flags
  | .output => if flags.outputPorts then .outputPort else frameRole flags

/-! ## Regions -/

/-- The container of a level and the regions of its drawn roles. -/
structure Clusters where
  container : RegionId
  regions : List (Role × RegionId)
  deriving DecidableEq, Repr

namespace Clusters

/-- The region of a role, or the container if the role is not drawn. -/
def region (c : Clusters) (role : Role) : RegionId := (c.regions.lookup role).getD c.container

/-- A region for a role inside `container`, named after it. -/
def addRole (container : RegionId) (base : String) (state : Graph × List (Role × RegionId))
    (role : Role) : Graph × List (Role × RegionId) :=
  (state.1.addRegion container (base ++ role.key) (.ofGiven [("label", "")]),
    state.2 ++ [(role, state.1.nextRegion)])

/-- Creates the regions of the drawn roles inside `container`. -/
def «open» (g : Graph) (container : RegionId) (flags : Flags) : Graph × Clusters :=
  let base := ((g.region? container).map (·.name)).getD ""
  let (g, regions) := (Role.drawn flags).foldl (addRole container base) (g, [])
  (g, ⟨container, regions⟩)

end Clusters

/-! ## Nodes -/

/-- What every process and port node starts from. -/
def baseAttributes : Attributes :=
  .ofGiven [
    ("shape", "record"), ("color", "black"), ("fillcolor", "transparent"),
    ("style", "rounded,filled"), ("fontname", "Helvetica"), ("fontsize", "12"),
    ("orientation", "90")]

/-- The attributes of a node: the common ones with some replaced, added or taken out. -/
def nodeAttributes (es : Entries) : Attributes := baseAttributes.override es

end NetPlot.Network
