/-
  Application graphs: flat networks of actors and channels, all in one document.

  Every actor becomes a record and every channel an edge between the fields of two records, all
  of them in the one root frame.  `compileApplication` reads the document and draws it.
-/
import NetPlot.Network.Drawing

namespace NetPlot.Network

open NetPlot.Graph NetPlot.Label NetPlot.Xml

/-- The ports of an actor with their labels. -/
def actorPorts (spec : Spec) (actor : Cursor) : List Port :=
  (actor.childrenNamed "port").map fun p =>
    ⟨p.element.attr "name", .ofText (p.element.attr "type"), spec.evaluate p⟩

/-- Draws an actor. -/
def drawActor (cfg : Config) (frame : RegionId) (g : Graph) (actor : Cursor) : Graph :=
  g.addNode frame (actor.element.attr "name")
    (recordAttributes (cfg.labels.leaf.evaluate actor) (actorPorts cfg.labels.leafPort actor)
      cfg.leafColor)

/-- The attributes of a channel. -/
def channelAttributes (cfg : Config) (channel : Cursor) : Attributes :=
  .ofGiven [
    ("tailport", anchor (some (channel.element.attr "srcPort")) cfg.direction.outputSide),
    ("headport", anchor (some (channel.element.attr "dstPort")) cfg.direction.inputSide),
    ("label", pretty (cfg.labels.signal.evaluate channel))]

/-- Draws a channel. -/
def drawChannel (cfg : Config) (frame : RegionId) (g : Graph) (channel : Cursor) : Graph :=
  g.addEdge frame (channel.element.attr "srcActor") (channel.element.attr "dstActor")
    (channelAttributes cfg channel)

/-- Draws the actors of one block, then its channels. -/
def drawBlock (cfg : Config) (frame : RegionId) (g : Graph) (block : Cursor) : Graph :=
  let g := (block.childrenNamed "actor").foldl (drawActor cfg frame) g
  (block.childrenNamed "channel").foldl (drawChannel cfg frame) g

/-- The graph of an application graph. -/
def drawApplication (s : Settings) (app : Cursor) : Graph :=
  let (g, frame) := rootFrame s (app.element.attr "name")
  let g := g.addNode frame (Identity.mk s.rootName).hidden (.ofGiven [("style", "invis")])
  (app.childrenNamed "sdf").foldl (drawBlock s.config frame) g

/-- The graph of the application graph that the settings name. -/
def compileApplication (source : Source) (s : Settings) : Reading Fault Graph :=
  (Reading.open? source "applicationGraph" s.input).map (drawApplication s)

end NetPlot.Network
