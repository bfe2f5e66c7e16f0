/-
  The anchors of edges, and the fields of the records that they are at.

  1. **Values** — the value of a key of a node is the last one that is mentioned for it
     (`value_mention`), so it is known where all mentions of the node agree (`value_mentionAll`).

  2. **Records** — a process drawn as a record is `Recorded` with its ports.  `Anchored` says of an
     end of an edge that it is at the field of a port, with the tag that is written in the label.

  3. **Networks** — an edge to a declared port of a process that is drawn as a node is anchored at
     the field of the port, in hierarchical networks and in application graphs alike
     (`anchors_of_outcome`).
-/
import NetPlot.Network.Application
import NetPlot.Proofs.Label.Record
import NetPlot.Proofs.Network.Containers
import NetPlot.Proofs.Network.Nodes
import NetPlot.Proofs.Network.Openings

namespace NetPlot.Network

open NetPlot.Graph NetPlot.Label NetPlot.Xml

/-! ## Values

Several mentions may bring attributes under one name.  Then the values can still be told where all
of them agree, which needs no condition on the names of the model. -/

/-- The value of a key of the node with a name. -/
def valueIn (ns : List Node) (x k : String) : Option String :=
  (ns.find? (named x)).bind (·.attributes.get? k)

/-- A mention settles the keys that it gives, and for the node of its name alone. -/
theorem value_mention (m : Node) (x k : String) (ns : List Node) :
    valueIn (mention m.region m.name m.attributes ns) x k =
      if m.name = x then (m.attributes.get? k).or (valueIn ns x k) else valueIn ns x k := by
  rw [valueIn, find?_mention, valueIn]
  split
  · cases ns.find? (named x) with
    | none => simp
    | some n => exact Attributes.get?_merge n.attributes m.attributes k
  · rfl

/-- The value of a key that all mentions of a node have, if they have any. -/
theorem value_mentionAll {x k val : String} {ns ms : List Node}
    (h : ∀ m ∈ ms, m.name = x → ∀ w ∈ m.attributes.get? k, w = val)
    (he : valueIn ns x k = some val ∨ ∃ m ∈ ms, m.name = x ∧ m.attributes.get? k = some val) :
    valueIn (mentionAll ns ms) x k = some val := by
  -- the value is in the list already, or comes with a mention that is still ahead
  induction ms generalizing ns with
  | nil => exact he.resolve_right fun ⟨m, hm, _⟩ => absurd hm List.not_mem_nil
  | cons m ms ih =>
    show valueIn (mentionAll (mention m.region m.name m.attributes ns) ms) x k = some val
    refine ih (fun k hk => h k (List.mem_cons_of_mem m hk)) ?_
    rw [value_mention]
    by_cases hm : m.name = x
    · rw [if_pos hm]
      cases hv : m.attributes.get? k with
      | some w => exact Or.inl (by rw [h m List.mem_cons_self hm w hv]; rfl)
      | none =>
        refine he.imp id ?_
        rintro ⟨n, hn, hname, hval⟩
        rcases List.mem_cons.mp hn with rfl | hn
        · exact absurd (hv.symm.trans hval) (by simp)
        · exact ⟨n, hn, hname, hval⟩
    · rw [if_neg hm]
      refine he.imp id ?_
      rintro ⟨n, hn, hname, hval⟩
      rcases List.mem_cons.mp hn with rfl | hn
      · exact absurd hname hm
      · exact ⟨n, hn, hname, hval⟩

/-! ## Records

A label is read as a whole before anything is said of its fields.  So an anchored end is at a field
of the text, not merely at the name of a port. -/

/-- A process that is drawn as a record. -/
structure Recorded where
  /-- The name of the process in its own network. -/
  process : String
  node : Node
  /-- The ports that its label has fields for. -/
  ports : List Port

/-- An end of an edge on a side is at the field of the port `p`: the label of the node, as it is
read, has a field for the port in its place, and the end is anchored at the tag of that field.  If
nothing is left of the name of the port, it is anchored at the side alone. -/
structure Anchored (r : Recorded) (p : Port) (side : String) (place : String × Option String) :
    Prop where
  node : place.1 = r.node.name
  field : ∃ (label : String) (fields : Fields), r.node.attributes.get? "label" = some label ∧
    readRecord? label = some fields ∧
      ∀ i : Nat, (r.ports.filter (·.direction = p.direction))[i]? = some p →
        ∃ tag : String, (fields.side p.direction)[i]? = some (tag, pretty p.label) ∧
          (sanitize p.name ≠ "" → place.2 = some (tag ++ ":" ++ side)) ∧
          (sanitize p.name = "" → place.2 = some side)

/-- A node whose label is the record of its process and ports. -/
def Recorded.IsLabelled (r : Recorded) : Prop :=
  ∃ process, r.node.attributes.get? "label" = some (record process r.ports)

/-- A record is never empty, so the attributes of a process always have its label. -/
theorem get?_recordAttributes (label : Rows) (ports : List Port) (color : String) :
    (recordAttributes label ports color).get? "label" = some (record label ports) := by
  have hne : record label ports ≠ "" := fun h => by
    have hl := congrArg String.toList h
    simp [record] at hl
  show ((if record label ports = "" then baseAttributes.erase "label"
    else baseAttributes.insert "label" (record label ports)).override
      [("fillcolor", color)]).get? "label" = _
  rw [if_neg hne, Attributes.get?_override (by simp [Entries.keys]), Attributes.get?_insert_self]

/-- An end at a port of a process with a label is anchored. -/
theorem Recorded.IsLabelled.anchored {r : Recorded} (h : r.IsLabelled) (p : Port) (side : String) :
    Anchored r p side (r.node.name, some (anchor (some p.name) side)) where
  node := rfl
  field := by
    obtain ⟨process, hl⟩ := h
    have hread := readRecord?_record process r.ports
    refine ⟨_, _, hl, hread, fun i hi => ⟨sanitize p.name, ?_, ?_, ?_⟩⟩
    -- the record reads back as its three columns, and the direction picks the column of the port
    · have hside : Fields.side ⟨fieldsOf r.ports .input, pretty process, fieldsOf r.ports .output⟩
          p.direction = fieldsOf r.ports p.direction := by
        cases p.direction <;> rfl
      rw [hside, fieldsOf, List.getElem?_map, hi]
      rfl
    · intro hp
      rw [anchor, if_neg hp]
    · intro hp
      rw [anchor, if_pos hp]

/-! ## Hierarchical networks

Whether an end has an anchor is decided by what the visit draws, and what a visit draws has its
record.  So both come from one look at the process. -/

variable {source : Source} {s : Settings} {cfg : Config} {g : Graph} {v : Visit} {r : Recorded}

/-- The processes of a visit that are drawn as records: boxes and leaves. -/
def Visit.recorded (cfg : Config) (v : Visit) : List Recorded :=
  (v.boxes cfg).map (fun site =>
      ⟨site.element.attr "name", v.boxNode cfg site, portsOf cfg.labels.compositePort site⟩)
    ++ (leaves v.network).map fun site =>
      ⟨site.element.attr "name", v.leafNode cfg site, portsOf cfg.labels.leafPort site⟩

/-- What is recorded of a visit is drawn in it, under its own name and with its label. -/
theorem Visit.mem_recorded (h : r ∈ v.recorded cfg) :
    r.node ∈ v.elements cfg ∧ r.node.name = (v.id.child r.process).text ∧
      IsShown cfg v.level v.network r.process ∧ r.IsLabelled := by
  rcases List.mem_append.mp h with h | h
  · obtain ⟨site, hs, rfl⟩ := List.mem_map.mp h
    -- boxes are drawn on the last level only
    have hshown : cfg.maxLevel ≤ v.level ∧ site ∈ compositesOf v.network := by
      rw [boxes] at hs
      split at hs
      · exact absurd hs List.not_mem_nil
      next hl => exact ⟨Nat.not_lt.mp hl, hs⟩
    have hm : v.boxNode cfg site ∈ v.elements cfg := List.mem_append_left _
      (List.mem_append_left _ (List.mem_cons_of_mem _ (List.mem_map_of_mem hs)))
    exact ⟨hm, rfl, Or.inr ⟨hshown.1, List.mem_map_of_mem hshown.2⟩, _, get?_recordAttributes ..⟩
  · obtain ⟨site, hs, rfl⟩ := List.mem_map.mp h
    have hm : v.leafNode cfg site ∈ v.elements cfg :=
      List.mem_append_left _ (List.mem_append_right _ (List.mem_map_of_mem hs))
    exact ⟨hm, rfl, Or.inl (List.mem_map_of_mem hs), _, get?_recordAttributes ..⟩

/-- The end of an edge at a process that is drawn. -/
theorem Visit.onSide_endOf (h : r ∈ v.recorded cfg) (q side : String) :
    (endOf cfg v.id v.level v.network r.process q).onSide side =
      (r.node.name, some (anchor (some q) side)) := by
  obtain ⟨-, hname, hshown, -⟩ := mem_recorded h
  rw [endOf, if_pos hshown, hname]
  rfl

/-- The node of a name has the label that all elements of this name have. -/
theorem Drawn.value_of_element {u w : Visit} {t : Tour} {m : Node} {k val : String}
    (hd : Drawn cfg u t g) (hw : w ∈ u :: t.visits) (hm : m ∈ w.elements cfg)
    (hval : m.attributes.get? k = some val)
    (h : ∀ x ∈ u :: t.visits, ∀ n ∈ x.elements cfg, n.name = m.name →
      n.attributes.get? k = some val) :
    (g.node? m.name).bind (·.attributes.get? k) = some val := by
  have hperm := filter_mentions_perm cfg u t
  have hv : valueIn (mentionAll [] (u.mentions cfg (t.mentions cfg))) m.name k = some val := by
    refine value_mentionAll (fun n hn hname w hw => ?_) (Or.inr ⟨m, ?_, rfl, hval⟩)
    · -- a mention without attributes, at an end of an edge, has no value; any other is an element
      by_cases ha : n.attributes = ∅
      · rw [ha] at hw
        cases hw
      · have hn := hperm.mem_iff.mp (List.mem_filter.mpr ⟨hn, decide_eq_true ha⟩)
        obtain ⟨x, hx, hn⟩ := List.mem_flatMap.mp hn
        exact Option.some.inj (hw.symm.trans (h x hx n hn hname))
    · exact (List.mem_filter.mp (hperm.mem_iff.mpr (List.mem_flatMap.mpr ⟨w, hw, hm⟩))).1
  rw [← hd.nodes] at hv
  exact hv

/-! ## Application graphs

An application graph is drawn in three loops over its blocks, actors and channels.  They are brought
into the form of steps first, so that what is known of runs applies to them as well. -/

/-- The node of an actor. -/
def actorNode (cfg : Config) (frame : RegionId) (actor : Cursor) : Node where
  name := actor.element.attr "name"
  attributes := recordAttributes (cfg.labels.leaf.evaluate actor)
    (actorPorts cfg.labels.leafPort actor) cfg.leafColor
  region := frame

/-- The edge of a channel. -/
def channelEdge (cfg : Config) (frame : RegionId) (channel : Cursor) : Edge where
  tail := channel.element.attr "srcActor"
  head := channel.element.attr "dstActor"
  attributes := channelAttributes cfg channel
  region := frame

/-- The actors of all blocks of an application graph. -/
def actorsOf (app : Cursor) : List Cursor :=
  (app.childrenNamed "sdf").flatMap (·.childrenNamed "actor")

/-- The channels of all blocks of an application graph. -/
def channelsOf (app : Cursor) : List Cursor :=
  (app.childrenNamed "sdf").flatMap (·.childrenNamed "channel")

/-- The steps of one block: its actors, then its channels. -/
def blockSteps (cfg : Config) (block : Cursor) : List Step :=
  (block.childrenNamed "actor").map (fun x => .node (actorNode cfg 1 x))
    ++ (block.childrenNamed "channel").map fun x => .edge (channelEdge cfg 1 x)

/-- The steps of a whole application graph, all in the one frame. -/
def applicationSteps (s : Settings) (app : Cursor) : List Step :=
  .region rootId ("cluster_" ++ s.rootName) (.ofGiven [
      ("label", app.element.attr "name"), ("style", "filled, rounded"),
      ("fillcolor", Color.background s.config.gradient 1), ("fontsize", "13")]) ::
    .node ⟨(Identity.mk s.rootName).hidden, .ofGiven [("style", "invis")], 1⟩ ::
    (app.childrenNamed "sdf").flatMap (blockSteps s.config)

theorem drawActor_eq_apply (cfg : Config) (frame : RegionId) (g : Graph) (actor : Cursor) :
    drawActor cfg frame g actor = g.apply (.node (actorNode cfg frame actor)) := by
  rw [drawActor, actorNode, apply]

theorem drawChannel_eq_apply (cfg : Config) (frame : RegionId) (g : Graph) (channel : Cursor) :
    drawChannel cfg frame g channel = g.apply (.edge (channelEdge cfg frame channel)) := by
  rw [drawChannel, channelEdge, apply]

theorem drawBlock_eq_run (cfg : Config) (g : Graph) (block : Cursor) :
    drawBlock cfg 1 g block = g.run (blockSteps cfg block) := by
  rw [drawBlock, blockSteps, run_append, ← foldl_eq_run_map (drawActor_eq_apply cfg 1),
    ← foldl_eq_run_map (drawChannel_eq_apply cfg 1)]

/-- The graph of an application graph is one run. -/
theorem drawApplication_eq_run (s : Settings) (app : Cursor) :
    drawApplication s app = (blank s).run (applicationSteps s app) := by
  rw [applicationSteps, run_cons, run_cons, ← foldl_eq_run (drawBlock_eq_run s.config)]
  rfl

theorem nodes_drawApplication (s : Settings) (app : Cursor) :
    (drawApplication s app).nodes =
      mentionAll [] ((applicationSteps s app).flatMap Step.mentions) := by
  rw [drawApplication_eq_run, nodes_run]
  rfl

/-- The edges are the channels of all blocks, in order. -/
theorem edges_drawApplication (s : Settings) (app : Cursor) :
    (drawApplication s app).edges = (channelsOf app).map (channelEdge s.config 1) := by
  rw [drawApplication_eq_run, edges_run]
  simp [applicationSteps, blockSteps, channelsOf, Step.edges, List.flatMap_assoc,
    List.map_eq_flatMap, blank, Graph.new]

/-- An actor as a process that is drawn as a record. -/
def recordedActor (cfg : Config) (actor : Cursor) : Recorded where
  process := actor.element.attr "name"
  node := actorNode cfg 1 actor
  ports := actorPorts cfg.labels.leafPort actor

/-- The wire of a channel, from its source to its target. -/
def channelWire (cfg : Config) (channel : Cursor) : Wire where
  tail := .inner (channel.element.attr "srcActor") (channel.element.attr "srcPort")
  head := .inner (channel.element.attr "dstActor") (channel.element.attr "dstPort")
  dataType := ""
  label := pretty (cfg.labels.signal.evaluate channel)

/-- The attributes of a channel, those that are empty left out. -/
theorem get?_channelEdge (cfg : Config) (channel : Cursor) (k : String) :
    (channelEdge cfg 1 channel).attributes.get? k =
      (List.lookup k [
        ("tailport", anchor (some (channel.element.attr "srcPort")) cfg.direction.outputSide),
        ("headport", anchor (some (channel.element.attr "dstPort")) cfg.direction.inputSide),
        ("label", pretty (cfg.labels.signal.evaluate channel))]).filter (· ≠ "") := by
  rw [channelEdge, channelAttributes]
  exact Attributes.get?_ofGiven (by simp [Entries.keys]) k

theorem tailEnd_channelEdge (cfg : Config) (channel : Cursor) :
    tailEnd (channelEdge cfg 1 channel) = (channel.element.attr "srcActor",
      some (anchor (some (channel.element.attr "srcPort")) cfg.direction.outputSide)) := by
  rw [tailEnd, get?_channelEdge]
  exact congrArg _ (filter_anchor _ (outputSide_ne_empty _))

theorem headEnd_channelEdge (cfg : Config) (channel : Cursor) :
    headEnd (channelEdge cfg 1 channel) = (channel.element.attr "dstActor",
      some (anchor (some (channel.element.attr "dstPort")) cfg.direction.inputSide)) := by
  rw [headEnd, get?_channelEdge]
  exact congrArg _ (filter_anchor _ (inputSide_ne_empty _))

/-- What is mentioned in an application graph: the hidden node, the actors, and ends of channels. -/
theorem mem_mentions_application {app : Cursor} {m : Node} :
    m ∈ (applicationSteps s app).flatMap Step.mentions ↔
      m = ⟨(Identity.mk s.rootName).hidden, .ofGiven [("style", "invis")], 1⟩ ∨
        (∃ x ∈ actorsOf app, actorNode s.config 1 x = m) ∨
          ∃ x ∈ channelsOf app, m ∈ (channelEdge s.config 1 x).ends := by
  simp only [applicationSteps, blockSteps, actorsOf, channelsOf, List.flatMap_cons,
    List.flatMap_assoc, List.flatMap_append, List.flatMap_map, Step.mentions, List.nil_append,
    List.mem_append, List.mem_flatMap, List.mem_singleton]
  grind

/-- The node of a name has the label that all actors of this name have. -/
theorem value_of_actor {app actor : Cursor} (ha : actor ∈ actorsOf app) {label : String}
    (hl : (actorNode s.config 1 actor).attributes.get? "label" = some label)
    (h : ∀ other ∈ actorsOf app,
      (actorNode s.config 1 other).name = (actorNode s.config 1 actor).name →
        (actorNode s.config 1 other).attributes.get? "label" = some label) :
    ((drawApplication s app).node? (actorNode s.config 1 actor).name).bind
      (·.attributes.get? "label") = some label := by
  have hv : valueIn (mentionAll [] ((applicationSteps s app).flatMap Step.mentions))
      (actorNode s.config 1 actor).name "label" = some label := by
    refine value_mentionAll (fun m hm hname w hw => ?_) (Or.inr ⟨_, ?_, rfl, hl⟩)
    -- the hidden node has no label, other actors of the name have the same, and ends have none
    · rcases mem_mentions_application.mp hm with rfl | ⟨x, hx, rfl⟩ | ⟨x, -, hm⟩
      · cases hw
      · exact Option.some.inj (hw.symm.trans (h x hx hname))
      · rw [Edge.attributes_of_mem_ends hm] at hw
        cases hw
    · exact mem_mentions_application.mpr (Or.inr (Or.inl ⟨actor, ha, rfl⟩))
  rw [← nodes_drawApplication] at hv
  exact hv

/-! ## Anchors -/

/-- The node of a process has its label in a graph. -/
def Recorded.ShownIn (g : Graph) (r : Recorded) : Prop :=
  (g.node? r.node.name).bind (·.attributes.get? "label") = r.node.attributes.get? "label"

/-- The ends of the edge of a wire that are at declared ports of a process are anchored there. -/
def Recorded.AnchorsWire (cfg : Config) (r : Recorded) (w : Wire) (e : Edge) : Prop :=
  ∀ p ∈ r.ports,
    (w.tail = .inner r.process p.name → Anchored r p cfg.direction.outputSide (tailEnd e)) ∧
    (w.head = .inner r.process p.name → Anchored r p cfg.direction.inputSide (headEnd e))

/-- The wires of a visit are anchored as their ends say. -/
theorem Visit.anchorsWire (h : r ∈ v.recorded cfg) (w : Wire) :
    r.AnchorsWire cfg w (v.wireEdge cfg w) := by
  have hl := (mem_recorded h).2.2.2
  intro p _
  refine ⟨fun ht => ?_, fun hh => ?_⟩
  · rw [tailEnd_wireEdge, ht, Terminal.endAt, v.onSide_endOf h]
    exact hl.anchored p _
  · rw [headEnd_wireEdge, hh, Terminal.endAt, v.onSide_endOf h]
    exact hl.anchored p _

/-- The channels of an application graph are anchored as their ends say. -/
theorem anchorsWire_channel (cfg : Config) (actor channel : Cursor) :
    (recordedActor cfg actor).AnchorsWire cfg (channelWire cfg channel)
      (channelEdge cfg 1 channel) := by
  have hl : (recordedActor cfg actor).IsLabelled := ⟨_, get?_recordAttributes ..⟩
  intro p _
  refine ⟨fun ht => ?_, fun hh => ?_⟩
  · obtain ⟨hx, hq⟩ := Terminal.inner.inj ht
    rw [tailEnd_channelEdge, hx, hq]
    exact hl.anchored p _
  · obtain ⟨hx, hq⟩ := Terminal.inner.inj hh
    rw [headEnd_channelEdge, hx, hq]
    exact hl.anchored p _

/-- An application graph compiles if its document can be used, and is drawn from there. -/
theorem compileApplication_eq_ok : (compileApplication source s).outcome = .ok g ↔
    ∃ app, openDocument source "applicationGraph" s.input = .ok app ∧
      drawApplication s app = g := by
  rw [compileApplication, Reading.open?, Reading.map]
  cases openDocument source "applicationGraph" s.input <;> simp [Except.map]

/-- **Anchors.**  Wherever an edge leads to a declared port of a leaf process, a box or an actor, it
is anchored at the tag of the field that the port has in the label of the process, or at the side
alone if nothing is left of the name of the port.  The graph has this label, if no other element of
the same name has another one. -/
theorem anchors_of_outcome (source : Source) (s : Settings) :
    (∀ g, (compile source s).outcome = .ok g → ∀ v ∈ visits source s,
      g.edgesIn v.container = (v.wires s.config).map (v.wireEdge s.config) ∧
        ∀ r ∈ v.recorded s.config,
          (∀ w ∈ v.wires s.config, r.AnchorsWire s.config w (v.wireEdge s.config w)) ∧
          ((∀ x ∈ visits source s, ∀ m ∈ x.elements s.config, m.name = r.node.name →
            m.attributes.get? "label" = r.node.attributes.get? "label") → r.ShownIn g)) ∧
    ∀ g, (compileApplication source s).outcome = .ok g →
      ∃ app, openDocument source "applicationGraph" s.input = .ok app ∧
        g.edges = (channelsOf app).map (channelEdge s.config 1) ∧
          ∀ actor ∈ actorsOf app, let r := recordedActor s.config actor
            (∀ channel ∈ channelsOf app,
              r.AnchorsWire s.config (channelWire s.config channel)
                (channelEdge s.config 1 channel)) ∧
            ((∀ other ∈ actorsOf app, other.element.attr "name" = r.process →
              (actorNode s.config 1 other).attributes.get? "label" =
                r.node.attributes.get? "label") → r.ShownIn g) := by
  refine ⟨fun g h v hv => ⟨edgesIn_container_of_compile h hv, fun r hr =>
    ⟨fun w _ => v.anchorsWire hr w, fun heq => ?_⟩⟩, fun g h => ?_⟩
  -- all elements of the name have one label, so the node has it
  · obtain ⟨u, t, hvisits, hd⟩ := exists_drawn_of_compile h
    obtain ⟨hm, -, -, process, hl⟩ := Visit.mem_recorded hr
    rw [hvisits] at hv heq
    rw [hl] at heq
    exact (hd.value_of_element hv hm hl heq).trans hl.symm
  · obtain ⟨app, ha, rfl⟩ := compileApplication_eq_ok.mp h
    refine ⟨app, ha, edges_drawApplication s app, fun actor hactor =>
      ⟨fun channel _ => anchorsWire_channel s.config actor channel, fun heq => ?_⟩⟩
    have hl : (actorNode s.config 1 actor).attributes.get? "label" = some _ :=
      get?_recordAttributes ..
    exact (value_of_actor hactor hl fun other ho hn => (heq other ho hn).trans hl).trans hl.symm

/-- An actor with a port and a channel that leads from there. -/
def sampleApplication : Source
  | ⟨"top.xml"⟩ => .ok ("<applicationGraph><sdf><actor name=\"A\"><port name=\"o.1\"/></actor>"
      ++ "<channel srcActor=\"A\" srcPort=\"o.1\"/></sdf></applicationGraph>")
  | path => .error ⟨["Nothing at " ++ path.text]⟩

/-- A network whose edges are all anchored at declared ports, and an application graph with one
channel from a port whose name is sanitised. -/
theorem anchors_of_outcome_sample :
    (∃ g, (compile sampleSource sampleSettings).outcome = .ok g ∧
      ∀ v ∈ visits sampleSource sampleSettings, ∀ r ∈ v.recorded sampleSettings.config,
        ∀ w ∈ v.wires sampleSettings.config,
          r.AnchorsWire sampleSettings.config w (v.wireEdge sampleSettings.config w)) ∧
    ∃ g app, (compileApplication sampleApplication sampleSettings).outcome = .ok g ∧
      openDocument sampleApplication "applicationGraph" sampleSettings.input = .ok app ∧
      (actorsOf app).map (fun x => (x.element.attr "name", namesOf (x.childrenNamed "port"))) =
        [("A", ["o.1"])] ∧
      (channelsOf app).map (fun x => (x.element.attr "srcActor", x.element.attr "srcPort")) =
        [("A", "o.1")] ∧
      ∀ actor ∈ actorsOf app, ∀ channel ∈ channelsOf app,
        (recordedActor sampleSettings.config actor).AnchorsWire sampleSettings.config
          (channelWire sampleSettings.config channel)
          (channelEdge sampleSettings.config 1 channel) := by
  obtain ⟨g, hg⟩ := compile_ok_iff.mpr sample_visits.1
  refine ⟨⟨g, hg, fun v hv r hr =>
    (((anchors_of_outcome sampleSource sampleSettings).1 g hg v hv).2 r hr).1⟩, ?_⟩
  -- the application has one actor with a port and one channel that leaves from it
  have hparts : ((openDocument sampleApplication "applicationGraph"
      sampleSettings.input).toOption.map fun app =>
        ((actorsOf app).map fun x => (x.element.attr "name", namesOf (x.childrenNamed "port")),
          (channelsOf app).map fun x => (x.element.attr "srcActor", x.element.attr "srcPort"))) =
        some ([("A", ["o.1"])], [("A", "o.1")]) := by
    decide +kernel
  obtain ⟨app, happ, hparts⟩ := Option.map_eq_some_iff.mp hparts
  obtain ⟨hactors, hchannels⟩ := Prod.mk.inj hparts
  have hg : (compileApplication sampleApplication sampleSettings).outcome =
      .ok (drawApplication sampleSettings app) :=
    compileApplication_eq_ok.mpr ⟨app, eq_ok_of_toOption happ, rfl⟩
  obtain ⟨app', happ', -, ha⟩ := (anchors_of_outcome sampleApplication sampleSettings).2 _ hg
  obtain rfl := Except.ok.inj ((eq_ok_of_toOption happ).symm.trans happ')
  exact ⟨_, app, hg, happ', hactors, hchannels, fun actor hactor => (ha actor hactor).1⟩

end NetPlot.Network
