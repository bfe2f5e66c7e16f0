/-
  The graph of an application graph.

  1. **Specification** — `channelConnection` is what a channel asks for.  `DrawsApplication` says
     what the graph consists of: one frame with all nodes in it, one edge for each channel in
     order, and nodes for the actors and for the ends of the channels.

  2. **Mentions** — blocks come one after the other, so a channel may mention an actor before the
     block that declares it.  Such a mention brings no attributes: those that do are the hidden
     node and the actors (`filter_mentions_application`).

  3. **Application graphs** — compiling fails exactly where the document cannot be used, and
     otherwise draws the application graph (`application_of_outcome`).
-/
import NetPlot.Proofs.Graph.History
import NetPlot.Proofs.Network.Anchors
import NetPlot.Proofs.Network.Failing

namespace NetPlot.Network

open NetPlot.Graph NetPlot.Label NetPlot.Xml

/-! ## Specification

Nodes are said by their names and edges by their connections; what attributes an actor has is said
of its element alone. -/

/-- The connection of a channel, from its source to its target. -/
def channelConnection (cfg : Config) (channel : Cursor) : Connection :=
  (channel.element.attr "srcActor", channel.element.attr "dstActor",
    [("tailport", anchor (some (channel.element.attr "srcPort")) cfg.direction.outputSide),
      ("headport", anchor (some (channel.element.attr "dstPort")) cfg.direction.inputSide)]
    ++ if pretty (cfg.labels.signal.evaluate channel) = "" then []
      else [("label", pretty (cfg.labels.signal.evaluate channel))])

/-- The attributes of an actor, from its element alone. -/
def actorAttributes (cfg : Config) (actor : Cursor) : Attributes :=
  recordAttributes (cfg.labels.leaf.evaluate actor) (actorPorts cfg.labels.leafPort actor)
    cfg.leafColor

/-- What the graph of an application graph consists of. -/
structure DrawsApplication (s : Settings) (app : Cursor) (g : Graph) : Prop where
  /-- Region 1 is the frame of the root. -/
  frame : ∃ a, g.regions.drop 1 = [⟨"cluster_" ++ s.rootName, a, some rootId⟩]
  node_region : ∀ n ∈ g.nodes, n.region = 1
  /-- One edge for each channel of each block, in the order of the document. -/
  edges : g.edges.map connectionOf = (channelsOf app).map (channelConnection s.config)
  edge_region : ∀ e ∈ g.edges, e.region = 1
  names : ∀ x, x ∈ g.nodes.map (·.name) ↔ x = (Identity.mk s.rootName).hidden ∨
    (∃ actor ∈ actorsOf app, x = actor.element.attr "name") ∨
    ∃ channel ∈ channelsOf app,
      x = channel.element.attr "srcActor" ∨ x = channel.element.attr "dstActor"
  /-- An actor whose name no other actor and not the hidden node has is drawn as it is, whatever
  channels mention its name, and wherever they stand. -/
  attributes : ∀ before actor after, actorsOf app = before ++ actor :: after →
    (∀ other ∈ before ++ after,
      other.element.attr "name" ≠ actor.element.attr "name") →
    actor.element.attr "name" ≠ (Identity.mk s.rootName).hidden →
      (g.node? (actor.element.attr "name")).map (·.attributes) =
        some (actorAttributes s.config actor)

/-! ## Mentions

The hidden node and the actors bring attributes, the ends of channels do not.  So where an actor has
a name of its own, its mention is the only one that counts. -/

variable {source : Source} {s : Settings} {g : Graph}

/-- The hidden node of an application graph. -/
def hiddenNode (s : Settings) : Node :=
  ⟨(Identity.mk s.rootName).hidden, .ofGiven [("style", "invis")], 1⟩

theorem actorNode_attributes_ne (cfg : Config) (actor : Cursor) :
    (actorNode cfg 1 actor).attributes ≠ ∅ := by
  intro h
  -- an actor has a label at least
  have hl := get?_recordAttributes (cfg.labels.leaf.evaluate actor)
    (actorPorts cfg.labels.leafPort actor) cfg.leafColor
  have he : recordAttributes (cfg.labels.leaf.evaluate actor)
    (actorPorts cfg.labels.leafPort actor) cfg.leafColor = ∅ := h
  rw [he] at hl
  cases hl

/-- Of what a block mentions, the actors alone bring attributes. -/
theorem filter_mentions_block (cfg : Config) (block : Cursor) :
    ((blockSteps cfg block).flatMap Step.mentions).filter (·.attributes ≠ ∅) =
      (block.childrenNamed "actor").map (actorNode cfg 1) := by
  -- channels mention their ends without attributes, so filtering leaves the actors
  have hactors : ((block.childrenNamed "actor").map fun x =>
      Step.node (actorNode cfg 1 x)).flatMap Step.mentions =
        (block.childrenNamed "actor").map (actorNode cfg 1) := by
    rw [List.flatMap_map, List.map_eq_flatMap]
    rfl
  have hchannels : ∀ m ∈ ((block.childrenNamed "channel").map fun x =>
      Step.edge (channelEdge cfg 1 x)).flatMap Step.mentions, m.attributes = ∅ := by
    intro m hm
    obtain ⟨x, -, hm⟩ := List.mem_flatMap.mp (List.flatMap_map .. ▸ hm)
    exact Edge.attributes_of_mem_ends hm
  have hnone : (((block.childrenNamed "channel").map fun x =>
      Step.edge (channelEdge cfg 1 x)).flatMap Step.mentions).filter (·.attributes ≠ ∅) = [] :=
    List.filter_eq_nil_iff.mpr fun m hm => by simpa using hchannels m hm
  rw [blockSteps, List.flatMap_append, List.filter_append, hactors, hnone, List.append_nil,
    List.filter_eq_self]
  intro m hm
  obtain ⟨x, -, rfl⟩ := List.mem_map.mp hm
  exact decide_eq_true (actorNode_attributes_ne cfg x)

/-- The mentions that bring attributes are the hidden node and the actors, in order. -/
theorem filter_mentions_application (s : Settings) (app : Cursor) :
    ((applicationSteps s app).flatMap Step.mentions).filter (·.attributes ≠ ∅) =
      hiddenNode s :: (actorsOf app).map (actorNode s.config 1) := by
  -- block by block, each with its own actors
  have hblocks : ∀ blocks : List Cursor,
      ((blocks.flatMap (blockSteps s.config)).flatMap Step.mentions).filter (·.attributes ≠ ∅) =
        (blocks.flatMap (·.childrenNamed "actor")).map (actorNode s.config 1) := by
    intro blocks
    induction blocks with
    | nil => rfl
    | cons block blocks ih =>
      rw [List.flatMap_cons, List.flatMap_append, List.filter_append, filter_mentions_block, ih,
        List.flatMap_cons, List.map_append]
  show (hiddenNode s ::
    ((app.childrenNamed "sdf").flatMap (blockSteps s.config)).flatMap Step.mentions).filter _ = _
  rw [List.filter_cons_of_pos (by rfl), hblocks]
  rfl

/-- All that an application graph mentions is in its frame. -/
theorem region_of_mention {app : Cursor} {m : Node}
    (h : m ∈ (applicationSteps s app).flatMap Step.mentions) : m.region = 1 := by
  rcases mem_mentions_application.mp h with rfl | ⟨x, -, rfl⟩ | ⟨x, -, hm⟩
  · rfl
  · rfl
  · rcases Edge.mem_ends.mp hm with rfl | rfl <;> rfl

/-! ## The graph -/

/-- The edge of a channel shows what the channel asks for. -/
theorem connectionOf_channelEdge (cfg : Config) (channel : Cursor) :
    connectionOf (channelEdge cfg 1 channel) = channelConnection cfg channel := by
  have ht := anchor_ne_empty (some (channel.element.attr "srcPort"))
    (outputSide_ne_empty cfg.direction)
  have hh := anchor_ne_empty (some (channel.element.attr "dstPort"))
    (inputSide_ne_empty cfg.direction)
  rw [connectionOf, channelEdge, channelConnection, channelAttributes,
    Attributes.entries_ofGiven (by simp [Entries.keys])]
  by_cases hl : pretty (cfg.labels.signal.evaluate channel) = ""
  · simp [hl, ht, hh]
  · simp [hl, ht, hh]

/-- An actor is drawn as it is, if its name is its own. -/
theorem attributes_drawApplication {app actor : Cursor} {before after : List Cursor}
    (hsplit : actorsOf app = before ++ actor :: after)
    (hothers : ∀ other ∈ before ++ after,
      other.element.attr "name" ≠ actor.element.attr "name")
    (hhidden : actor.element.attr "name" ≠ (Identity.mk s.rootName).hidden) :
    ((drawApplication s app).node? (actor.element.attr "name")).map (·.attributes) =
      some (actorAttributes s.config actor) := by
  -- of all mentions of the name, that of the actor alone brings attributes
  have hone : (((applicationSteps s app).flatMap Step.mentions).filter
      (·.attributes ≠ ∅)).filter (named (actor.element.attr "name")) =
        [actorNode s.config 1 actor] := by
    have hnone : ∀ others : List Cursor, (∀ other ∈ others, other ∈ before ++ after) →
        (others.map (actorNode s.config 1)).filter (named (actor.element.attr "name")) = [] := by
      intro others ho
      refine List.filter_eq_nil_iff.mpr fun m hm => ?_
      obtain ⟨other, hmem, rfl⟩ := List.mem_map.mp hm
      exact fun hn => hothers other (ho other hmem) (named_iff.mp hn)
    have hself : named (actor.element.attr "name") (actorNode s.config 1 actor) = true :=
      named_iff.mpr rfl
    rw [filter_mentions_application, List.filter_cons_of_neg
        (fun h => hhidden (named_iff.mp h).symm), hsplit, List.map_append, List.map_cons,
      List.filter_append, hnone before fun _ => List.mem_append_left _,
      List.filter_cons_of_pos hself,
      hnone after fun _ h => List.mem_append_right _ h]
    rfl
  show ((drawApplication s app).nodes.find? (named (actor.element.attr "name"))).map _ = _
  rw [nodes_drawApplication, find?_of_filter hone]
  rfl

/-- No step but the first opens a region. -/
theorem regions_drawApplication (s : Settings) (app : Cursor) :
    (drawApplication s app).regions = [(blank s).root, ⟨"cluster_" ++ s.rootName, .ofGiven [
      ("label", app.element.attr "name"), ("style", "filled, rounded"),
      ("fillcolor", Color.background s.config.gradient 1), ("fontsize", "13")], some rootId⟩] := by
  have hblocks : ((app.childrenNamed "sdf").flatMap (blockSteps s.config)).flatMap
      Step.regions = [] := by
    simp [List.flatMap_assoc, blockSteps, Step.regions, List.flatMap_map]
  rw [drawApplication_eq_run, regions_run, applicationSteps, List.flatMap_cons,
    List.flatMap_cons, hblocks]
  rfl

/-- The graph of an application graph consists of what the document says. -/
theorem drawsApplication (s : Settings) (app : Cursor) :
    DrawsApplication s app (drawApplication s app) where
  frame := ⟨_, congrArg (List.drop 1) (regions_drawApplication s app)⟩
  node_region := by
    intro n hn
    rw [nodes_drawApplication] at hn
    obtain ⟨m, hm, -, hregion⟩ := exists_mention_of_mem hn
    rw [← hregion]
    exact region_of_mention hm
  edges := by
    rw [edges_drawApplication, List.map_map]
    exact List.map_congr_left fun channel _ => connectionOf_channelEdge s.config channel
  edge_region := by
    intro e he
    rw [edges_drawApplication] at he
    obtain ⟨channel, -, rfl⟩ := List.mem_map.mp he
    rfl
  names := by
    intro x
    rw [nodes_drawApplication, mem_names_mentionAll, List.nil_append, List.mem_map]
    constructor
    · rintro ⟨m, hm, rfl⟩
      -- nodes are mentioned by the frame, by an actor, or as the end of a channel
      rcases mem_mentions_application.mp hm with rfl | ⟨actor, ha, rfl⟩ | ⟨channel, hc, hm⟩
      · exact Or.inl rfl
      · exact Or.inr (Or.inl ⟨actor, ha, rfl⟩)
      · refine Or.inr (Or.inr ⟨channel, hc, ?_⟩)
        rcases Edge.mem_ends.mp hm with rfl | rfl
        · exact Or.inl rfl
        · exact Or.inr rfl
    · rintro (rfl | ⟨actor, ha, rfl⟩ | ⟨channel, hc, hx⟩)
      · exact ⟨_, mem_mentions_application.mpr (Or.inl rfl), rfl⟩
      · exact ⟨_, mem_mentions_application.mpr (Or.inr (Or.inl ⟨actor, ha, rfl⟩)), rfl⟩
      · have hend : ∀ m ∈ (channelEdge s.config 1 channel).ends,
            m ∈ (applicationSteps s app).flatMap Step.mentions := fun m hm =>
          mem_mentions_application.mpr (Or.inr (Or.inr ⟨channel, hc, hm⟩))
        rcases hx with rfl | rfl
        · exact ⟨_, hend _ (Edge.mem_ends.mpr (Or.inl rfl)), rfl⟩
        · exact ⟨_, hend _ (Edge.mem_ends.mpr (Or.inr rfl)), rfl⟩
  attributes := fun _ _ _ hsplit hothers hhidden =>
    attributes_drawApplication hsplit hothers hhidden

/-- **Application graphs.**  Compiling one fails exactly if the document cannot be read, is not
well-formed or has no application graph.  Otherwise the graph has one frame with all nodes in it,
one edge for each channel, and nodes for actors and ends of channels; an actor with a name of its
own has the attributes that its element asks for, no matter whether a channel of an earlier block
mentioned it before. -/
theorem application_of_outcome (source : Source) (s : Settings) :
    (∀ f, (compileApplication source s).outcome = .error f ↔
      Unusable source "applicationGraph" s.input f) ∧
    ∀ g, (compileApplication source s).outcome = .ok g →
      ∃ app, openDocument source "applicationGraph" s.input = .ok app ∧
        DrawsApplication s app g := by
  constructor
  · intro f
    rw [← openDocument_eq_error_iff, compileApplication, Reading.open?, Reading.map]
    cases openDocument source "applicationGraph" s.input <;> simp [Except.map]
  · intro g h
    obtain ⟨app, happ, rfl⟩ := compileApplication_eq_ok.mp h
    exact ⟨app, happ, drawsApplication s app⟩

/-- Two blocks: the channel of the first leads to the actor of the second. -/
def sampleBlocks : Source
  | ⟨"top.xml"⟩ => .ok ("<applicationGraph><sdf><actor name=\"A\"/>"
      ++ "<channel srcActor=\"A\" dstActor=\"B\"/></sdf>"
      ++ "<sdf><actor name=\"B\"/></sdf></applicationGraph>")
  | path => .error ⟨["Nothing at " ++ path.text]⟩

/-- The channel of the first block mentions the actor of the second; it has the attributes of its
own element. -/
theorem application_of_outcome_sample :
    ∃ g app actor, (compileApplication sampleBlocks sampleSettings).outcome = .ok g ∧
      openDocument sampleBlocks "applicationGraph" sampleSettings.input = .ok app ∧
      (actorsOf app)[1]? = some actor ∧ actor.element.attr "name" = "B" ∧
      (channelsOf app).map (·.element.attr "dstActor") = ["B"] ∧
      (∀ n ∈ g.nodes, n.region = 1) ∧
      (g.node? "B").map (·.attributes) = some (actorAttributes sampleSettings.config actor) := by
  have hparts : ((openDocument sampleBlocks "applicationGraph"
      sampleSettings.input).toOption.map fun app =>
        (namesOf (actorsOf app), (channelsOf app).map (·.element.attr "dstActor"))) =
          some (["A", "B"], ["B"]) := by
    decide +kernel
  obtain ⟨app, happ, hparts⟩ := Option.map_eq_some_iff.mp hparts
  obtain ⟨hactors, hchannels⟩ := Prod.mk.inj hparts
  have hg : (compileApplication sampleBlocks sampleSettings).outcome =
      .ok (drawApplication sampleSettings app) :=
    compileApplication_eq_ok.mpr ⟨app, eq_ok_of_toOption happ, rfl⟩
  obtain ⟨app', happ', hd⟩ := (application_of_outcome sampleBlocks sampleSettings).2 _ hg
  obtain rfl := Except.ok.inj ((eq_ok_of_toOption happ).symm.trans happ')
  -- the second actor, so that the condition on the others is met by a real other one
  obtain ⟨first, rest, ha, hfirst, hrest⟩ := List.map_eq_cons_iff.mp hactors
  obtain ⟨second, rest, rfl, hsecond, hrest⟩ := List.map_eq_cons_iff.mp hrest
  obtain rfl := List.map_eq_nil_iff.mp hrest
  refine ⟨_, app, second, hg, happ', by rw [ha]; rfl, hsecond, hchannels, hd.node_region, ?_⟩
  have hb := hd.attributes [first] second [] ha ?_ ?_
  · rwa [hsecond] at hb
  · intro other ho
    obtain rfl : other = first := by simpa using ho
    rw [hfirst, hsecond]
    decide
  · rw [hsecond]
    decide

end NetPlot.Network
