/-
  Drawing a tour, step by step.

  1. **Parts** — what one visit contributes: its hidden node, the regions of its roles, a node for
     each process drawn, for each interface port a node and an edge, an edge for each signal.

  2. **Order** — `Visit.steps` puts the steps of the visits inside between the boxes and the
     leaves; `Tour.steps` goes through a tour, a frame in front of each visit.

  3. **Drawing** — the drawing functions make these steps and no others (`drawComposites_eq_run`),
     so the graph of a model is one run (`compile_eq_ok`); there is one if all documents on the
     way can be used, and only then (`compile_ok_iff`).

  From here on the functions of the drawing are not opened again: what is in the graph of a model is
  read off this one list of steps.
-/
import NetPlot.Proofs.Graph.Step
import NetPlot.Proofs.Network.Loading

namespace NetPlot.Network

open NetPlot.Graph NetPlot.Label NetPlot.Xml

/-! ## What one visit contributes

Each part is a function of the visit and the configuration.  None of them looks at the graph, which
is what makes the drawing a list of steps. -/

namespace Visit

/-- The container of a visit and the regions of its roles, which come right after it. -/
def clusters (flags : Flags) (v : Visit) : Clusters :=
  ⟨v.container, (Role.drawn flags).zipIdx (v.container + 1)⟩

/-- The region of a role. -/
def region (flags : Flags) (v : Visit) (role : Role) : RegionId := (v.clusters flags).region role

/-- The region that frames of the visits inside are in. -/
def frameRegion (flags : Flags) (v : Visit) : RegionId := v.region flags (frameRole flags)

/-- The composites drawn as boxes. -/
def boxes (cfg : Config) (v : Visit) : List Cursor :=
  if v.level < cfg.maxLevel then [] else compositesOf v.network

/-- The processes drawn as nodes. -/
def drawn (cfg : Config) (v : Visit) : List Identity :=
  (v.boxes cfg ++ leaves v.network).map (identityAt v.id)

/-- The node that keeps the container from being empty. -/
def hiddenNode (v : Visit) : Node := ⟨v.id.hidden, .ofGiven [("style", "invis")], v.container⟩

/-- The node of a process. -/
def processNode (cfg : Config) (spec ports : Spec) (color : String) (v : Visit) (site : Cursor) :
    Node where
  name := (identityAt v.id site).text
  attributes := recordAttributes (spec.evaluate site) (portsOf ports site) color
  region := v.region cfg.clusters (processRole cfg.clusters
    (hasPorts (portsOf ports site) .input) (hasPorts (portsOf ports site) .output))

/-- The node of a composite drawn as a box. -/
def boxNode (cfg : Config) (v : Visit) (site : Cursor) : Node :=
  v.processNode cfg cfg.labels.composite cfg.labels.compositePort cfg.boxColor site

/-- The node of a leaf process. -/
def leafNode (cfg : Config) (v : Visit) (site : Cursor) : Node :=
  v.processNode cfg cfg.labels.leaf cfg.labels.leafPort cfg.leafColor site

/-- The node of an interface port. -/
def portNode (cfg : Config) (v : Visit) (site : Cursor) : Node where
  name := v.id.boundary (site.element.attr "name")
  attributes := portAttributes cfg (cfg.labels.compositePort.evaluate site)
    (site.element.attr "type")
  region := v.region cfg.clusters
    (portRole cfg.clusters (.ofText (site.element.attr "direction")))

/-- An edge of the network between two ends. -/
def edge (cfg : Config) (v : Visit) (ends : Endpoint × Endpoint) (dataType label : String) :
    Edge where
  tail := ends.1.node
  head := ends.2.node
  attributes := edgeAttributes cfg.direction ends.1 ends.2 dataType label
  region := v.container

/-- The edge of an interface port. -/
def portEdge (cfg : Config) (v : Visit) (site : Cursor) : Edge :=
  v.edge cfg (portEnds (v.drawn cfg) (.ofElement v.id site.element)) (site.element.attr "type") ""

/-- The edge of a signal. -/
def signalEdge (cfg : Config) (v : Visit) (site : Cursor) : Edge :=
  v.edge cfg (signalEnds (v.drawn cfg) (.ofElement v.id site.element)) (site.element.attr "type")
    (pretty (cfg.labels.signal.evaluate site))

/-- The edges of the network. -/
def edges (cfg : Config) (v : Visit) : List Edge :=
  v.ports.map (v.portEdge cfg) ++ v.signals.map (v.signalEdge cfg)

/-! ## Steps

The order of the steps is that of the drawing: what is drawn inside of a composite comes after the
boxes of its network and before the leaves. -/

/-- The region of a role is opened. -/
def roleStep (v : Visit) (role : Role) : Step :=
  .region v.container ("cluster_" ++ v.id.text ++ role.key) (.ofGiven [("label", "")])

/-- The region of a role as it is opened. -/
def roleRegion (v : Visit) (role : Role) : Region :=
  ⟨"cluster_" ++ v.id.text ++ role.key, .ofGiven [("label", "")], some v.container⟩

/-- The steps before the first composite. -/
def openingSteps (cfg : Config) (v : Visit) : List Step :=
  .node v.hiddenNode :: (Role.drawn cfg.clusters).map v.roleStep

/-- The steps for composites drawn as boxes. -/
def boxSteps (cfg : Config) (v : Visit) (sites : List Cursor) : List Step :=
  sites.map fun site => .node (v.boxNode cfg site)

/-- The steps after the last composite. -/
def closingSteps (cfg : Config) (v : Visit) : List Step :=
  (leaves v.network).map (fun site => .node (v.leafNode cfg site))
    ++ v.ports.flatMap (fun site => [.node (v.portNode cfg site), .edge (v.portEdge cfg site)])
    ++ v.signals.map (fun site => .edge (v.signalEdge cfg site))

/-- All steps in a container, where `inner` are those of the visits inside. -/
def steps (cfg : Config) (v : Visit) (inner : List Step) : List Step :=
  v.openingSteps cfg ++ v.boxSteps cfg (v.boxes cfg) ++ inner ++ v.closingSteps cfg

end Visit

/-- The frame of a visit is opened in the region `outer`. -/
def Visit.frameStep (cfg : Config) (outer : RegionId) (site : Cursor) (v : Visit) : Step :=
  .region outer ("cluster_" ++ v.id.text)
    (frameAttributes cfg (pretty (cfg.labels.composite.evaluate site)) (v.level - 1))

/-- The steps of a tour, its frames being in the region `outer`. -/
def Tour.steps (cfg : Config) (outer : RegionId) : Tour → List Step
  | done => []
  | visit site v inner rest =>
    v.frameStep cfg outer site :: v.steps cfg (inner.steps cfg (v.frameRegion cfg.clusters))
      ++ rest.steps cfg outer

/-- The steps of a whole model, from the frame of the root process on. -/
def modelSteps (s : Settings) (v : Visit) (t : Tour) : List Step :=
  .region rootId ("cluster_" ++ s.rootName) (.ofGiven [
      ("label", s.rootName), ("style", "filled, rounded"),
      ("fillcolor", Color.background s.config.gradient 1), ("fontsize", "13")]) ::
    v.steps s.config (t.steps s.config (v.frameRegion s.config.clusters))

/-- The graph that a drawing begins with. -/
def blank (s : Settings) : Graph :=
  .new s.rootName true (.ofGiven [
    ("rankdir", s.config.direction.rankdir), ("fontname", "Helvetica"), ("overlap", "prism"),
    ("splines", "true")])

/-! ## What the steps open and draw

Regions and edges can be read off a list of steps at once; for the nodes, which are merged, see the
mentions of a tour. -/

namespace Visit

variable (cfg : Config) (v : Visit) (inner : List Step)

/-- Before the first composite, the regions of the roles are opened, in their order. -/
theorem regions_openingSteps :
    (v.openingSteps cfg).flatMap Step.regions = (Role.drawn cfg.clusters).map v.roleRegion := by
  simp [openingSteps, Step.regions, roleStep, roleRegion, List.flatMap_assoc, List.map_eq_flatMap]

theorem regions_steps :
    (v.steps cfg inner).flatMap Step.regions =
      (Role.drawn cfg.clusters).map v.roleRegion ++ inner.flatMap Step.regions := by
  rw [steps, List.flatMap_append, List.flatMap_append, List.flatMap_append, regions_openingSteps]
  simp [boxSteps, closingSteps, List.flatMap_assoc, Step.regions, List.map_eq_flatMap]

/-- The edges of a visit come after those of the visits inside. -/
theorem edges_steps :
    (v.steps cfg inner).flatMap Step.edges = inner.flatMap Step.edges ++ v.edges cfg := by
  simp [steps, openingSteps, boxSteps, closingSteps, List.flatMap_assoc,
    Step.edges, roleStep, edges, List.map_eq_flatMap]

end Visit

/-- A visit opens its share of regions and those of the visits inside, the frame in front of it
being one of them. -/
theorem Visit.length_regions_steps (cfg : Config) (v : Visit) {inner : List Step} {n : Nat}
    (h : (inner.flatMap Step.regions).length = width cfg.clusters * n) :
    ((v.steps cfg inner).flatMap Step.regions).length + 1 = width cfg.clusters * (n + 1) := by
  rw [Visit.regions_steps, List.length_append, List.length_map, h, Nat.mul_add, width]
  omega

/-- A tour opens as many regions as its visits need. -/
theorem Tour.length_regions_steps (cfg : Config) (outer : RegionId) (t : Tour) :
    ((t.steps cfg outer).flatMap Step.regions).length = width cfg.clusters * t.size := by
  induction t generalizing outer with
  | done => rfl
  | visit site v inner rest ihi ihr =>
    have hv := v.length_regions_steps cfg (ihi (v.frameRegion cfg.clusters))
    have hf : (v.frameStep cfg outer site).regions.length = 1 := rfl
    rw [Tour.steps, List.flatMap_append, List.length_append, ihr, List.flatMap_cons,
      List.length_append, hf, Nat.add_comm 1, hv, Tour.size, Nat.add_comm 1, ← Nat.mul_add]

/-! ## Drawing

The functions of the drawing thread a graph through loops.  Each loop is shown to be a run of steps,
and a run of a run is a run, so that in the end the drawing of a model is one list of steps. -/

/-- Opening role clusters takes one step for each role. -/
theorem foldl_addRole (container : RegionId) (base : String) (roles : List Role) (g : Graph)
    (regions : List (Role × RegionId)) :
    roles.foldl (Clusters.addRole container base) (g, regions) =
      (g.run (roles.map fun role =>
          .region container (base ++ role.key) (.ofGiven [("label", "")])),
        regions ++ roles.zipIdx g.nextRegion) := by
  induction roles generalizing g regions with
  | nil => simp
  | cons role roles ih =>
    rw [List.foldl_cons, Clusters.addRole, ih]
    simp [apply, nextRegion, addRegion, Graph.regions]

/-- Opening a level is the opening steps of its visit, if the container has the last number so far.
-/
theorem openLevel_eq_run {cfg : Config} {v : Visit} {g : Graph}
    (hn : g.nextRegion = v.container + 1)
    (hr : (g.region? v.container).map (·.name) = some ("cluster_" ++ v.id.text)) :
    openLevel cfg v.id v.container g = (g.run (v.openingSteps cfg), v.clusters cfg.clusters) := by
  have hb : ((g.apply (.node v.hiddenNode)).region? v.container).map (·.name) =
      some ("cluster_" ++ v.id.text) := hr
  have hc : (g.apply (.node v.hiddenNode)).nextRegion = v.container + 1 := hn
  show Clusters.open (g.apply (.node v.hiddenNode)) v.container cfg.clusters = _
  rw [Clusters.open, hb, foldl_addRole, hc]
  rfl

/-- The composites that an expansion leaves as boxes: all of them or none. -/
theorem Expands.boxes_eq {source : Source} {s : Settings} {level : Nat} {parent : Identity}
    {sites : List Cursor} {e : Expansion} (h : Expands source s level parent sites e) :
    e.boxes = if level < s.config.maxLevel then [] else sites := by
  induction h with
  | done => simp [Expansion.boxes]
  | box limit _ ih =>
    rw [Expansion.boxes, ih, if_neg (Nat.not_lt.mpr limit), if_neg (Nat.not_lt.mpr limit)]
  | expand limit _ _ _ _ ih =>
    rw [Expansion.boxes, ih, if_pos limit, if_pos limit]

theorem drawBox_eq_apply (cfg : Config) (v : Visit) (g : Graph) (site : Cursor) :
    drawBox cfg (v.clusters cfg.clusters) v.id g site = g.apply (.node (v.boxNode cfg site)) := rfl

theorem drawLeaf_eq_apply (cfg : Config) (v : Visit) (g : Graph) (site : Cursor) :
    drawLeaf cfg (v.clusters cfg.clusters) v.id g site = g.apply (.node (v.leafNode cfg site)) :=
  rfl

theorem drawPort_eq_run (cfg : Config) (v : Visit) (g : Graph) (site : Cursor) :
    drawPort cfg (v.clusters cfg.clusters) v.id (v.drawn cfg) g site =
      g.run [.node (v.portNode cfg site), .edge (v.portEdge cfg site)] := rfl

theorem drawSignal_eq_apply (cfg : Config) (v : Visit) (g : Graph) (site : Cursor) :
    drawSignal cfg (v.clusters cfg.clusters) v.id (v.drawn cfg) g site =
      g.apply (.edge (v.signalEdge cfg site)) := rfl

/-- What is drawn after the composites are the closing steps. -/
theorem drawRest_eq_run {cfg : Config} {v : Visit} {e : Expansion} (he : e.boxes = v.boxes cfg)
    (g : Graph) :
    drawRest cfg (v.clusters cfg.clusters) v.id ⟨v.network, e⟩ g = g.run (v.closingSteps cfg) := by
  have hd : drawnProcesses v.id ⟨v.network, e⟩ = v.drawn cfg := by
    rw [drawnProcesses, he, Visit.drawn]
  rw [drawRest, hd, Visit.closingSteps, run_append, run_append,
    ← foldl_eq_run_map (drawLeaf_eq_apply cfg v), ← foldl_eq_run (drawPort_eq_run cfg v),
    ← foldl_eq_run_map (drawSignal_eq_apply cfg v)]
  rfl

/-- A network is drawn by the steps of its visit, if its composites are drawn by those of the tour
inside. -/
theorem drawNetwork_eq_run {cfg : Config} {w : Visit} {e : Expansion} {t : Tour} {g : Graph}
    (hb : e.boxes = w.boxes cfg)
    (hc : ∀ g : Graph, g.nextRegion = w.container + width cfg.clusters →
      drawComposites cfg (w.clusters cfg.clusters) w.id w.level e g =
        g.run (w.boxSteps cfg (w.boxes cfg) ++ t.steps cfg (w.frameRegion cfg.clusters)))
    (hn : g.nextRegion = w.container + 1)
    (hr : (g.region? w.container).map (·.name) = some ("cluster_" ++ w.id.text)) :
    drawNetwork cfg w.container w.id w.level ⟨w.network, e⟩ g =
      g.run (w.steps cfg (t.steps cfg (w.frameRegion cfg.clusters))) := by
  have ho : (g.run (w.openingSteps cfg)).nextRegion = w.container + width cfg.clusters := by
    rw [nextRegion_run, hn, Visit.regions_openingSteps, List.length_map, width, Nat.add_assoc]
  rw [drawNetwork, openLevel_eq_run hn hr]
  show drawRest cfg (w.clusters cfg.clusters) w.id ⟨w.network, e⟩
    (drawComposites cfg (w.clusters cfg.clusters) w.id w.level e
      (g.run (w.openingSteps cfg))) = _
  rw [hc _ ho, drawRest_eq_run hb, Visit.steps, run_append, run_append, run_append, run_append]

/-- The composites of a network, drawn one after the other. -/
theorem drawComposites_eq_run {source : Source} {s : Settings} {level : Nat} {parent : Identity}
    {sites : List Cursor} {e : Expansion} (h : Expands source s level parent sites e) :
    ∀ {v : Visit} {g : Graph}, v.level = level → v.id = parent →
      drawComposites s.config (v.clusters s.config.clusters) v.id v.level e g =
        g.run (v.boxSteps s.config (if v.level < s.config.maxLevel then [] else sites)
          ++ (tourAlong source s v g.nextRegion sites).steps s.config
            (v.frameRegion s.config.clusters)) := by
  induction h with
  | done =>
    intro v g _ _
    rw [tourAlong_nil, ite_self]
    rfl
  | @box _ _ site sites rest limit _ ih =>
    intro v g hv hp
    have hl : ¬ v.level < s.config.maxLevel := Nat.not_lt.mpr (hv ▸ limit)
    rw [drawComposites, drawBox_eq_apply, ih hv hp, if_neg hl, if_neg hl,
      tourAlong_of_le (Nat.not_lt.mp hl), tourAlong_of_le (Nat.not_lt.mp hl)]
    rfl
  | @expand _ _ site network sites inner rest limit hn hx _ ihi ihr =>
    intro v g hv hp
    subst hv hp
    let w : Visit := ⟨network, identityAt v.id site, v.level + 1, g.nextRegion⟩
    let opened := g.apply (w.frameStep s.config (v.frameRegion s.config.clusters) site)
    -- the frame is the container of a visit, in which the inner composites are drawn
    have hw : drawNetwork s.config w.container w.id w.level ⟨w.network, inner⟩ opened =
        opened.run (w.steps s.config ((tourBelow source s w).steps s.config
          (w.frameRegion s.config.clusters))) := by
      refine drawNetwork_eq_run hx.boxes_eq (fun g hg => ?_) (nextRegion_addRegion ..) ?_
      · rw [ihi rfl rfl, hg, ← tourBelow_eq]
        rfl
      · exact congrArg (Option.map (·.name)) (region?_addRegion ..)
    show drawComposites s.config (v.clusters s.config.clusters) v.id v.level rest
      (drawNetwork s.config w.container w.id w.level ⟨w.network, inner⟩ opened) = _
    have hnext : (opened.run (w.steps s.config ((tourBelow source s w).steps s.config
        (w.frameRegion s.config.clusters)))).nextRegion =
        g.nextRegion + width s.config.clusters * ((tourBelow source s w).size + 1) := by
      have hv := w.length_regions_steps s.config (Tour.length_regions_steps s.config
        (w.frameRegion s.config.clusters) (tourBelow source s w))
      have ho : opened.nextRegion = g.nextRegion + 1 := nextRegion_addRegion ..
      rw [nextRegion_run, ho, ← hv, Nat.add_assoc, Nat.add_comm 1]
    rw [hw, ihr rfl rfl, hnext, tourAlong_cons_some limit hn, if_pos limit, if_pos limit]
    simp only [Tour.steps, Visit.boxSteps, List.map_nil, List.nil_append, run_append,
      List.cons_append, run_cons]
    rfl

/-- The graph of a model is one run along its tour. -/
theorem drawModel_eq_run {source : Source} {s : Settings} {m : Model}
    (h : Expands source s firstLevel ⟨s.rootName⟩ (compositesOf m.network) m.composites) :
    drawModel s m = (blank s).run (modelSteps s (rootVisit s m.network)
      (tourBelow source s (rootVisit s m.network))) := by
  have hb : m.composites.boxes = (rootVisit s m.network).boxes s.config := h.boxes_eq
  refine drawNetwork_eq_run hb (fun g hg => ?_) rfl rfl
  rw [drawComposites_eq_run h rfl rfl, hg, tourBelow_eq]
  rfl

/-- What a model that compiles has opened and drawn. -/
theorem compile_eq_ok {source : Source} {s : Settings} {g : Graph}
    (h : (compile source s).outcome = .ok g) :
    ∃ network, rootNetwork? source s = some network ∧
      (∃ e, Expands source s firstLevel ⟨s.rootName⟩ (compositesOf network) e) ∧
      (compile source s).opened = s.input ::
        (tourBelow source s (rootVisit s network)).documents s.inDir ∧
      g = (blank s).run (modelSteps s (rootVisit s network)
        (tourBelow source s (rootVisit s network))) := by
  have hc : compile source s = ⟨(compile source s).opened, .ok g⟩ := by rw [← h]
  obtain ⟨m, hm, rfl⟩ := Reading.map_eq_ok.mp hc
  obtain ⟨hn, hx, ho⟩ := load_eq_ok hm
  exact ⟨m.network, hn, ⟨m.composites, hx⟩, ho, drawModel_eq_run hx⟩

/-- A model compiles if and only if all documents that it leads to can be used. -/
theorem compile_ok_iff {source : Source} {s : Settings} :
    (∃ g, (compile source s).outcome = .ok g) ↔ usable source s = true := by
  constructor
  · rintro ⟨g, hg⟩
    obtain ⟨network, hn, ⟨e, hx⟩, -⟩ := compile_eq_ok hg
    rw [usable, hn, Option.any_some]
    exact usableBelow_iff.mpr hx.exists_networkOf
  · intro hu
    obtain ⟨opened, m, hm⟩ := load_of_usable hu
    exact ⟨drawModel s m, by rw [compile, hm]; rfl⟩

end NetPlot.Network
