/-
  The edges of a model, in order.

  1. **Specification** — `edgesOf` lists the connections that a network asks for, straight from
     the documents: first those of the expanded composites, one after the other, then one for each
     interface port, then one for each signal.  `endOf` says where an end is: at the node of a
     process that the level shows, or at the interface of one that it does not show.

  2. **Bridge** — the processes drawn before the edges of a visit are those that the level shows
     (`resolve_drawn`), and the attributes of an edge are written out (`entries_edgeAttributes`).

  3. **Edges** — the graph has these edges, in this order, and no others
     (`edges_of_compile`).

  The documents are read twice, by the program and by the specification, and the two meet in the
  tour.
-/
import NetPlot.Proofs.Graph.Attributes
import NetPlot.Proofs.Network.Naming
import NetPlot.Proofs.Network.Steps

namespace NetPlot.Network

open NetPlot.Graph NetPlot.Label NetPlot.Xml

/-! ## Specification

The specification has no graph, no regions and no drawing in it.  It is a recursion over documents
that lists connections, each from one port or one signal. -/

/-- A tail, a head and attributes in order. -/
abbrev Connection := String × String × Entries

/-- An edge as a connection, whatever region declares it. -/
def connectionOf (e : Edge) : Connection := (e.tail, e.head, e.attributes.entries)

/-- Is the process `x` of a network shown as a node at a level?  Leaves are, composites from the
detail level on. -/
def IsShown (cfg : Config) (level : Nat) (network : Cursor) (x : String) : Prop :=
  x ∈ namesOf (leaves network) ∨ (cfg.maxLevel ≤ level ∧ x ∈ namesOf (compositesOf network))

instance (cfg : Config) (level : Nat) (network : Cursor) (x : String) :
    Decidable (IsShown cfg level network x) :=
  inferInstanceAs (Decidable (_ ∨ _))

/-- The end at the port `q` of the process `x`. -/
def endOf (cfg : Config) (id : Identity) (level : Nat) (network : Cursor) (x q : String) :
    Endpoint :=
  if IsShown cfg level network x then ⟨id.text ++ "@" ++ x, some q⟩
  else ⟨id.text ++ "@" ++ x ++ "@" ++ q, none⟩

/-- The connection between two ends: data leaves a node on one side and enters on the other. -/
def connectionBetween (cfg : Config) (tail head : Endpoint) (dataType label : String) :
    Connection :=
  (tail.node, head.node,
    [("tailport", anchor tail.port cfg.direction.outputSide),
      ("headport", anchor head.port cfg.direction.inputSide)]
    ++ (if isEmphasized dataType then [("style", "bold"), ("penwidth", "2")]
      else [("penwidth", "1")])
    ++ (if label = "" then [] else [("label", label)]))

/-- The connection of an interface port: from the port inwards if it is an input, else to it. -/
def portConnection (cfg : Config) (id : Identity) (level : Nat) (network : Cursor)
    (port : Cursor) : Connection :=
  let own : Endpoint := ⟨id.text ++ "@" ++ port.element.attr "name", none⟩
  let peer := endOf cfg id level network (port.element.attr "bound_process")
    (port.element.attr "bound_port")
  if port.element.attr "direction" = "in" then
    connectionBetween cfg own peer (port.element.attr "type") ""
  else connectionBetween cfg peer own (port.element.attr "type") ""

/-- The connection of a signal, from its source to its target. -/
def signalConnection (cfg : Config) (id : Identity) (level : Nat) (network : Cursor)
    (signal : Cursor) : Connection :=
  connectionBetween cfg
    (endOf cfg id level network (signal.element.attr "source")
      (signal.element.attr "source_port"))
    (endOf cfg id level network (signal.element.attr "target")
      (signal.element.attr "target_port"))
    (signal.element.attr "type") (pretty (cfg.labels.signal.evaluate signal))

/-- The connections that a network asks for; none if a document on the way cannot be used. -/
def edgesOf (source : Source) (s : Settings) (id : Identity) (level : Nat) (network : Cursor) :
    Option (List Connection) :=
  (if level < s.config.maxLevel then
    (compositesOf network).mapM fun site =>
      (networkOf? source s.inDir site).bind fun inner =>
        edgesOf source s (identityAt id site) (level + 1) inner
  else some []).map fun inner =>
    inner.flatten
      ++ (network.childrenNamed "port").map (portConnection s.config id level network)
      ++ (network.childrenNamed "signal").map (signalConnection s.config id level network)
termination_by s.config.maxLevel - level

/-! ## Bridge

The specification finds an end by the level alone.  The program looks it up among the processes that
have been drawn so far; when the edges of a visit are drawn, all of its processes have been. -/

/-- An anchor always has a side in it, so it is never left out as an empty attribute. -/
theorem anchor_ne_empty (port : Option String) {side : String} (h : side ≠ "") :
    anchor port side ≠ "" := by
  cases port with
  | none => exact h
  | some p =>
    rw [anchor]
    split
    · exact h
    · simp

/-- The attributes of an edge, written out in the order of the connection. -/
theorem entries_edgeAttributes (cfg : Config) (tail head : Endpoint) (dataType label : String) :
    (tail.node, head.node, (edgeAttributes cfg.direction tail head dataType label).entries) =
      connectionBetween cfg tail head dataType label := by
  have ho : cfg.direction.outputSide ≠ "" := by cases cfg.direction <;> decide
  have hi : cfg.direction.inputSide ≠ "" := by cases cfg.direction <;> decide
  have ht := anchor_ne_empty tail.port ho
  have hh := anchor_ne_empty head.port hi
  rw [edgeAttributes, Attributes.entries_ofGiven (by simp [Entries.keys]), connectionBetween]
  by_cases he : isEmphasized dataType = true <;> by_cases hl : label = "" <;>
    simp [he, hl, ht, hh]

/-- A child is among the processes of some elements if its name is. -/
theorem mem_map_identityAt {p : Identity} {x : String} {sites : List Cursor} :
    p.child x ∈ sites.map (identityAt p) ↔ x ∈ namesOf sites := by
  rw [namesOf, List.mem_map, List.mem_map]
  constructor
  · rintro ⟨site, hs, h⟩
    exact ⟨site, hs, Identity.child_injective h⟩
  · rintro ⟨site, hs, rfl⟩
    exact ⟨site, hs, rfl⟩

/-- The processes drawn in a visit are those that its level shows. -/
theorem mem_drawn_iff {cfg : Config} {v : Visit} {x : String} :
    v.id.child x ∈ v.drawn cfg ↔ IsShown cfg v.level v.network x := by
  rw [Visit.drawn, List.map_append, List.mem_append, mem_map_identityAt, mem_map_identityAt,
    IsShown, or_comm, Visit.boxes]
  by_cases hl : v.level < cfg.maxLevel
  · rw [if_pos hl]
    simp [namesOf, Nat.not_le.mpr hl]
  · rw [if_neg hl]
    simp [Nat.not_lt.mp hl]

/-- So an end is found where the specification says that it is. -/
theorem resolve_drawn (cfg : Config) (v : Visit) (x q : String) :
    resolve (v.drawn cfg) (v.id.child x) q = endOf cfg v.id v.level v.network x q := by
  rw [endOf]
  by_cases h : IsShown cfg v.level v.network x
  · rw [resolve_of_mem (mem_drawn_iff.mpr h), if_pos h]
    rfl
  · rw [resolve_of_not_mem (mt mem_drawn_iff.mp h), if_neg h]
    rfl

theorem connectionOf_edge (cfg : Config) (v : Visit) (ends : Endpoint × Endpoint)
    (dataType label : String) :
    connectionOf (v.edge cfg ends dataType label) =
      connectionBetween cfg ends.1 ends.2 dataType label :=
  entries_edgeAttributes cfg ends.1 ends.2 dataType label

/-- The edge of an interface port is the connection that the port asks for. -/
theorem connectionOf_portEdge (cfg : Config) (v : Visit) (site : Cursor) :
    connectionOf (v.portEdge cfg site) = portConnection cfg v.id v.level v.network site := by
  rw [Visit.portEdge, connectionOf_edge, portConnection, ← resolve_drawn]
  by_cases hd : site.element.attr "direction" = "in"
  · simp [portEnds, PortBinding.ofElement, Direction.ofText, hd, Endpoint.bare, Identity.boundary]
  · simp [portEnds, PortBinding.ofElement, Direction.ofText, hd, Endpoint.bare, Identity.boundary]

theorem connectionOf_signalEdge (cfg : Config) (v : Visit) (site : Cursor) :
    connectionOf (v.signalEdge cfg site) = signalConnection cfg v.id v.level v.network site := by
  rw [Visit.signalEdge, connectionOf_edge, signalConnection, ← resolve_drawn, ← resolve_drawn]
  rfl

/-- The edges of a visit are the connections of its ports and then of its signals. -/
theorem map_connectionOf_edges (cfg : Config) (v : Visit) :
    (v.edges cfg).map connectionOf =
      v.ports.map (portConnection cfg v.id v.level v.network)
        ++ v.signals.map (signalConnection cfg v.id v.level v.network) := by
  rw [Visit.edges, List.map_append, List.map_map, List.map_map]
  congr 1
  · exact List.map_congr_left fun site _ => connectionOf_portEdge cfg v site
  · exact List.map_congr_left fun site _ => connectionOf_signalEdge cfg v site

/-! ## Edges of tours

The edges of a network come after those of the networks inside of it, in the steps as in the
specification.  The induction is on the expansion, whose rules are the two kinds of composites. -/

/-- The edges of a tour, those of a network after those of the networks inside of it. -/
def Tour.edges (cfg : Config) : Tour → List Edge
  | done => []
  | visit _ v inner rest => inner.edges cfg ++ v.edges cfg ++ rest.edges cfg

/-- The edges of a tour are those of its visits. -/
theorem Tour.mem_edges_iff {cfg : Config} {t : Tour} {e : Edge} :
    e ∈ t.edges cfg ↔ ∃ v ∈ t.visits, e ∈ v.edges cfg := by
  induction t with
  | done => simp [edges, visits]
  | visit site v inner rest ihi ihr =>
    rw [Tour.edges, List.mem_append, List.mem_append, ihi, ihr]
    simp only [mem_visits]
    -- the order differs, as a visit draws its edges after those inside, but not the members
    constructor
    · rintro ((⟨w, hw, he⟩ | he) | ⟨w, hw, he⟩)
      · exact ⟨w, Or.inr (Or.inl hw), he⟩
      · exact ⟨v, Or.inl rfl, he⟩
      · exact ⟨w, Or.inr (Or.inr hw), he⟩
    · rintro ⟨w, rfl | hw | hw, he⟩
      · exact Or.inl (Or.inr he)
      · exact Or.inl (Or.inl ⟨w, hw, he⟩)
      · exact Or.inr ⟨w, hw, he⟩

/-- The steps of a tour draw its edges and no others. -/
theorem Tour.edges_steps (cfg : Config) (outer : RegionId) (t : Tour) :
    (t.steps cfg outer).flatMap Step.edges = t.edges cfg := by
  induction t generalizing outer with
  | done => rfl
  | visit site v inner rest ihi ihr =>
    rw [Tour.steps, List.flatMap_append, List.flatMap_cons, Visit.edges_steps, ihi, ihr]
    rfl

theorem edges_modelSteps (s : Settings) (v : Visit) (t : Tour) :
    (modelSteps s v t).flatMap Step.edges = t.edges s.config ++ v.edges s.config := by
  rw [modelSteps, List.flatMap_cons, Visit.edges_steps, Tour.edges_steps]
  rfl

/-- The edges of a whole model: those of the tour, then those of the root. -/
theorem edges_run_modelSteps (s : Settings) (v : Visit) (t : Tour) :
    ((blank s).run (modelSteps s v t)).edges = t.edges s.config ++ v.edges s.config := by
  rw [edges_run, edges_modelSteps]
  rfl

/-- The connections that some composites of a network ask for. -/
def edgesOfSites (source : Source) (s : Settings) (id : Identity) (level : Nat)
    (sites : List Cursor) : Option (List Connection) :=
  (if level < s.config.maxLevel then
    sites.mapM fun site =>
      (networkOf? source s.inDir site).bind fun inner =>
        edgesOf source s (identityAt id site) (level + 1) inner
  else some []).map List.flatten

/-- The connections of a network are those of its composites and then its own. -/
theorem edgesOf_eq_map (source : Source) (s : Settings) (v : Visit) :
    edgesOf source s v.id v.level v.network =
      (edgesOfSites source s v.id v.level (compositesOf v.network)).map
        (· ++ (v.edges s.config).map connectionOf) := by
  rw [edgesOf, edgesOfSites, Option.map_map, map_connectionOf_edges]
  simp only [Function.comp_def, List.append_assoc]
  rfl

theorem edgesOfSites_of_le {source : Source} {s : Settings} {level : Nat}
    (h : s.config.maxLevel ≤ level) (id : Identity) (sites : List Cursor) :
    edgesOfSites source s id level sites = some [] := by
  rw [edgesOfSites, if_neg (Nat.not_lt.mpr h)]
  rfl

theorem edgesOfSites_nil (source : Source) (s : Settings) (id : Identity) (level : Nat) :
    edgesOfSites source s id level [] = some [] := by
  rw [edgesOfSites]
  split <;> rfl

/-- A composite asks for what the network in its document does, in front of the others. -/
theorem edgesOfSites_cons {source : Source} {s : Settings} {level : Nat}
    (h : level < s.config.maxLevel) {site network : Cursor}
    (hn : networkOf? source s.inDir site = some network) (id : Identity) (sites : List Cursor)
    {cs ds : List Connection}
    (hc : edgesOf source s (identityAt id site) (level + 1) network = some cs)
    (hd : edgesOfSites source s id level sites = some ds) :
    edgesOfSites source s id level (site :: sites) = some (cs ++ ds) := by
  rw [edgesOfSites, if_pos h, Option.map_eq_some_iff] at hd ⊢
  obtain ⟨dss, hd, rfl⟩ := hd
  refine ⟨cs :: dss, ?_, rfl⟩
  rw [List.mapM_cons, hn, Option.bind_some, hc, hd]
  rfl

/-- Composites ask for the edges of the tour along them. -/
theorem Expands.edgesOfSites_eq {source : Source} {s : Settings} {level : Nat}
    {parent : Identity} {sites : List Cursor} {e : Expansion}
    (h : Expands source s level parent sites e) :
    ∀ {v : Visit} {next : RegionId}, v.level = level → v.id = parent →
      edgesOfSites source s v.id v.level sites =
        some (((tourAlong source s v next sites).edges s.config).map connectionOf) := by
  induction h with
  | done =>
    intro v next _ _
    rw [edgesOfSites_nil, tourAlong_nil]
    rfl
  | box limit _ _ =>
    intro v next hv _
    rw [edgesOfSites_of_le (hv ▸ limit), tourAlong_of_le (hv ▸ limit)]
    rfl
  | @expand _ _ site network sites inner rest limit hn _ _ ihi ihr =>
    intro v next hv hp
    subst hv hp
    let w : Visit := ⟨network, identityAt v.id site, v.level + 1, next⟩
    -- the visit of the first composite asks for the edges inside of it, then for its own
    have hw : edgesOf source s w.id w.level w.network =
        some (((tourBelow source s w).edges s.config ++ w.edges s.config).map connectionOf) := by
      rw [edgesOf_eq_map, ihi rfl rfl, ← tourBelow_eq, List.map_append]
      rfl
    rw [edgesOfSites_cons limit hn v.id sites hw (ihr rfl rfl), tourAlong_cons_some limit hn,
      ← List.map_append]
    rfl

/-- A network asks for the edges of the tour inside of it, then for its own. -/
theorem Expands.edgesOf_eq {source : Source} {s : Settings} {v : Visit} {e : Expansion}
    (h : Expands source s v.level v.id (compositesOf v.network) e) :
    edgesOf source s v.id v.level v.network =
      some (((tourBelow source s v).edges s.config ++ v.edges s.config).map connectionOf) := by
  rw [edgesOf_eq_map, h.edgesOfSites_eq rfl rfl, ← tourBelow_eq, List.map_append]
  rfl

/-! ## Edges of models -/

/-- **Edges.**  A model that compiles has exactly the edges that its documents ask for, in the
order of the documents: those of expanded composites first, then one for each interface port, then
one for each signal of a network. -/
theorem edges_of_compile {source : Source} {s : Settings} {g : Graph}
    (h : (compile source s).outcome = .ok g) :
    (rootNetwork? source s).bind (edgesOf source s ⟨s.rootName⟩ 2) =
      some (g.edges.map connectionOf) := by
  obtain ⟨network, hn, ⟨e, hx⟩, -, rfl⟩ := compile_eq_ok h
  have hv : Expands source s (rootVisit s network).level (rootVisit s network).id
      (compositesOf (rootVisit s network).network) e := hx
  rw [hn, Option.bind_some, edges_run_modelSteps]
  exact hv.edgesOf_eq

/-- The small model is drawn with the edges of its specification. -/
theorem edges_of_compile_sample :
    ∃ g, (compile sampleSource sampleSettings).outcome = .ok g ∧
      (rootNetwork? sampleSource sampleSettings).bind
        (edgesOf sampleSource sampleSettings ⟨sampleSettings.rootName⟩ 2) =
          some (g.edges.map connectionOf) := by
  obtain ⟨g, hg⟩ := compile_ok_iff.mpr sample_visits.1
  exact ⟨g, hg, edges_of_compile hg⟩

end NetPlot.Network
