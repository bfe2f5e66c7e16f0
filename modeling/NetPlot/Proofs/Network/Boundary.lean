/-
  The interface of a composite, seen from inside and from outside.

  1. **Branches** — `Tour.branches` lists the visits of a tour, each with the tour inside of it.
     The steps of a visit end with its own nodes and edges; everything of the tour inside comes
     before them (`Tour.exists_split`).

  2. **Composites** — for every composite that a model expands there is a visit of its network
     (`exists_branch`).

  3. **Interface** — an edge that leads to a port of an expanded composite ends at the node that
     the network of the composite has for this port, and that node is there before the edge is
     (`boundary_of_compile`).

  **The crux** — a composite that is expanded has no node of its own that an edge could end at.  The
  edge ends at a node inside of the frame, and both sides have to find the same name for it, the
  outer one without a look inside.
-/
import NetPlot.Proofs.Network.Containers

namespace NetPlot.Network

open NetPlot.Graph NetPlot.Label NetPlot.Xml

variable {source : Source} {s : Settings} {cfg : Config} {u v w : Visit} {t inner : Tour} {n : Nat}

/-! ## Branches

A visit inside of a tour comes with the tour inside of it, since what is drawn for its interface
comes after that tour. -/

/-- The visits of a tour, each with the tour inside of it. -/
def Tour.branches : Tour → List (Visit × Tour)
  | done => []
  | visit _ v inner rest => (v, inner) :: inner.branches ++ rest.branches

@[simp] theorem Tour.mem_branches {site : Cursor} {rest : Tour} :
    (w, t) ∈ (visit site v inner rest).branches ↔
      (w = v ∧ t = inner) ∨ (w, t) ∈ inner.branches ∨ (w, t) ∈ rest.branches := by
  simp [branches]

theorem Tour.map_branches (t : Tour) : t.branches.map (·.1) = t.visits := by
  induction t with
  | done => rfl
  | visit site v inner rest ihi ihr =>
    rw [branches, visits, List.map_append, List.map_cons, ihi, ihr]

/-- What is known of a tour is known of the tours inside of it, where they begin. -/
theorem Tour.follows_of_mem_branches (h : t.Follows cfg u n) (hb : (w, inner) ∈ t.branches) :
    inner.Follows cfg w (w.container + width cfg.clusters) := by
  induction t generalizing u n with
  | done => exact absurd hb List.not_mem_nil
  | visit site v inner' rest ihi ihr =>
    obtain ⟨hv, -, hi, hr⟩ := h
    rcases mem_branches.mp hb with ⟨rfl, rfl⟩ | hb | hb
    · exact hv.container ▸ hi
    · exact ihi hi hb
    · exact ihr hr hb

theorem Tour.mem_visits_of_branches (hb : (w, inner) ∈ t.branches) : w ∈ t.visits := by
  rw [← t.map_branches]
  exact List.mem_map_of_mem hb

/-! ## Closing a visit

The nodes of an interface are drawn when a visit ends, and the edges around it when the visit around
it ends.  To say that the nodes come first, `Closes` keeps apart what is drawn up to the end of the
visit and what comes after; enclosing steps add to the front and to the back (`Closes.around`). -/

/-- No edge is drawn in a region. -/
def NoEdgeIn (k : RegionId) (steps : List Step) : Prop :=
  ∀ e ∈ steps.flatMap Step.edges, e.region ≠ k

theorem NoEdgeIn.append {k : RegionId} {ss ts : List Step} (hs : NoEdgeIn k ss)
    (ht : NoEdgeIn k ts) : NoEdgeIn k (ss ++ ts) := by
  intro e he
  rw [List.flatMap_append] at he
  exact (List.mem_append.mp he).elim (hs e) (ht e)

theorem NoEdgeIn.of_nil {k : RegionId} {ss : List Step} (h : ss.flatMap Step.edges = []) :
    NoEdgeIn k ss := by
  intro e he
  rw [h] at he
  exact absurd he List.not_mem_nil

/-- The steps come to the end of the visit `w`: the tour inside of it is in front, and none of the
edges of `w` is. -/
def Closes (cfg : Config) (w : Visit) (inner : Tour) (steps : List Step) : Prop :=
  ∃ front back, steps = front ++ w.closingSteps cfg ++ back ∧
    inner.steps cfg (w.frameRegion cfg.clusters) ⊆ front ∧ NoEdgeIn w.container front

namespace Closes

variable {steps : List Step}

/-- More steps around those that come to the end of a visit. -/
theorem around (h : Closes cfg w inner steps) {before : List Step}
    (hb : NoEdgeIn w.container before) (after : List Step) :
    Closes cfg w inner (before ++ steps ++ after) := by
  obtain ⟨front, back, rfl, hi, he⟩ := h
  exact ⟨before ++ front, back ++ after, by simp only [List.append_assoc],
    List.subset_append_of_subset_right before hi, hb.append he⟩

theorem closingSteps_subset (h : Closes cfg w inner steps) : w.closingSteps cfg ⊆ steps := by
  obtain ⟨front, back, rfl, -, -⟩ := h
  exact List.subset_append_of_subset_left back (List.subset_append_right front _)

/-- An edge of the visit comes after all that is drawn inside of it. -/
theorem subset_before (h : Closes cfg w inner steps) {before after : List Step} {e : Edge}
    (hs : steps = before ++ .edge e :: after) (he : e.region = w.container) :
    inner.steps cfg (w.frameRegion cfg.clusters) ⊆ before := by
  obtain ⟨front, back, rfl, hi, hn⟩ := h
  have hf : .edge e ∉ front := fun hm =>
    hn e (List.mem_flatMap.mpr ⟨_, hm, List.mem_singleton_self e⟩) he
  rw [List.append_assoc, List.append_eq_append_iff] at hs
  -- the two splits of the steps agree up to the shorter front
  rcases hs with ⟨more, rfl, -⟩ | ⟨more, rfl, hm⟩
  · exact List.subset_append_of_subset_left more hi
  · -- else the edge would be in front
    cases more with
    | nil => simpa using hi
    | cons x more =>
      obtain rfl : .edge e = x := (List.cons.inj hm).1
      exact absurd (List.mem_append_right before List.mem_cons_self) hf

end Closes

/-- A region outside of a tour has none of the edges of its steps. -/
theorem Tour.noEdgeIn_steps (h : t.Follows cfg u n) {k : Nat}
    (hk : k < n ∨ n + width cfg.clusters * t.size ≤ k) (outer : RegionId) :
    NoEdgeIn k (t.steps cfg outer) := by
  intro e he hr
  rw [edges_steps] at he
  exact List.filter_eq_nil_iff.mp (filter_edges_of_outside h hk) e he (beq_iff_eq.mpr hr)

/-- There is no edge in front of the tour inside of a visit. -/
theorem Visit.noEdgeIn_front (cfg : Config) (v : Visit) (k : RegionId) :
    NoEdgeIn k (v.openingSteps cfg ++ v.boxSteps cfg (v.boxes cfg)) :=
  .of_nil (by
    simp [openingSteps, boxSteps, List.flatMap_assoc, Step.edges, roleStep, List.map_eq_flatMap])

/-- The edges after the tour inside of a visit are in its own container. -/
theorem Visit.noEdgeIn_closingSteps {k : Nat} (hk : k ≠ v.container) :
    NoEdgeIn k (v.closingSteps cfg) := by
  intro e he
  have he : e ∈ v.edges cfg := by
    simpa [closingSteps, List.flatMap_assoc, Step.edges, edges, List.map_eq_flatMap] using he
  rw [region_of_edge he]
  exact hk.symm

/-- The steps of a visit come to its own end. -/
theorem Visit.closes (h : inner.Follows cfg w (w.container + width cfg.clusters)) :
    Closes cfg w inner (w.steps cfg (inner.steps cfg (w.frameRegion cfg.clusters))) := by
  refine ⟨_, [], (List.append_nil _).symm, List.subset_append_right _ _, ?_⟩
  exact (w.noEdgeIn_front cfg _).append
    (Tour.noEdgeIn_steps h (Or.inl (Nat.lt_add_of_pos_right (width_pos _))) _)

/-- The steps of a tour come to the end of each of its visits. -/
theorem Tour.closes (h : t.Follows cfg u n) (hb : (w, inner) ∈ t.branches) (outer : RegionId) :
    Closes cfg w inner (t.steps cfg outer) := by
  induction t generalizing u n outer with
  | done => exact absurd hb List.not_mem_nil
  | visit site v below rest ihi ihr =>
    obtain ⟨hv, -, hi, hr⟩ := h
    obtain rfl : v.container = n := hv.container
    have hframe : ∀ k, NoEdgeIn k [v.frameStep cfg outer site] := fun k => .of_nil rfl
    rw [Tour.steps]
    -- the visit itself, one inside it, or one of a later site
    rcases mem_branches.mp hb with ⟨rfl, rfl⟩ | hb | hb
    · exact (Visit.closes hi).around (hframe _) (rest.steps cfg outer)
    · have hw := (ihi hi hb (v.frameRegion cfg.clusters)).around
        ((hframe _).append (v.noEdgeIn_front cfg _)) (v.closingSteps cfg ++ rest.steps cfg outer)
      simpa only [Visit.steps, List.append_assoc, List.cons_append, List.nil_append] using hw
    · -- the containers of later visits have larger numbers than all that comes before
      have hm := (container_mem hr (mem_visits_of_branches hb)).1
      have hp := width_pos cfg.clusters
      rw [Nat.mul_add, Nat.mul_one] at hm
      have hbelow : NoEdgeIn w.container (below.steps cfg (v.frameRegion cfg.clusters)) :=
        noEdgeIn_steps hi (Or.inr (by omega)) _
      have hlast : NoEdgeIn w.container (v.closingSteps cfg) :=
        Visit.noEdgeIn_closingSteps (by omega)
      have hw := (ihr hr hb outer).around ((hframe _).append
        (((v.noEdgeIn_front cfg _).append hbelow).append hlast)) []
      rwa [List.append_nil] at hw

/-! ## Composites

By induction on the tour: each composite that is expanded at a visit has a branch of its own, and
the branches of a branch are branches of the whole. -/

/-- The tour is the one inside of the visit, and all documents on it can be used. -/
def Whole (source : Source) (s : Settings) (b : Visit × Tour) : Prop :=
  b.2 = tourBelow source s b.1 ∧ usableBelow source s b.1.level b.1.network = true

/-- Along the sites of a visit, every branch is whole if those below the next level are. -/
theorem whole_tourAlong
    (h : v.level < s.config.maxLevel → ∀ w : Visit, w.level = v.level + 1 →
      usableBelow source s w.level w.network = true →
        ∀ b ∈ (tourBelow source s w).branches, Whole source s b)
    (next : RegionId) (sites : List Cursor)
    (hu : v.level < s.config.maxLevel → ∀ site ∈ sites, ∃ network,
      networkOf? source s.inDir site = some network ∧
        usableBelow source s (v.level + 1) network = true) :
    ∀ b ∈ (tourAlong source s v next sites).branches, Whole source s b := by
  -- on the last level no site opens; above it each site of the list has a usable network
  by_cases hl : v.level < s.config.maxLevel
  · induction sites generalizing next with
    | nil =>
      rw [tourAlong_nil]
      exact fun b hb => absurd hb List.not_mem_nil
    | cons site sites ih =>
      have ih := fun next => ih next fun hl x hx => hu hl x (List.mem_cons_of_mem site hx)
      obtain ⟨network, hn, hw⟩ := hu hl site List.mem_cons_self
      rw [tourAlong_cons_some hl hn]
      rintro ⟨w, t⟩ hb
      rcases Tour.mem_branches.mp hb with ⟨rfl, rfl⟩ | hb | hb
      · exact ⟨rfl, hw⟩
      · exact h hl _ rfl hw _ hb
      · exact ih _ _ hb
  · rw [tourAlong_of_le (Nat.not_lt.mp hl)]
    exact fun b hb => absurd hb List.not_mem_nil

/-- A model that can be used is toured as a whole: by the recursion of the tour. -/
theorem whole_tourBelow (hu : usableBelow source s v.level v.network = true) :
    ∀ b ∈ (tourBelow source s v).branches, Whole source s b := by
  fun_induction tourBelow source s v with
  | case1 v hl ih =>
    have h := whole_tourAlong (fun _ w hw hu => ih w hw hu) (v.container + width s.config.clusters)
      (compositesOf v.network) (usableBelow_iff.mp hu)
    rw [tourAlong, if_pos hl] at h
    exact h
  | case2 => exact fun b hb => absurd hb List.not_mem_nil

/-- There is a visit for every composite along a tour. -/
theorem exists_branch_along (hl : v.level < s.config.maxLevel) {sites : List Cursor}
    (hu : ∀ site ∈ sites, ∃ network, networkOf? source s.inDir site = some network)
    (next : RegionId) {site : Cursor} (hs : site ∈ sites) :
    ∃ w t, (w, t) ∈ (tourAlong source s v next sites).branches ∧
      networkOf? source s.inDir site = some w.network ∧ w.id = identityAt v.id site ∧
        w.level = v.level + 1 := by
  induction sites generalizing next with
  | nil => exact absurd hs List.not_mem_nil
  | cons other sites ih =>
    obtain ⟨network, hn⟩ := hu other List.mem_cons_self
    rw [tourAlong_cons_some hl hn]
    rcases List.mem_cons.mp hs with rfl | hs
    · exact ⟨_, _, Tour.mem_branches.mpr (Or.inl ⟨rfl, rfl⟩), hn, rfl, rfl⟩
    · obtain ⟨w, t, hb, hw⟩ := ih (fun x hx => hu x (List.mem_cons_of_mem other hx)) _ hs
      exact ⟨w, t, Tour.mem_branches.mpr (Or.inr (Or.inr hb)), hw⟩

/-- What is visited inside of a visit of a tour is visited along the tour. -/
theorem Tour.branches_subset (hb : (w, inner) ∈ t.branches) : inner.branches ⊆ t.branches := by
  induction t with
  | done => exact absurd hb List.not_mem_nil
  | visit site v below rest ihi ihr =>
    intro b hm
    -- the visit is the first one, or one inside of it, or a later one
    rcases mem_branches.mp hb with ⟨rfl, rfl⟩ | hb | hb
    · exact mem_branches.mpr (Or.inr (Or.inl hm))
    · exact mem_branches.mpr (Or.inr (Or.inl (ihi hb hm)))
    · exact mem_branches.mpr (Or.inr (Or.inr (ihr hb hm)))

/-! ## Whole models -/

/-- The steps that draw the model; none if its own document cannot be used. -/
def drawing (source : Source) (s : Settings) : List Step :=
  match rootNetwork? source s with
  | none => []
  | some network => modelSteps s (rootVisit s network) (tourBelow source s (rootVisit s network))

/-- All visits of a model, each with the tour inside of it. -/
def branches (source : Source) (s : Settings) : List (Visit × Tour) :=
  match rootNetwork? source s with
  | none => []
  | some network =>
    let v := rootVisit s network
    (v, tourBelow source s v) :: (tourBelow source s v).branches

theorem map_branches (source : Source) (s : Settings) :
    (branches source s).map (·.1) = visits source s := by
  cases hn : rootNetwork? source s with
  | none => rw [branches, visits, hn, List.map_nil]
  | some network => rw [branches, hn, visits_eq hn, List.map_cons, Tour.map_branches]

theorem mem_visits_of_branches (h : (w, t) ∈ branches source s) : w ∈ visits source s := by
  rw [← map_branches]
  exact List.mem_map_of_mem h

/-- The steps of a model come to the end of each of its visits. -/
theorem closes_drawing (h : (w, inner) ∈ branches source s) :
    inner.Follows s.config w (w.container + width s.config.clusters) ∧
      Closes s.config w inner (drawing source s) := by
  cases hn : rootNetwork? source s with
  | none =>
    rw [branches, hn] at h
    exact absurd h List.not_mem_nil
  | some network =>
    obtain ⟨-, hf⟩ := follows_tourBelow source s (rootVisit s network)
    rw [branches, hn] at h
    rw [drawing, hn]
    -- the frame of the whole drawing holds no edge
    have hroot : ∀ k, NoEdgeIn k [.region rootId ("cluster_" ++ s.rootName) (.ofGiven [
        ("label", s.rootName), ("style", "filled, rounded"),
        ("fillcolor", Color.background s.config.gradient 1), ("fontsize", "13")])] :=
      fun k => .of_nil rfl
    -- either the root, whose edges come last of all, or a visit inside it
    rcases List.mem_cons.mp h with h | hb
    · obtain ⟨rfl, rfl⟩ := Prod.mk.inj h
      have hc := (Visit.closes hf).around (hroot _) []
      rw [List.append_nil] at hc
      exact ⟨hf, hc⟩
    · have hc := (Tour.closes hf hb ((rootVisit s network).frameRegion s.config.clusters)).around
        ((hroot _).append ((rootVisit s network).noEdgeIn_front s.config _))
        ((rootVisit s network).closingSteps s.config)
      refine ⟨Tour.follows_of_mem_branches hf hb, ?_⟩
      simpa only [modelSteps, Visit.steps, List.append_assoc, List.cons_append,
        List.nil_append] using hc

/-- A model that compiles has used all of its documents, and has a visit for every composite that
it expands. -/
theorem exists_branch (hu : usable source s = true) (hv : (v, t) ∈ branches source s)
    {site : Cursor} (hs : site ∈ v.expanded s.config) :
    ∃ w inner, (w, inner) ∈ t.branches ∧ (w, inner) ∈ branches source s ∧
      networkOf? source s.inDir site = some w.network ∧ w.id = identityAt v.id site ∧
        w.level = v.level + 1 := by
  cases hn : rootNetwork? source s with
  | none =>
    rw [branches, hn] at hv
    exact absurd hv List.not_mem_nil
  | some network =>
    rw [usable, hn, Option.any_some] at hu
    rw [branches, hn] at hv ⊢
    -- the visit is that of the root, or one of those below
    have hwhole : Whole source s (v, t) ∧
        t.branches ⊆ (tourBelow source s (rootVisit s network)).branches := by
      rcases List.mem_cons.mp hv with hv | hv
      · obtain ⟨rfl, rfl⟩ := Prod.mk.inj hv
        exact ⟨⟨rfl, hu⟩, List.Subset.refl _⟩
      · exact ⟨whole_tourBelow hu _ hv, Tour.branches_subset hv⟩
    obtain ⟨⟨ht, hv⟩, hsub⟩ := hwhole
    obtain rfl : t = tourBelow source s v := ht
    rw [Visit.expanded] at hs
    split at hs
    next hl =>
      have hnets : ∀ site ∈ compositesOf v.network, ∃ network,
          networkOf? source s.inDir site = some network := by
        intro site hs
        obtain ⟨network, hn, -⟩ := usableBelow_iff.mp hv hl site hs
        exact ⟨network, hn⟩
      obtain ⟨w, inner, hb, hw⟩ := exists_branch_along hl hnets
        (v.container + width s.config.clusters) hs
      rw [← tourBelow_eq] at hb
      exact ⟨w, inner, hb, List.mem_cons_of_mem _ (hsub hb), hw⟩
    next => exact absurd hs List.not_mem_nil

/-! ## Interfaces

Both sides name the node by the identity of the composite and the name of the port.  The side
outside does so without a look at the document inside. -/

/-- What is there under a name stays as it is when an edge is added. -/
theorem node?_apply_edge {g : Graph} {x : String} {m : Node} (h : g.node? x = some m) (e : Edge) :
    (g.apply (.edge e)).node? x = some m := by
  have hm : ∀ (ns : List Node) (y : String), ns.find? (named x) = some m →
      (mention e.region y ∅ ns).find? (named x) = some m := by
    intro ns y hx
    rw [find?_mention ⟨y, ∅, e.region⟩ x ns, hx]
    split
    · rfl
    · rfl
  exact hm _ e.head (hm _ e.tail h)

/-- A node that a step has drawn is there. -/
theorem exists_node? {steps : List Step} {m : Node} (h : .node m ∈ steps) (g : Graph) :
    ∃ k, (g.run steps).node? m.name = some k := by
  have hm : m ∈ g.nodes ++ steps.flatMap Step.mentions :=
    List.mem_append_right _ (List.mem_flatMap.mpr ⟨_, h, List.mem_singleton_self m⟩)
  have hn : m.name ∈ (g.run steps).nodes.map (·.name) := by
    rw [nodes_run]
    exact mem_names_mentionAll.mpr (List.mem_map_of_mem hm)
  obtain ⟨k, hk, he⟩ := List.mem_map.mp hn
  exact Option.isSome_iff_exists.mp (List.find?_isSome.mpr ⟨k, hk, named_iff.mpr he⟩)

/-- An expanded process meets the level around it at one of its interface ports: `w` is the visit
of the process `x` in the network of `v`. -/
structure Meets (source : Source) (s : Settings) (v : Visit) (x : String) (w : Visit)
    (port : Cursor) : Prop where
  /-- Where the level around it looks for the port is where its own network has it. -/
  resolves : resolve (v.drawn s.config) (v.id.child x) (port.element.attr "name") =
    .bare (PortBinding.ofElement w.id port.element).node
  placed : (w.portNode s.config port).name = (PortBinding.ofElement w.id port.element).node
  /-- An edge from the port leaves this node, with no field but a side. -/
  tail : ∀ wire ∈ v.wires s.config, wire.tail = .inner x (port.element.attr "name") →
    tailEnd (v.wireEdge s.config wire) =
      ((w.portNode s.config port).name, some s.config.direction.outputSide)
  /-- An edge to the port enters this node, with no field but a side. -/
  head : ∀ wire ∈ v.wires s.config, wire.head = .inner x (port.element.attr "name") →
    headEnd (v.wireEdge s.config wire) =
      ((w.portNode s.config port).name, some s.config.direction.inputSide)
  /-- Wherever such an edge is drawn, the node has been drawn before, and the edge leaves it as it
  is. -/
  before : ∀ wire ∈ v.wires s.config,
    wire.tail = .inner x (port.element.attr "name") ∨
        wire.head = .inner x (port.element.attr "name") →
      ∀ before after, drawing source s = before ++ .edge (v.wireEdge s.config wire) :: after →
        .node (w.portNode s.config port) ∈ before ∧
          ∃ m, ((blank s).run before).node? (w.portNode s.config port).name = some m ∧
            (((blank s).run before).apply (.edge (v.wireEdge s.config wire))).node?
              (w.portNode s.config port).name = some m

/-- A composite that is expanded is not shown as a node, unless a leaf has its name. -/
theorem endOf_expanded {site : Cursor} (hs : site ∈ v.expanded cfg)
    (hl : site.element.attr "name" ∉ namesOf (leaves v.network)) (q : String) :
    endOf cfg v.id v.level v.network (site.element.attr "name") q =
      .bare ((identityAt v.id site).boundary q) := by
  have hlt : v.level < cfg.maxLevel := Decidable.byContradiction fun hn => by
    rw [Visit.expanded, if_neg hn] at hs
    exact List.not_mem_nil hs
  have hshown : ¬ IsShown cfg v.level v.network (site.element.attr "name") := fun h =>
    h.elim hl fun hm => Nat.not_le.mpr hlt hm.1
  rw [endOf, if_neg hshown]
  rfl

/-- The visit inside of another one that has its identity from a composite meets the level around it
there. -/
theorem meets_of_branches (hb : (v, t) ∈ branches source s) (hw : (w, inner) ∈ t.branches)
    {site port : Cursor} (hid : w.id = identityAt v.id site) (hs : site ∈ v.expanded s.config)
    (hl : site.element.attr "name" ∉ namesOf (leaves v.network)) (hp : port ∈ w.ports) :
    Meets source s v (site.element.attr "name") w port := by
  -- seen from outside, a port of an expanded process is the boundary node of the inside
  have hend : ∀ q, endOf s.config v.id v.level v.network (site.element.attr "name") q =
      .bare (w.id.boundary q) := fun q => hid ▸ endOf_expanded hs hl q
  refine ⟨?_, rfl, fun wire _ ht => ?_, fun wire _ hh => ?_, fun wire _ _ before after hd => ?_⟩
  · rw [resolve_drawn, hend]
    rfl
  · rw [tailEnd_wireEdge, ht, Terminal.endAt, hend]
    rfl
  · rw [headEnd_wireEdge, hh, Terminal.endAt, hend]
    rfl
  · -- the port is drawn at the end of the visit inside, which comes before the edges around it
    obtain ⟨hf, hc⟩ := closes_drawing hb
    have hport : .node (w.portNode s.config port) ∈ w.closingSteps s.config :=
      List.mem_append_left _ (List.mem_append_right _
        (List.mem_flatMap.mpr ⟨port, hp, List.mem_cons_self⟩))
    have hmem := hc.subset_before hd rfl
      ((Tour.closes hf hw (v.frameRegion s.config.clusters)).closingSteps_subset hport)
    obtain ⟨m, hm⟩ := exists_node? hmem (blank s)
    exact ⟨hmem, m, hm, node?_apply_edge hm _⟩

/-- **Interfaces.**  Where an edge of a network leads to an interface port of a composite that is
expanded, it ends at the node that the network of the composite has for the port.  That node is
there before the edge is, and the end has no field. -/
theorem boundary_of_compile {g : Graph} (h : (compile source s).outcome = .ok g) :
    g = (blank s).run (drawing source s) ∧
      ∀ v ∈ visits source s,
        g.edgesIn v.container = (v.wires s.config).map (v.wireEdge s.config) ∧
          ∀ site ∈ v.expanded s.config,
            site.element.attr "name" ∉ namesOf (leaves v.network) →
              ∃ w ∈ visits source s, networkOf? source s.inDir site = some w.network ∧
                w.id = identityAt v.id site ∧ w.level = v.level + 1 ∧
                  ∀ port ∈ w.ports, Meets source s v (site.element.attr "name") w port := by
  have hg : g = (blank s).run (drawing source s) := by
    obtain ⟨network, hn, -, -, rfl⟩ := compile_eq_ok h
    rw [drawing, hn]
  have hu : usable source s = true := compile_ok_iff.mp ⟨g, h⟩
  refine ⟨hg, fun v hv => ⟨edgesIn_container_of_compile h hv, fun site hs hl => ?_⟩⟩
  rw [← map_branches] at hv
  obtain ⟨⟨v, t⟩, hb, rfl⟩ := List.mem_map.mp hv
  -- the branch of the composite is the visit that it meets
  obtain ⟨w, inner, hw, hwb, hn, hid, hlevel⟩ := exists_branch hu hb hs
  exact ⟨w, mem_visits_of_branches hwb, hn, hid, hlevel,
    fun _ hp => meets_of_branches hb hw hid hs hl hp⟩

/-- In the small model, `X` is expanded, and its inside meets the level around it at every port. -/
theorem boundary_of_compile_sample :
    ∃ g, (compile sampleSource sampleSettings).outcome = .ok g ∧
      ((visits sampleSource sampleSettings).map fun v =>
        (namesOf (v.expanded sampleSettings.config), namesOf (leaves v.network),
          v.signals.map fun x => (x.element.attr "source", x.element.attr "source_port"))) =
        [(["X"], [], [("X", "o")]), ([], ["L"], [])] ∧
      ∀ v ∈ visits sampleSource sampleSettings,
        ∀ site ∈ v.expanded sampleSettings.config,
          site.element.attr "name" ∉ namesOf (leaves v.network) →
            ∃ w ∈ visits sampleSource sampleSettings, w.id = identityAt v.id site ∧
              ∀ port ∈ w.ports,
                Meets sampleSource sampleSettings v (site.element.attr "name") w port := by
  obtain ⟨g, hg⟩ := compile_ok_iff.mpr sample_visits.1
  refine ⟨g, hg, by decide +kernel, fun v hv site hs hl => ?_⟩
  obtain ⟨w, hw, -, hid, -, hp⟩ := ((boundary_of_compile hg).2 v hv).2 site hs hl
  exact ⟨w, hw, hid, hp⟩

end NetPlot.Network
