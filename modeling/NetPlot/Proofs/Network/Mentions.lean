/-
  The nodes that a tour mentions, and whose they are.

  1. **Mentions** — `Visit.mentions` lists what a visit mentions, the visits inside in between;
     `Tour.mentions` goes through a tour.  The steps mention exactly these.

  2. **Owners** — what a visit mentions is owned by its process (`Visit.owns_of_mem_mentions`);
     what a tour mentions is owned by one of its composites (`Tour.exists_owns_of_mem`).

  3. **Side by side** — composites whose names are `Apart` have no name in common
     (`Tour.name_ne_of_mem`).

  Which node an edge ends at, where a node is and what attributes it has all depend on who mentions
  a name, and who does so first.  Here these questions are about one list.
-/
import NetPlot.Proofs.Network.Edges

namespace NetPlot.Network

open NetPlot.Graph NetPlot.Label NetPlot.Xml

variable {cfg : Config} {u v : Visit} {t : Tour} {m : Node} {e : Edge} {n : RegionId}

/-! ## Mentions

Mentions are listed without regions and attributes being merged.  A fact about the nodes of a
drawing becomes one about a list that is put together like the tour. -/

/-- The nodes mentioned after the last composite. -/
def Visit.closingMentions (cfg : Config) (v : Visit) : List Node :=
  (leaves v.network).map (v.leafNode cfg)
    ++ v.ports.flatMap (fun site => v.portNode cfg site :: (v.portEdge cfg site).ends)
    ++ v.signals.flatMap fun site => (v.signalEdge cfg site).ends

/-- The nodes mentioned in a container, where `inner` are those of the visits inside. -/
def Visit.mentions (cfg : Config) (v : Visit) (inner : List Node) : List Node :=
  v.hiddenNode :: (v.boxes cfg).map (v.boxNode cfg) ++ inner ++ v.closingMentions cfg

/-- The nodes that a tour mentions. -/
def Tour.mentions (cfg : Config) : Tour → List Node
  | done => []
  | visit _ v inner rest => v.mentions cfg (inner.mentions cfg) ++ rest.mentions cfg

/-- The steps of a visit mention its own nodes around those of the visits inside. -/
theorem Visit.mentions_steps (cfg : Config) (v : Visit) (inner : List Step) :
    (v.steps cfg inner).flatMap Step.mentions = v.mentions cfg (inner.flatMap Step.mentions) := by
  simp [steps, openingSteps, boxSteps, closingSteps, mentions, closingMentions, List.flatMap_assoc,
    Step.mentions, roleStep, List.map_eq_flatMap]

theorem Tour.mentions_steps (cfg : Config) (outer : RegionId) (t : Tour) :
    (t.steps cfg outer).flatMap Step.mentions = t.mentions cfg := by
  induction t generalizing outer with
  | done => rfl
  | visit site v inner rest ihi ihr =>
    rw [Tour.steps, List.flatMap_append, List.flatMap_cons, Visit.mentions_steps, ihi, ihr]
    rfl

theorem mentions_modelSteps (s : Settings) (v : Visit) (t : Tour) :
    (modelSteps s v t).flatMap Step.mentions = v.mentions s.config (t.mentions s.config) := by
  rw [modelSteps, List.flatMap_cons, Visit.mentions_steps, Tour.mentions_steps]
  rfl

/-- The nodes of a whole model come from what it mentions. -/
theorem nodes_run_modelSteps (s : Settings) (v : Visit) (t : Tour) :
    ((blank s).run (modelSteps s v t)).nodes =
      mentionAll [] (v.mentions s.config (t.mentions s.config)) := by
  rw [nodes_run, mentions_modelSteps]
  rfl

/-- What is mentioned last is a leaf, an interface port or an end of an edge. -/
theorem Visit.mem_closingMentions_iff : m ∈ v.closingMentions cfg ↔
    (∃ site ∈ leaves v.network, v.leafNode cfg site = m) ∨
      (∃ site ∈ v.ports, v.portNode cfg site = m) ∨ ∃ e ∈ v.edges cfg, m ∈ e.ends := by
  simp only [closingMentions, edges, List.mem_append, List.mem_map, List.mem_flatMap,
    List.mem_cons]
  constructor
  · rintro ((h | ⟨site, hs, rfl | h⟩) | ⟨site, hs, h⟩)
    · exact Or.inl h
    · exact Or.inr (Or.inl ⟨site, hs, rfl⟩)
    · exact Or.inr (Or.inr ⟨_, Or.inl ⟨site, hs, rfl⟩, h⟩)
    · exact Or.inr (Or.inr ⟨_, Or.inr ⟨site, hs, rfl⟩, h⟩)
  · rintro (h | ⟨site, hs, rfl⟩ | ⟨_, ⟨site, hs, rfl⟩ | ⟨site, hs, rfl⟩, h⟩)
    · exact Or.inl (Or.inl h)
    · exact Or.inl (Or.inr ⟨site, hs, Or.inl rfl⟩)
    · exact Or.inl (Or.inr ⟨site, hs, Or.inr h⟩)
    · exact Or.inr ⟨site, hs, h⟩

theorem Visit.mem_mentions_of_edge (he : e ∈ v.edges cfg) (hm : m ∈ e.ends) (inner : List Node) :
    m ∈ v.mentions cfg inner :=
  List.mem_append_right _ (mem_closingMentions_iff.mpr (Or.inr (Or.inr ⟨e, he, hm⟩)))

theorem Tour.mem_mentions_of_edge (he : e ∈ t.edges cfg) (hm : m ∈ e.ends) :
    m ∈ t.mentions cfg := by
  induction t with
  | done => exact absurd he List.not_mem_nil
  | visit site v inner rest ihi ihr =>
    rw [Tour.mentions, List.mem_append]
    rw [Tour.edges, List.mem_append, List.mem_append] at he
    rcases he with (he | he) | he
    · exact Or.inl (List.mem_append_left _ (List.mem_append_right _ (ihi he)))
    · exact Or.inl (v.mem_mentions_of_edge he hm _)
    · exact Or.inr (ihr he)

/-! ## Owners

Whatever the names in a document are, what a visit mentions begins with the identity of its process.
This is what keeps the processes of one network apart when their names are. -/

/-- An end is at a child or at the interface of one. -/
theorem inside_resolve (drawn : List Identity) (p : Identity) (x q : String) :
    p.Inside (resolve drawn (p.child x) q).node := by
  rw [resolve]
  split
  · exact p.inside_child x
  · exact p.inside_boundary_child x q

/-- Both ends of the edge of a port are inside of the process. -/
theorem inside_portEnds (drawn : List Identity) (p : Identity) (element : Element) :
    p.Inside (portEnds drawn (.ofElement p element)).1.node ∧
      p.Inside (portEnds drawn (.ofElement p element)).2.node := by
  have ho := p.inside_boundary (element.attr "name")
  have hr := inside_resolve drawn p (element.attr "bound_process") (element.attr "bound_port")
  rw [portEnds]
  cases (PortBinding.ofElement p element).direction with
  | input => exact ⟨ho, hr⟩
  | output => exact ⟨hr, ho⟩

/-- The ends of an edge are inside of the process whose network it belongs to. -/
theorem Visit.inside_of_edge (he : e ∈ v.edges cfg) :
    v.id.Inside e.tail ∧ v.id.Inside e.head := by
  rcases List.mem_append.mp he with he | he
  · obtain ⟨site, -, rfl⟩ := List.mem_map.mp he
    exact inside_portEnds (v.drawn cfg) v.id site.element
  · obtain ⟨site, -, rfl⟩ := List.mem_map.mp he
    exact ⟨inside_resolve .., inside_resolve ..⟩

/-- The edges of a visit are declared in its container. -/
theorem Visit.region_of_edge (he : e ∈ v.edges cfg) : e.region = v.container := by
  rcases List.mem_append.mp he with he | he
  · obtain ⟨site, -, rfl⟩ := List.mem_map.mp he
    rfl
  · obtain ⟨site, -, rfl⟩ := List.mem_map.mp he
    rfl

/-- Leaves, ports and ends of edges are all inside of the process. -/
theorem Visit.inside_of_mem_closingMentions (h : m ∈ v.closingMentions cfg) :
    v.id.Inside m.name := by
  rcases mem_closingMentions_iff.mp h with ⟨site, -, rfl⟩ | ⟨site, -, rfl⟩ | ⟨e, he, hm⟩
  · exact v.id.inside_child _
  · exact v.id.inside_boundary _
  · rcases Edge.mem_ends.mp hm with rfl | rfl
    · exact (inside_of_edge he).1
    · exact (inside_of_edge he).2

/-- What a visit mentions is its hidden node, something inside of it or mentioned by the visits
inside. -/
theorem Visit.mem_mentions_cases {inner : List Node} (h : m ∈ v.mentions cfg inner) :
    m = v.hiddenNode ∨ m ∈ inner ∨ v.id.Inside m.name := by
  rw [mentions, List.mem_append, List.mem_append, List.mem_cons] at h
  rcases h with ((h | h) | h) | h
  · exact Or.inl h
  · obtain ⟨site, -, rfl⟩ := List.mem_map.mp h
    exact Or.inr (Or.inr (v.id.inside_child _))
  · exact Or.inr (Or.inl h)
  · exact Or.inr (Or.inr (inside_of_mem_closingMentions h))

/-- What a tour mentions is owned by one of its composites. -/
theorem Tour.exists_owns_of_mem (h : t.Follows cfg u n) (hm : m ∈ t.mentions cfg) :
    ∃ x ∈ namesOf t.sites, (u.id.child x).Owns m.name := by
  induction t generalizing u n with
  | done => exact absurd hm List.not_mem_nil
  | visit site v inner rest ihi ihr =>
    obtain ⟨hv, -, hi, hr⟩ := h
    rw [Tour.sites, namesOf, List.map_cons]
    rcases List.mem_append.mp hm with hm | hm
    · refine ⟨site.element.attr "name", List.mem_cons_self, ?_⟩
      have hid : u.id.child (site.element.attr "name") = v.id := hv.id.symm
      rw [hid]
      -- what is owned further down is inside of the process of the visit
      rcases Visit.mem_mentions_cases hm with rfl | hm | hm
      · exact Or.inl rfl
      · obtain ⟨x, -, hx⟩ := ihi hi hm
        exact Or.inr (Identity.inside_of_owns_child hx)
      · exact Or.inr hm
    · obtain ⟨x, hx, ho⟩ := ihr hr hm
      exact ⟨x, List.mem_cons_of_mem _ hx, ho⟩

theorem Tour.inside_of_mem (h : t.Follows cfg u n) (hm : m ∈ t.mentions cfg) :
    u.id.Inside m.name := by
  obtain ⟨x, -, hx⟩ := Tour.exists_owns_of_mem h hm
  exact Identity.inside_of_owns_child hx

/-- What a visit mentions is owned by its process. -/
theorem Visit.owns_of_mem_mentions (h : t.Follows cfg v n)
    (hm : m ∈ v.mentions cfg (t.mentions cfg)) : v.id.Owns m.name := by
  rcases Visit.mem_mentions_cases hm with rfl | hm | hm
  · exact Or.inl rfl
  · exact Or.inr (Tour.inside_of_mem h hm)
  · exact Or.inr hm

/-! ## Side by side

With names that are apart and have no mark, the name of a process can be read off any name inside of
it. -/

/-- The names of elements are different and have no `@`. -/
def Apart (sites : List Cursor) : Prop :=
  (namesOf sites).Nodup ∧ ∀ x ∈ namesOf sites, '@' ∉ x.toList

theorem Apart.sublist {sites others : List Cursor} (h : Apart sites) (hs : others.Sublist sites) :
    Apart others :=
  ⟨h.1.sublist (hs.map _), fun x hx => h.2 x ((hs.map _).subset hx)⟩

/-- A visit and the visits that come after it mention no name both. -/
theorem Tour.name_ne_of_mem {site : Cursor} {inner rest : Tour} {k : Node}
    (h : (Tour.visit site v inner rest).Follows cfg u n)
    (ha : Apart (Tour.visit site v inner rest).sites)
    (hm : m ∈ v.mentions cfg (inner.mentions cfg)) (hk : k ∈ rest.mentions cfg) :
    m.name ≠ k.name := by
  intro hmk
  obtain ⟨hv, -, hi, hr⟩ := h
  have hid : v.id = u.id.child (site.element.attr "name") := hv.id
  -- the name would come from two processes of one network, which have different names
  obtain ⟨x, hx, ho⟩ := Tour.exists_owns_of_mem hr hk
  have hs := Visit.owns_of_mem_mentions hi hm
  rw [hid, hmk] at hs
  have hn : site.element.attr "name" ∉ namesOf rest.sites := (List.nodup_cons.mp ha.1).1
  have hxs : site.element.attr "name" = x := Identity.eq_of_owns_of_owns (ha.2 _ List.mem_cons_self)
    (ha.2 _ (List.mem_cons_of_mem _ hx)) hs ho
  exact hn (hxs ▸ hx)

end NetPlot.Network
