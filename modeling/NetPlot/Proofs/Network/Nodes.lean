/-
  The nodes of a model.

  1. **Specification** — each visit has its `elements`: the hidden node of its process, a node for
     each process that it draws and one for each interface port.  Ends of edges that are none of
     these are `Loose`: they have no attributes, and their container is that of the first network
     with an edge there.

  2. **No merging** — where the names of a network are `Plain`, no element has the name of an
     earlier mention (`Tour.settled_mentions`).

  3. **Elements** — the mentions with attributes are the elements (`Tour.filter_mentions_perm`).

  4. **Nodes** — the nodes of a model are its elements and the loose ends of its edges
     (`nodes_of_compile`).

  **The crux** — mentions merge by name, and what merges is hard to list.  With plain names nothing
  but ends of edges is merged into anything, and these bring no attributes.
-/
import NetPlot.Proofs.Network.Placement

namespace NetPlot.Network

open NetPlot.Graph NetPlot.Label NetPlot.Xml

variable {cfg : Config} {u v : Visit} {t : Tour} {m : Node} {e : Edge}

/-! ## Specification

An element is a node that some element of a document asks for.  The ends of edges need not be
elements: a signal may name a process that is not there, and then the drawing gets a node for it all
the same. -/

/-- The names of elements are different and have neither `@` nor `#`. -/
def Plain (sites : List Cursor) : Prop :=
  (namesOf sites).Nodup ∧ ∀ x ∈ namesOf sites, '@' ∉ x.toList ∧ '#' ∉ x.toList

/-- The processes and the interface ports of a network. -/
def Visit.children (v : Visit) : List Cursor :=
  compositesOf v.network ++ leaves v.network ++ v.ports

/-- The nodes of a visit that stand for an element. -/
def Visit.elements (cfg : Config) (v : Visit) : List Node :=
  v.hiddenNode :: (v.boxes cfg).map (v.boxNode cfg) ++ (leaves v.network).map (v.leafNode cfg)
    ++ v.ports.map (v.portNode cfg)

/-- A node for the ends of edges that no element has the name of: it has no attributes and is in
the container of the network whose edge comes first. -/
def Loose (cfg : Config) (vs : List Visit) (edges : List Edge) (n : Node) : Prop :=
  n.attributes = ∅ ∧ (∀ v ∈ vs, ∀ k ∈ v.elements cfg, k.name ≠ n.name) ∧
    ∃ v ∈ vs, ∃ e ∈ v.edges cfg, n.region = v.container ∧
      edges.find? (fun e => e.tail == n.name || e.head == n.name) = some e

/-! ## No merging

A mention merges into an earlier one if both have one name.  What is shown is that the later one
brings no attributes then: it is the end of an edge, since two elements never share a name here. -/

theorem Plain.sublist {sites others : List Cursor} (h : Plain sites) (hs : others.Sublist sites) :
    Plain others :=
  ⟨h.1.sublist (hs.map _), fun x hx => h.2 x ((hs.map _).subset hx)⟩

theorem Plain.apart {sites : List Cursor} (h : Plain sites) : Apart sites :=
  ⟨h.1, fun x hx => (h.2 x hx).1⟩

/-- Elements in different places have different names. -/
theorem Plain.name_ne {sites others : List Cursor} (h : Plain (sites ++ others)) {a b : Cursor}
    (ha : a ∈ sites) (hb : b ∈ others) (p : Identity) :
    (identityAt p a).text ≠ (identityAt p b).text := by
  intro hab
  have hn : a.element.attr "name" = b.element.attr "name" :=
    Identity.child_injective (congrArg Identity.mk hab)
  have hd := h.1
  rw [namesOf, List.map_append, List.nodup_append] at hd
  exact hd.2.2 _ (List.mem_map_of_mem ha) _ (List.mem_map_of_mem hb) hn

/-- Nodes named after elements have different names. -/
theorem Plain.pairwise_name_ne {sites : List Cursor} (h : Plain sites) (p : Identity) :
    sites.Pairwise fun a b => (identityAt p a).text ≠ (identityAt p b).text := by
  have hn := List.pairwise_map.mp h.1
  refine hn.imp fun hab he => hab (Identity.child_injective (congrArg Identity.mk he))

/-- The processes drawn and the interface ports. -/
def Visit.drawnSites (cfg : Config) (v : Visit) : List Cursor :=
  v.boxes cfg ++ (leaves v.network ++ v.ports)

/-- What is drawn of a network are some of its processes and ports. -/
theorem Visit.plain_drawnSites (h : Plain v.children) (cfg : Config) :
    Plain (v.drawnSites cfg) := by
  have hb : (v.boxes cfg).Sublist (compositesOf v.network) := by
    rw [boxes]
    split
    · exact List.nil_sublist _
    · exact List.Sublist.refl _
  rw [children, List.append_assoc] at h
  exact h.sublist (hb.append_right _)

/-- An inner end of an edge does not have the name of an interface port. -/
theorem Visit.portNode_name_ne_resolve (h : Plain (v.drawnSites cfg)) {site : Cursor}
    (hs : site ∈ v.ports) (x q : String) :
    (resolve (v.drawn cfg) (v.id.child x) q).node ≠ (v.portNode cfg site).name := by
  rw [resolve]
  split
  next hd =>
    -- a process that is drawn has another name
    obtain ⟨a, ha, he⟩ := List.mem_map.mp hd
    rw [drawnSites, ← List.append_assoc] at h
    have hne := h.name_ne ha hs v.id
    rw [he] at hne
    exact hne
  next =>
    have hp : site.element.attr "name" ∈ namesOf (v.drawnSites cfg) :=
      List.mem_map_of_mem (List.mem_append_right _ (List.mem_append_right _ hs))
    exact Identity.boundary_child_ne (h.2 _ hp).1

/-- An end of the edge of an interface port has the name of that port, or of no interface port. -/
theorem Visit.portNode_name_ne_end (h : Plain (v.drawnSites cfg)) {a b : Cursor}
    (hb : b ∈ v.ports) (hab : (v.portNode cfg a).name ≠ (v.portNode cfg b).name)
    (hm : m ∈ (v.portEdge cfg a).ends) : m.name ≠ (v.portNode cfg b).name := by
  have hr := portNode_name_ne_resolve h hb (a.element.attr "bound_process")
    (a.element.attr "bound_port")
  rw [portEdge, portEnds] at hm
  cases hd : (PortBinding.ofElement v.id a.element).direction <;> rw [hd] at hm <;>
    rcases Edge.mem_ends.mp hm with rfl | rfl
  · exact hab
  · exact hr
  · exact hr
  · exact hab

/-- What is mentioned after the last composite brings no attributes to an earlier mention. -/
theorem Visit.settled_closingMentions (h : Plain (v.drawnSites cfg)) :
    Settled (v.closingMentions cfg) := by
  have hc : Plain (leaves v.network ++ v.ports) := h.sublist (List.sublist_append_right _ _)
  have hleaves := (hc.sublist (List.sublist_append_left _ _)).pairwise_name_ne v.id
  have hports := (hc.sublist (List.sublist_append_right _ _)).pairwise_name_ne v.id
  -- leaves, then ports with their edges, then signals; only the nodes among them carry attributes
  refine List.pairwise_append.mpr ⟨List.pairwise_append.mpr ⟨?_, ?_, ?_⟩, ?_, ?_⟩
  · exact List.pairwise_map.mpr (hleaves.imp fun hab he => absurd he hab)
  · refine List.pairwise_flatMap.mpr ⟨fun site _ => ?_, ?_⟩
    · -- an interface port comes before the ends of its own edge
      exact List.pairwise_cons.mpr
        ⟨fun b hb _ => Edge.attributes_of_mem_ends hb,
          List.pairwise_of_forall_mem_list fun _ _ b hb _ => Edge.attributes_of_mem_ends hb⟩
    · refine hports.imp_of_mem fun {a b} ha hb hab x hx y hy he => ?_
      rcases List.mem_cons.mp hy with rfl | hy
      · rcases List.mem_cons.mp hx with rfl | hx
        · exact absurd he hab
        · exact absurd he (portNode_name_ne_end h hb hab hx)
      · exact Edge.attributes_of_mem_ends hy
  · intro a ha b hb he
    obtain ⟨leaf, hl, rfl⟩ := List.mem_map.mp ha
    obtain ⟨port, hp, hb⟩ := List.mem_flatMap.mp hb
    rcases List.mem_cons.mp hb with rfl | hb
    · exact absurd he (hc.name_ne hl hp v.id)
    · exact Edge.attributes_of_mem_ends hb
  · refine List.pairwise_of_forall_mem_list fun _ _ b hb _ => ?_
    obtain ⟨site, -, hb⟩ := List.mem_flatMap.mp hb
    exact Edge.attributes_of_mem_ends hb
  · intro a _ b hb _
    obtain ⟨site, -, hb⟩ := List.mem_flatMap.mp hb
    exact Edge.attributes_of_mem_ends hb

/-- What a visit mentions brings no attributes to an earlier mention, if this is so for the visits
inside. -/
theorem Visit.settled_mentions {n : RegionId} (h : Plain (v.drawnSites cfg))
    (hf : t.Follows cfg v n) (ht : Settled (t.mentions cfg)) :
    Settled (v.mentions cfg (t.mentions cfg)) := by
  -- no composite owns the node of an element beside it
  have hplain : ∀ site ∈ v.drawnSites cfg, ∀ k ∈ t.mentions cfg,
      k.name ≠ (identityAt v.id site).text := by
    intro site hs k hk he
    obtain ⟨x, -, hx⟩ := Tour.exists_owns_of_mem hf hk
    rw [he] at hx
    have hn := h.2 _ (List.mem_map_of_mem hs)
    exact Identity.not_owns_of_plain hn.1 hn.2 hx
  have hboxes := (h.sublist (List.sublist_append_left _ _)).pairwise_name_ne v.id
  -- a name inside of the process is not that of its hidden node
  have hhidden : ∀ k ∈ (v.boxes cfg).map (v.boxNode cfg)
      ++ (t.mentions cfg ++ v.closingMentions cfg), v.id.hidden ≠ k.name := by
    intro k hk he
    have hin : v.id.Inside k.name := by
      rcases List.mem_append.mp hk with hk | hk
      · obtain ⟨site, -, rfl⟩ := List.mem_map.mp hk
        exact v.id.inside_child _
      · rcases List.mem_append.mp hk with hk | hk
        · exact Tour.inside_of_mem hf hk
        · exact inside_of_mem_closingMentions hk
    exact v.id.not_inside_hidden (he ▸ hin)
  rw [mentions, List.append_assoc, List.cons_append]
  refine List.pairwise_cons.mpr ⟨fun k hk he => absurd he (hhidden k hk),
    List.pairwise_append.mpr ⟨?_, List.pairwise_append.mpr ⟨ht, settled_closingMentions h, ?_⟩,
      ?_⟩⟩
  · exact List.pairwise_map.mpr (hboxes.imp fun hab he => absurd he hab)
  · intro a ha b hb he
    rcases mem_closingMentions_iff.mp hb with ⟨site, hs, rfl⟩ | ⟨site, hs, rfl⟩ | ⟨e, _, hb⟩
    · exact absurd he (hplain site (by simp [drawnSites, hs]) a ha)
    · exact absurd he (hplain site (by simp [drawnSites, hs]) a ha)
    · exact Edge.attributes_of_mem_ends hb
  · intro a ha b hb he
    obtain ⟨box, hbox, rfl⟩ := List.mem_map.mp ha
    rcases List.mem_append.mp hb with hb | hb
    · exact absurd he.symm (hplain box (by simp [drawnSites, hbox]) b hb)
    · rcases mem_closingMentions_iff.mp hb with ⟨site, hs, rfl⟩ | ⟨site, hs, rfl⟩ | ⟨e, _, hb⟩
      · exact absurd he (h.name_ne hbox (List.mem_append_left _ hs) v.id)
      · exact absurd he (h.name_ne hbox (List.mem_append_right _ hs) v.id)
      · exact Edge.attributes_of_mem_ends hb

/-- What a tour mentions brings no attributes to an earlier mention. -/
theorem Tour.settled_mentions {n : RegionId} (hf : t.Follows cfg u n) (ha : Apart t.sites)
    (hp : ∀ v ∈ t.visits, Plain v.children) : Settled (t.mentions cfg) := by
  induction t generalizing u n with
  | done => exact List.Pairwise.nil
  | visit site v inner rest ihi ihr =>
    have hfv := hf
    obtain ⟨-, hs, hi, hr⟩ := hfv
    have hv := hp v List.mem_cons_self
    -- inside a visit the composites have names of their own, so the induction applies
    have hinner : Settled (inner.mentions cfg) := by
      refine ihi hi ?_ fun w hw => hp w (by simp [hw])
      have hc : Plain (compositesOf v.network) := hv.sublist (by simp [Visit.children])
      exact hc.apart.sublist (hs.trans (v.expanded_sublist cfg))
    refine List.pairwise_append.mpr
      ⟨Visit.settled_mentions (Visit.plain_drawnSites hv cfg) hi hinner,
        ihr hr (ha.sublist (List.sublist_cons_self _ _)) fun w hw => hp w (by simp [hw]),
        fun m hm k hk he => absurd he (Tour.name_ne_of_mem hf ha hm hk)⟩

/-! ## Elements

The order in which elements are mentioned is that of the drawing, leaves after the visits inside;
the specification lists them visit by visit.  So the two lists agree up to their order. -/

/-- A node that keeps its line colour has attributes. -/
theorem nodeAttributes_ne_empty {es : Entries} (h : "color" ∉ Entries.keys es) :
    nodeAttributes es ≠ ∅ := by
  intro he
  have hc : (nodeAttributes es).get? "color" = some "black" := Attributes.get?_override h _
  rw [he] at hc
  cases hc

theorem Visit.attributes_hiddenNode (v : Visit) : v.hiddenNode.attributes ≠ ∅ := by
  show Attributes.ofGiven [("style", "invis")] ≠ ∅
  decide

theorem Visit.attributes_processNode (cfg : Config) (spec ports : Spec) (color : String)
    (v : Visit) (site : Cursor) : (v.processNode cfg spec ports color site).attributes ≠ ∅ :=
  nodeAttributes_ne_empty (by simp [Entries.keys])

theorem Visit.attributes_portNode (cfg : Config) (v : Visit) (site : Cursor) :
    (v.portNode cfg site).attributes ≠ ∅ :=
  nodeAttributes_ne_empty (by simp [Entries.keys])

/-- The mentions with attributes of a visit are its elements and those of the visits inside. -/
theorem Visit.filter_mentions_perm (cfg : Config) (v : Visit) (inner : List Node) :
    ((v.mentions cfg inner).filter (·.attributes ≠ ∅)).Perm
      (v.elements cfg ++ inner.filter (·.attributes ≠ ∅)) := by
  -- the hidden node and the boxes come first, and all of them stay
  have hopen : (v.hiddenNode :: (v.boxes cfg).map (v.boxNode cfg)).filter (·.attributes ≠ ∅) =
      v.hiddenNode :: (v.boxes cfg).map (v.boxNode cfg) := by
    refine List.filter_eq_self.mpr fun k hk => decide_eq_true ?_
    rcases List.mem_cons.mp hk with rfl | hk
    · exact v.attributes_hiddenNode
    · obtain ⟨site, -, rfl⟩ := List.mem_map.mp hk
      exact v.attributes_processNode cfg _ _ cfg.boxColor site
  have hleaves : ((leaves v.network).map (v.leafNode cfg)).filter (·.attributes ≠ ∅) =
      (leaves v.network).map (v.leafNode cfg) := by
    refine List.filter_eq_self.mpr fun k hk => decide_eq_true ?_
    obtain ⟨site, -, rfl⟩ := List.mem_map.mp hk
    exact v.attributes_processNode cfg _ _ cfg.leafColor site
  -- the ends of edges are what is filtered out
  have hends : ∀ e : Edge, e.ends.filter (·.attributes ≠ ∅) = [] := fun e => rfl
  have hclose : (v.closingMentions cfg).filter (·.attributes ≠ ∅) =
      (leaves v.network).map (v.leafNode cfg) ++ v.ports.map (v.portNode cfg) := by
    have hport : ∀ site, (v.portNode cfg site :: (v.portEdge cfg site).ends).filter
        (·.attributes ≠ ∅) = [v.portNode cfg site] := fun site => by
      rw [List.filter_cons, if_pos (decide_eq_true (v.attributes_portNode cfg site)), hends]
    rw [closingMentions, List.filter_append, List.filter_append, hleaves, List.filter_flatMap,
      List.filter_flatMap]
    simp only [hport, hends, flatMap_none, List.append_nil, List.map_eq_flatMap]
  rw [mentions, List.filter_append, List.filter_append, hopen, hclose, elements,
    List.append_assoc, List.append_assoc, List.append_assoc, ← List.append_assoc _ (v.ports.map _)]
  exact List.perm_append_comm.append_left _

/-- The same for a tour, by induction, the order of the elements aside. -/
theorem Tour.filter_mentions_perm (cfg : Config) (t : Tour) :
    ((t.mentions cfg).filter (·.attributes ≠ ∅)).Perm (t.visits.flatMap (·.elements cfg)) := by
  induction t with
  | done => exact List.Perm.refl []
  | visit site v inner rest ihi ihr =>
    rw [Tour.mentions, List.filter_append, Tour.visits, List.cons_append, List.flatMap_cons,
      List.flatMap_append, ← List.append_assoc]
    exact ((v.filter_mentions_perm cfg _).trans (ihi.append_left _)).append ihr

/-- The steps of a visit draw its elements, those of the visits inside aside. -/
theorem Visit.mem_elements_of_steps {inner : List Step} (h : .node m ∈ v.steps cfg inner) :
    m ∈ v.elements cfg ∨ .node m ∈ inner := by
  simp only [steps, openingSteps, boxSteps, closingSteps, roleStep, List.mem_append,
    List.mem_cons, List.mem_map, List.mem_flatMap, List.not_mem_nil, Step.node.injEq,
    reduceCtorEq, and_false, exists_false, or_false] at h
  simp only [elements, List.mem_append, List.mem_cons, List.mem_map]
  rcases h with (h | h) | h | ⟨site, hs, rfl⟩
  · exact Or.inl (Or.inl (Or.inl h))
  · exact Or.inr h
  · exact Or.inl (Or.inl (Or.inr h))
  · exact Or.inl (Or.inr ⟨site, hs, rfl⟩)

/-- What a tour adds as a node with attributes is an element of one of its visits. -/
theorem Tour.mem_elements_of_steps {outer : RegionId} (h : .node m ∈ t.steps cfg outer) :
    ∃ v ∈ t.visits, m ∈ v.elements cfg := by
  induction t generalizing outer with
  | done => exact absurd h List.not_mem_nil
  | visit site v inner rest ihi ihr =>
    rw [Tour.steps, List.cons_append, List.mem_cons, List.mem_append] at h
    rcases h with h | h | h
    · cases h
    · rcases Visit.mem_elements_of_steps h with h | h
      · exact ⟨v, List.mem_cons_self, h⟩
      · obtain ⟨w, hw, hm⟩ := ihi h
        exact ⟨w, by simp [hw], hm⟩
    · obtain ⟨w, hw, hm⟩ := ihr h
      exact ⟨w, by simp [hw], hm⟩

theorem mem_elements_of_modelSteps {s : Settings} (h : .node m ∈ modelSteps s v t) :
    ∃ w ∈ v :: t.visits, m ∈ w.elements s.config := by
  rw [modelSteps, List.mem_cons] at h
  rcases h with h | h
  · cases h
  · rcases Visit.mem_elements_of_steps h with h | h
    · exact ⟨v, List.mem_cons_self, h⟩
    · obtain ⟨w, hw, hm⟩ := Tour.mem_elements_of_steps h
      exact ⟨w, List.mem_cons_of_mem v hw, hm⟩

/-- The mentions with attributes of a whole model are its elements. -/
theorem filter_mentions_perm (cfg : Config) (v : Visit) (t : Tour) :
    ((v.mentions cfg (t.mentions cfg)).filter (·.attributes ≠ ∅)).Perm
      ((v :: t.visits).flatMap (·.elements cfg)) :=
  (v.filter_mentions_perm cfg _).trans ((t.filter_mentions_perm cfg).append_left _)

/-- Every element of a visit has a node of its name. -/
theorem Drawn.exists_node_of_element {g : Graph} {w : Visit} (hd : Drawn cfg v t g)
    (hw : w ∈ v :: t.visits) (hm : m ∈ w.elements cfg) : ∃ n, g.node? m.name = some n := by
  have he : m ∈ (v.mentions cfg (t.mentions cfg)).filter (·.attributes ≠ ∅) :=
    (filter_mentions_perm cfg v t).mem_iff.mpr (List.mem_flatMap.mpr ⟨w, hw, hm⟩)
  have hn : m.name ∈ g.nodes.map (·.name) := by
    rw [hd.nodes, mem_names_mentionAll, List.nil_append]
    exact List.mem_map_of_mem (List.mem_filter.mp he).1
  obtain ⟨k, hk, hkm⟩ := List.mem_map.mp hn
  exact Option.isSome_iff_exists.mp (List.find?_isSome.mpr ⟨k, hk, named_iff.mpr hkm⟩)

/-! ## Nodes

A name finds its first mention.  If that brings attributes it is an element; if not, no element has
the name at all, and the first edge with an end there says which container the node is in. -/

/-- Where nothing is merged, the nodes are the elements and the loose ends of edges. -/
theorem mem_nodes_iff {s : Settings} (h : Settled (v.mentions s.config (t.mentions s.config)))
    {n : Node} :
    n ∈ mentionAll [] (v.mentions s.config (t.mentions s.config)) ↔
      (∃ w ∈ v :: t.visits, n ∈ w.elements s.config) ∨
        Loose s.config (v :: t.visits) (t.edges s.config ++ v.edges s.config) n := by
  have helement : ∀ k, (∃ w ∈ v :: t.visits, k ∈ w.elements s.config) ↔
      k ∈ v.mentions s.config (t.mentions s.config) ∧ k.attributes ≠ ∅ := by
    intro k
    rw [← List.mem_flatMap, ← (filter_mentions_perm s.config v t).mem_iff, List.mem_filter,
      decide_eq_true_iff]
  have hedge : (∀ w ∈ v :: t.visits, ∀ k ∈ w.elements s.config, k.name ≠ n.name) →
      (v.mentions s.config (t.mentions s.config)).find? (named n.name) =
        ((t.edges s.config ++ v.edges s.config).find?
          fun e => e.tail == n.name || e.head == n.name).map fun e => ⟨n.name, ∅, e.region⟩ := by
    intro hk
    rw [← mentions_modelSteps, ← edges_modelSteps]
    refine find?_mentions_of_edges fun k hs => ?_
    obtain ⟨w, hw, hm⟩ := mem_elements_of_modelSteps hs
    exact hk w hw k hm
  -- every edge belongs to one of the visits
  have hvisit : ∀ e ∈ t.edges s.config ++ v.edges s.config,
      ∃ w ∈ v :: t.visits, e ∈ w.edges s.config := by
    intro e he
    rcases List.mem_append.mp he with he | he
    · obtain ⟨w, hw, he⟩ := Tour.mem_edges_iff.mp he
      exact ⟨w, List.mem_cons_of_mem v hw, he⟩
    · exact ⟨v, List.mem_cons_self, he⟩
  rw [mem_mentionAll_iff h]
  constructor
  · intro hn
    by_cases ha : n.attributes = ∅
    · right
      have hk : ∀ w ∈ v :: t.visits, ∀ k ∈ w.elements s.config, k.name ≠ n.name := by
        intro w hw k hm he
        obtain ⟨hk, hka⟩ := (helement k).mp ⟨w, hw, hm⟩
        have hf := find?_of_settled h hk hka
        rw [he, hn] at hf
        exact hka (Option.some.inj hf ▸ ha)
      have hf := hedge hk
      rw [hn] at hf
      obtain ⟨e, he, hne⟩ := Option.map_eq_some_iff.mp hf.symm
      have hreg : e.region = n.region := congrArg Node.region hne
      obtain ⟨w, hw, hwe⟩ := hvisit e (List.mem_of_find?_eq_some he)
      exact ⟨ha, hk, w, hw, e, hwe, hreg ▸ Visit.region_of_edge hwe, he⟩
    · exact Or.inl ((helement n).mpr ⟨List.mem_of_find?_eq_some hn, ha⟩)
  · rintro (hn | ⟨ha, hk, w, hw, e, he, hr, hf⟩)
    · obtain ⟨hm, ha⟩ := (helement n).mp hn
      exact find?_of_settled h hm ha
    · rw [hedge hk, hf, Option.map_some, Visit.region_of_edge he, ← hr, ← ha]

/-- **Nodes.**  If the processes and interface ports of each network have different names without
`@` and `#`, then no two nodes have the same name, the nodes with attributes are the elements of
the networks, each once and as it is, and the other nodes are loose ends of edges.  Containers and
role regions are those of the network in question. -/
theorem nodes_of_compile {source : Source} {s : Settings} {g : Graph}
    (h : (compile source s).outcome = .ok g)
    (hp : ∀ v ∈ visits source s, Plain v.children) :
    (g.nodes.map (·.name)).Nodup ∧
    (g.nodes.filter (·.attributes ≠ ∅)).Perm
      ((visits source s).flatMap (·.elements s.config)) ∧
    (∀ n, n ∈ g.nodes ↔ (∃ v ∈ visits source s, n ∈ v.elements s.config) ∨
      Loose s.config (visits source s) g.edges n) ∧
    ∀ v ∈ visits source s, v.Placed g s.config := by
  obtain ⟨v, t, hvs, hd⟩ := exists_drawn_of_compile h
  rw [hvs] at hp ⊢
  have hpv := hp v List.mem_cons_self
  have hcomposites : Plain (compositesOf v.network) := hpv.sublist (by simp [Visit.children])
  -- names apart give mentions that settle, and these determine the list of nodes
  have hat : Apart t.sites :=
    hcomposites.apart.sublist (hd.sites.trans (v.expanded_sublist s.config))
  have hinner : Settled (t.mentions s.config) :=
    Tour.settled_mentions hd.follows hat fun w hw => hp w (List.mem_cons_of_mem v hw)
  have hsettled : Settled (v.mentions s.config (t.mentions s.config)) :=
    Visit.settled_mentions (Visit.plain_drawnSites hpv s.config) hd.follows hinner
  rw [hd.nodes, hd.edges]
  refine ⟨names_mentionAll_nodup (by simp) _, ?_, fun n => mem_nodes_iff hsettled, ?_⟩
  · rw [filter_mentionAll (by rwa [List.nil_append]), List.nil_append]
    exact filter_mentions_perm s.config v t
  · intro w hw
    rcases List.mem_cons.mp hw with rfl | hw
    · exact hd.placed
    · exact Tour.placed_of_mem_visits hd.inside hw

/-- The names in the small model are plain. -/
theorem nodes_of_compile_sample :
    ∃ g, (compile sampleSource sampleSettings).outcome = .ok g ∧
      (∀ v ∈ visits sampleSource sampleSettings, Plain v.children) ∧
      (g.nodes.map (·.name)).Nodup ∧
      (g.nodes.filter (·.attributes ≠ ∅)).Perm
        ((visits sampleSource sampleSettings).flatMap (·.elements sampleSettings.config)) ∧
      (∀ n, n ∈ g.nodes ↔
        (∃ v ∈ visits sampleSource sampleSettings, n ∈ v.elements sampleSettings.config) ∨
          Loose sampleSettings.config (visits sampleSource sampleSettings) g.edges n) ∧
      ∀ v ∈ visits sampleSource sampleSettings, v.Placed g sampleSettings.config := by
  obtain ⟨g, hg⟩ := compile_ok_iff.mpr sample_visits.1
  have hp : ∀ v ∈ visits sampleSource sampleSettings, Plain v.children := by
    intro v hv
    have hc : namesOf v.children =
        namesOf (compositesOf v.network) ++ namesOf (leaves v.network) ++ namesOf v.ports := by
      simp [namesOf, Visit.children]
    rcases sample_names hv with ⟨hx, hl, hq⟩ | ⟨hx, hl, hq⟩ <;>
      rw [Plain, hc, hx, hl, hq] <;> decide +kernel
  exact ⟨g, hg, hp, nodes_of_compile hg hp⟩

end NetPlot.Network
