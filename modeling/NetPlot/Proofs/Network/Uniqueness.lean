/-
  Which parts of a model share a node.

  1. **Parts** — a process or an interface port of a network that is visited.  A process has the
     node of its identity, an interface port that of the boundary of the process around it; both
     names are put together with the same mark.

  2. **Specification** — two parts `Clash` if one is a process, the other an interface port, and
     both are in the same network under the same name.  Where the processes and the interface ports
     of a network have different names among themselves (`WellNamed`), nothing else shares a node.

  3. **Subtrees** — the names of the parts of a tour are owned by its composites
     (`Tour.exists_owns_of_part`), so a part of a network and a part further down never meet.

  4. **Sharing** — two parts of a model have the same node if and only if they clash
     (`sharing_of_compile`).

  **The crux** — the marks in names tell where one part of a name ends, but not what kind of thing
  is named.  So a process and a port of one name in one network meet, and without marks in the names
  nothing else does.
-/
import NetPlot.Proofs.Network.Nodes

namespace NetPlot.Network

open NetPlot.Graph NetPlot.Label NetPlot.Xml

variable {cfg : Config} {u v : Visit} {t : Tour}

/-! ## Parts -/

/-- What a part of a network is. -/
inductive PartKind where
  | process
  | port

/-- A process or an interface port of a network that is visited. -/
structure Part where
  visit : Visit
  kind : PartKind
  site : Cursor

namespace Part

/-- The name that the element of the part has in its network. -/
def name (p : Part) : String := p.site.element.attr "name"

/-- The name of the node of the part. -/
def node (p : Part) : String :=
  match p.kind with
  | .process => (p.visit.id.child p.name).text
  | .port => p.visit.id.boundary p.name

/-- The first one is a process and the second one an interface port, with the same name in the same
network. -/
structure Clash (p q : Part) : Prop where
  visit : p.visit = q.visit
  process : p.kind = .process
  port : q.kind = .port
  name : p.name = q.name

end Part

/-- Processes and interface ports of a network as parts, the processes first. -/
def Visit.partsOf (v : Visit) (processes : List Cursor) : List Part :=
  processes.map (⟨v, .process, ·⟩) ++ v.ports.map (⟨v, .port, ·⟩)

/-- All parts of a network. -/
def Visit.parts (v : Visit) : List Part := v.partsOf (compositesOf v.network ++ leaves v.network)

/-- The parts of a network that have a node: all but the composites that are expanded. -/
def Visit.drawnParts (cfg : Config) (v : Visit) : List Part :=
  v.partsOf (v.boxes cfg ++ leaves v.network)

/-- All parts of a model. -/
def parts (source : Source) (s : Settings) : List Part :=
  (visits source s).flatMap (·.parts)

/-- The parts of a model that have a node. -/
def drawnParts (source : Source) (s : Settings) : List Part :=
  (visits source s).flatMap (·.drawnParts s.config)

/-- The processes of a network have different names, the interface ports have different names, and
no name has `@` or `#`. -/
structure Visit.WellNamed (v : Visit) : Prop where
  processes : (namesOf (compositesOf v.network ++ leaves v.network)).Nodup
  ports : (namesOf v.ports).Nodup
  plain : ∀ x ∈ namesOf v.children, '@' ∉ x.toList ∧ '#' ∉ x.toList

/-! ## One network

All parts of a network have their names behind the same identity, so the node tells the name. What
it does not tell is the kind of the part. -/

/-- Either kind of part has its name behind the identity of the process around it. -/
theorem Part.node_eq (p : Part) : p.node = p.visit.id.text ++ "@" ++ p.name := by
  rw [node]
  split <;> rfl

theorem Part.inside_node (p : Part) : p.visit.id.Inside p.node := ⟨p.name, p.node_eq⟩

/-- Parts of one network share a node if they have the same name. -/
theorem Part.node_eq_node_iff (v : Visit) (j k : PartKind) (a b : Cursor) :
    (⟨v, j, a⟩ : Part).node = (⟨v, k, b⟩ : Part).node ↔
      a.element.attr "name" = b.element.attr "name" := by
  rw [node_eq, node_eq, String.append_right_inj]
  rfl

/-- A part of a visit is one of its processes or interface ports. -/
theorem Visit.mem_partsOf {processes : List Cursor} {p : Part} (h : p ∈ v.partsOf processes) :
    p.visit = v ∧ (p.site ∈ processes ∨ p.site ∈ v.ports) := by
  rcases List.mem_append.mp h with h | h
  · obtain ⟨site, hs, rfl⟩ := List.mem_map.mp h
    exact ⟨rfl, Or.inl hs⟩
  · obtain ⟨site, hs, rfl⟩ := List.mem_map.mp h
    exact ⟨rfl, Or.inr hs⟩

theorem Visit.name_mem_of_mem_parts {p : Part} (h : p ∈ v.parts) :
    p.visit = v ∧ p.name ∈ namesOf v.children := by
  obtain ⟨hv, hs⟩ := mem_partsOf h
  refine ⟨hv, List.mem_map_of_mem ?_⟩
  rw [children, List.mem_append]
  exact hs

/-- Two parts of a network share a node if and only if they clash. -/
theorem Visit.pairwise_parts (h : v.WellNamed) :
    v.parts.Pairwise fun p q => p.node = q.node ↔ p.Clash q := by
  refine List.pairwise_append.mpr ⟨?_, ?_, ?_⟩
  · -- two processes have different names
    refine List.pairwise_map.mpr ((List.pairwise_map.mp h.processes).imp fun hne => ?_)
    rw [Part.node_eq_node_iff]
    exact ⟨fun he => absurd he hne, fun hc => absurd hc.port (by simp)⟩
  · refine List.pairwise_map.mpr ((List.pairwise_map.mp h.ports).imp fun hne => ?_)
    rw [Part.node_eq_node_iff]
    exact ⟨fun he => absurd he hne, fun hc => absurd hc.process (by simp)⟩
  · intro p hp q hq
    obtain ⟨site, -, rfl⟩ := List.mem_map.mp hp
    obtain ⟨port, -, rfl⟩ := List.mem_map.mp hq
    rw [Part.node_eq_node_iff]
    exact ⟨fun hn => ⟨rfl, rfl, rfl, hn⟩, fun hc => hc.name⟩

/-! ## Subtrees

A part further down is named behind the identity of a composite of this network, with the mark in
between.  The names of this network have no mark, so no part of it is named like that. -/

/-- The nodes of the parts of a tour are owned by its composites. -/
theorem Tour.exists_owns_of_part {n : RegionId} (h : t.Follows cfg u n) {p : Part}
    (hp : p ∈ t.visits.flatMap (·.parts)) : ∃ x ∈ namesOf t.sites, (u.id.child x).Owns p.node := by
  induction t generalizing u n with
  | done => exact absurd hp List.not_mem_nil
  | visit site v inner rest ihi ihr =>
    obtain ⟨hv, -, hi, hr⟩ := h
    have hid : u.id.child (site.element.attr "name") = v.id := hv.id.symm
    rw [visits, List.cons_append, List.flatMap_cons, List.flatMap_append, List.mem_append,
      List.mem_append] at hp
    rw [sites, namesOf, List.map_cons]
    rcases hp with hp | hp | hp
    -- a part of the visit itself
    · refine ⟨_, List.mem_cons_self, ?_⟩
      rw [hid, ← (Visit.name_mem_of_mem_parts hp).1]
      exact Or.inr p.inside_node
    · obtain ⟨x, -, hx⟩ := ihi hi hp
      refine ⟨_, List.mem_cons_self, ?_⟩
      rw [hid]
      exact Or.inr (Identity.inside_of_owns_child hx)
    · obtain ⟨x, hx, ho⟩ := ihr hr hp
      exact ⟨x, List.mem_cons_of_mem _ hx, ho⟩

/-- A part of a network does not share a node with a part further down, nor do they clash. -/
theorem Tour.pairwise_parts_below {n : RegionId} (h : t.Follows cfg v n) (hv : v.WellNamed)
    {p q : Part} (hp : p ∈ v.parts) (hq : q ∈ t.visits.flatMap (·.parts)) : p.node ≠ q.node := by
  intro he
  obtain ⟨x, -, hx⟩ := exists_owns_of_part h hq
  obtain ⟨hpv, hn⟩ := Visit.name_mem_of_mem_parts hp
  have hplain := hv.plain _ hn
  rw [← he, p.node_eq, hpv] at hx
  exact Identity.not_owns_of_plain hplain.1 hplain.2 hx

/-- Composites are processes, so their names differ and have no mark. -/
theorem Visit.WellNamed.apart (h : v.WellNamed) : Apart (compositesOf v.network) := by
  have hc : (namesOf (compositesOf v.network)).Sublist
      (namesOf (compositesOf v.network ++ leaves v.network)) :=
    (List.sublist_append_left _ _).map _
  refine ⟨h.processes.sublist hc, fun x hx => (h.plain x ?_).1⟩
  rw [children, List.append_assoc, namesOf, List.map_append]
  exact List.mem_append_left _ hx

/-- What clashes shares a node. -/
theorem Part.Clash.node_eq {p q : Part} (h : p.Clash q) : p.node = q.node := by
  rw [p.node_eq, q.node_eq, h.visit, h.name]

/-- Two parts of a tour share a node if and only if they clash. -/
theorem Tour.pairwise_parts {n : RegionId} (hf : t.Follows cfg u n) (ha : Apart t.sites)
    (hp : ∀ v ∈ t.visits, v.WellNamed) :
    (t.visits.flatMap (·.parts)).Pairwise fun p q => p.node = q.node ↔ p.Clash q := by
  induction t generalizing u n with
  | done => exact List.Pairwise.nil
  | visit site v inner rest ihi ihr =>
    have hfv := hf
    obtain ⟨hv, hs, hi, hr⟩ := hfv
    have hwell := hp v List.mem_cons_self
    have hinner := ihi hi (hwell.apart.sublist (hs.trans (v.expanded_sublist cfg)))
      fun w hw => hp w (by simp [hw])
    have hrest := ihr hr (ha.sublist (List.sublist_cons_self _ _)) fun w hw => hp w (by simp [hw])
    -- apart parts differ in their nodes, so that they do not clash either
    have hne : ∀ {p q : Part}, p.node ≠ q.node → (p.node = q.node ↔ p.Clash q) := fun hpq =>
      ⟨fun he => absurd he hpq, fun hc => absurd hc.node_eq hpq⟩
    rw [visits, List.flatMap_append, List.flatMap_cons]
    refine List.pairwise_append.mpr ⟨List.pairwise_append.mpr ⟨Visit.pairwise_parts hwell, hinner,
      fun p hpv q hq => hne (pairwise_parts_below hi hwell hpv hq)⟩, hrest, ?_⟩
    intro p hpv q hq
    refine hne fun he => ?_
    -- what is visited after a composite is owned by composites with other names
    have hid : v.id = u.id.child (site.element.attr "name") := hv.id
    have hown : (u.id.child (site.element.attr "name")).Owns p.node := by
      rw [← hid]
      rcases List.mem_append.mp hpv with hpv | hpv
      · exact Or.inr ((Visit.name_mem_of_mem_parts hpv).1 ▸ p.inside_node)
      · obtain ⟨x, -, hx⟩ := exists_owns_of_part hi hpv
        exact Or.inr (Identity.inside_of_owns_child hx)
    obtain ⟨x, hx, ho⟩ := exists_owns_of_part hr hq
    rw [he] at hown
    have hxs := Identity.eq_of_owns_of_owns (ha.2 _ List.mem_cons_self)
      (ha.2 _ (List.mem_cons_of_mem _ hx)) hown ho
    exact (List.nodup_cons.mp ha.1).1 (hxs ▸ hx)

/-! ## Sharing -/

/-- Drawn parts are parts: at most the composites are left out. -/
theorem Visit.drawnParts_sublist (cfg : Config) (v : Visit) :
    (v.drawnParts cfg).Sublist v.parts := by
  have hb : (v.boxes cfg).Sublist (compositesOf v.network) := by
    rw [boxes]
    split
    · exact List.nil_sublist _
    · exact List.Sublist.refl _
  exact ((hb.append_right _).map _).append_right _

/-- Every part that is drawn has an element of its name. -/
theorem Visit.exists_element_of_drawnParts {p : Part} (h : p ∈ v.drawnParts cfg) :
    ∃ m ∈ v.elements cfg, m.name = p.node := by
  simp only [drawnParts, partsOf, List.map_append, List.mem_append, List.mem_map] at h
  simp only [elements, List.mem_append, List.mem_cons, List.mem_map]
  rcases h with (⟨site, hs, rfl⟩ | ⟨site, hs, rfl⟩) | ⟨site, hs, rfl⟩
  · exact ⟨v.boxNode cfg site, Or.inl (Or.inl (Or.inr ⟨site, hs, rfl⟩)), rfl⟩
  · exact ⟨v.leafNode cfg site, Or.inl (Or.inr ⟨site, hs, rfl⟩), rfl⟩
  · exact ⟨v.portNode cfg site, Or.inr ⟨site, hs, rfl⟩, rfl⟩

/-- **Sharing.**  If the processes of each network have different names, the interface ports of
each network have different names, and no name has `@` or `#`, then two parts of the whole
hierarchy have the same node if and only if one is a process and the other an interface port of
one network under one name.  Every part that is drawn has its node in the graph, so no two of
them share one exactly where no process that is drawn clashes with an interface port. -/
theorem sharing_of_compile {source : Source} {s : Settings} {g : Graph}
    (h : (compile source s).outcome = .ok g) (hn : ∀ v ∈ visits source s, v.WellNamed) :
    (parts source s).Pairwise (fun p q => p.node = q.node ↔ p.Clash q) ∧
    (drawnParts source s).Sublist (parts source s) ∧
    (∀ p ∈ drawnParts source s, ∃ n, g.node? p.node = some n) ∧
    (((drawnParts source s).map (·.node)).Nodup ↔
      (drawnParts source s).Pairwise fun p q => ¬ p.Clash q) := by
  obtain ⟨v, t, hvs, hd⟩ := exists_drawn_of_compile h
  have hwell : v.WellNamed := hn v (by simp [hvs])
  have hbelow : ∀ w ∈ t.visits, w.WellNamed := fun w hw => hn w (by simp [hvs, hw])
  -- two parts of the root, two below it, or one of each, which never share a node
  have hall : (parts source s).Pairwise fun p q => p.node = q.node ↔ p.Clash q := by
    rw [parts, hvs, List.flatMap_cons]
    refine List.pairwise_append.mpr ⟨Visit.pairwise_parts hwell,
      Tour.pairwise_parts hd.follows (hwell.apart.sublist
        (hd.sites.trans (v.expanded_sublist s.config))) hbelow, fun p hp q hq => ?_⟩
    have hne := Tour.pairwise_parts_below hd.follows hwell hp hq
    exact ⟨fun he => absurd he hne, fun hc => absurd hc.node_eq hne⟩
  have hsub : (drawnParts source s).Sublist (parts source s) := by
    rw [drawnParts, parts]
    induction visits source s with
    | nil => exact List.Sublist.refl []
    | cons w ws ih => exact (w.drawnParts_sublist s.config).append ih
  refine ⟨hall, hsub, fun p hp => ?_, ?_⟩
  · obtain ⟨w, hw, hp⟩ := List.mem_flatMap.mp hp
    obtain ⟨m, hm, hmp⟩ := Visit.exists_element_of_drawnParts hp
    rw [← hmp]
    exact hd.exists_node_of_element (hvs ▸ hw) hm
  · rw [List.Nodup, List.pairwise_map]
    -- among the drawn parts sharing a node is clashing as well
    have hdrawn := hall.sublist hsub
    exact ⟨fun hp => (hp.and hdrawn).imp fun hpq hc => hpq.1 (hpq.2.mpr hc),
      fun hp => (hp.and hdrawn).imp fun hpq he => hpq.1 (hpq.2.mp he)⟩

/-! ## A process and an interface port of one name -/

/-- A network with a process and an interface port of the same name. -/
def clashSource : Source
  | ⟨"top.xml"⟩ => .ok ("<process_network><leaf_process name=\"a\"><port name=\"o\"/>"
      ++ "</leaf_process><port name=\"a\" bound_process=\"a\" bound_port=\"o\"/>"
      ++ "</process_network>")
  | path => .error ⟨["Nothing at " ++ path.text]⟩

/-- The default configuration. -/
def clashSettings : Settings := ⟨⟨"top.xml"⟩, ⟨"."⟩, "top", ⟨"."⟩, Config.default⟩

/-- The model can be used, and has one network. -/
theorem clash_visits :
    usable clashSource clashSettings = true ∧
      (visits clashSource clashSettings).map (fun v =>
        (namesOf (compositesOf v.network), namesOf (leaves v.network), namesOf v.ports)) =
        [([], ["a"], ["a"])] := by
  decide +kernel

/-- Its processes differ in their names and so do its ports, each being one. -/
theorem clash_wellNamed : ∀ v ∈ visits clashSource clashSettings, v.WellNamed := by
  intro v hv
  have hm := List.mem_map_of_mem (f := fun v : Visit =>
    (namesOf (compositesOf v.network), namesOf (leaves v.network), namesOf v.ports)) hv
  rw [clash_visits.2, List.mem_singleton] at hm
  obtain ⟨hc, hl, hp⟩ : _ ∧ _ ∧ _ := by simpa only [Prod.mk.injEq] using hm
  have hprocesses : namesOf (compositesOf v.network ++ leaves v.network) = ["a"] := by
    rw [namesOf, List.map_append, ← namesOf, ← namesOf, hc, hl]
    rfl
  refine ⟨by rw [hprocesses]; decide, by rw [hp]; decide, ?_⟩
  rw [Visit.children, namesOf, List.map_append, ← namesOf, ← namesOf, hprocesses, hp]
  decide

/-- The theorem applies; the process and the port are the two parts that clash. -/
theorem sharing_of_compile_clash :
    ∃ g, (compile clashSource clashSettings).outcome = .ok g ∧
      (∀ v ∈ visits clashSource clashSettings, v.WellNamed) ∧
      (parts clashSource clashSettings).Pairwise (fun p q => p.node = q.node ↔ p.Clash q) ∧
      (drawnParts clashSource clashSettings).Sublist (parts clashSource clashSettings) ∧
      (∀ p ∈ drawnParts clashSource clashSettings, ∃ n, g.node? p.node = some n) ∧
      (((drawnParts clashSource clashSettings).map (·.node)).Nodup ↔
        (drawnParts clashSource clashSettings).Pairwise fun p q => ¬ p.Clash q) := by
  obtain ⟨g, hg⟩ := compile_ok_iff.mpr clash_visits.1
  exact ⟨g, hg, clash_wellNamed, sharing_of_compile hg clash_wellNamed⟩

/-- Different names of processes and different names of interface ports do not keep all parts from
sharing a node. -/
theorem exists_shared_node :
    ∃ g, (compile clashSource clashSettings).outcome = .ok g ∧
      (∀ v ∈ visits clashSource clashSettings, v.WellNamed) ∧
      (drawnParts clashSource clashSettings).map (·.node) = ["top@a", "top@a"] ∧
      ¬ ((drawnParts clashSource clashSettings).map (·.node)).Nodup := by
  obtain ⟨g, hg⟩ := compile_ok_iff.mpr clash_visits.1
  have hnodes : (drawnParts clashSource clashSettings).map (·.node) = ["top@a", "top@a"] := by
    decide +kernel
  refine ⟨g, hg, clash_wellNamed, hnodes, ?_⟩
  rw [hnodes]
  decide

end NetPlot.Network
