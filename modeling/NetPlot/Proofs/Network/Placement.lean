/-
  The regions of a visit, by their numbers.

  1. **Numbers** — the region of a role that is drawn is counted from the container; any other
     role stands for the container itself.

  2. **Placement** — a visit is `Placed` in a graph if its numbers are those of its own regions:
     the container has the name of the process, the roles are inside of it under their names.  A
     tour is `Placed` inside of a region if its containers are, and so on further down.

  3. **Listed regions** — where the regions of a tour are listed, the tour is placed
     (`Tour.placed_of_listed`), and with it the whole model (`placed_of_shown`).

  4. **Drawings** — what a graph has to do with the tour that it was drawn along (`Drawn`).

  The tour gives out the numbers of regions before anything is drawn.  That the graph has the
  regions under these very numbers is shown here once, and used wherever something is looked for in
  a region.
-/
import NetPlot.Proofs.Graph.Statement
import NetPlot.Proofs.Network.Mentions
import NetPlot.Proofs.Network.Regions

namespace NetPlot.Network

open NetPlot.Graph NetPlot.Label NetPlot.Xml

variable {cfg : Config} {g : Graph} {u v : Visit} {t : Tour} {flags : Flags} {role : Role}

/-! ## Numbers

The clusters of a level are kept as a list of roles with numbers.  The numbers follow the container
without a gap, so a role can be found by where it stands among the roles drawn. -/

/-- A role that is not drawn stands for the container. -/
theorem Visit.region_of_not_mem (h : role ∉ Role.drawn flags) (v : Visit) :
    v.region flags role = v.container := by
  rw [region, Clusters.region, clusters, lookup_zipIdx_of_not_mem h]
  rfl

/-- A role that is drawn has its region as far behind the container as it stands among the roles. -/
theorem Visit.exists_region_eq (h : role ∈ Role.drawn flags) (v : Visit) :
    ∃ i, (Role.drawn flags)[i]? = some role ∧ v.region flags role = v.container + 1 + i := by
  -- the role is drawn, so the table of regions has it, and at the place of the role
  cases hr : ((Role.drawn flags).zipIdx (v.container + 1)).lookup role with
  | none =>
    obtain ⟨i, hi, he⟩ := List.mem_iff_getElem.mp h
    have hm : (role, v.container + 1 + i) ∈ (Role.drawn flags).zipIdx (v.container + 1) :=
      List.mem_zipIdx_iff_le_and_getElem?_sub.mpr ⟨Nat.le_add_right _ i, by simp [hi, he]⟩
    exact absurd (List.lookup_eq_none_iff.mp hr _ hm) (by simp)
  | some r =>
    obtain ⟨as, bs, hz, -⟩ := List.lookup_eq_some_iff.mp hr
    have hm : (role, r) ∈ (Role.drawn flags).zipIdx (v.container + 1) := by
      rw [hz]
      simp
    obtain ⟨hl, hg⟩ := List.mem_zipIdx_iff_le_and_getElem?_sub.mp hm
    refine ⟨r - (v.container + 1), hg, ?_⟩
    rw [region, Clusters.region, clusters, hr, Nat.add_sub_cancel' hl]
    rfl

/-- The region that frames go to is one of the regions of the visit. -/
theorem Visit.frameRegion_lt (flags : Flags) (v : Visit) :
    v.frameRegion flags < v.container + width flags := by
  rw [frameRegion_eq, width_eq]
  cases flags.others
  · exact Nat.lt_add_of_pos_right (Nat.add_pos_left (Nat.add_pos_left Nat.one_pos _) _)
  · rw [if_pos rfl, if_pos rfl, Nat.add_assoc]
    exact Nat.lt_succ_self _

/-! ## Placement

To be placed is a property of a finished graph.  It does not change with what is drawn later, as
regions are only added and never moved. -/

/-- The regions of a visit have their own names, and those of the roles are in its container. -/
structure Visit.Placed (g : Graph) (cfg : Config) (v : Visit) : Prop where
  container : (g.region? v.container).map (·.name) = some ("cluster_" ++ v.id.text)
  role : ∀ role ∈ Role.drawn cfg.clusters,
    (g.region? (v.region cfg.clusters role)).map Region.shown = some (v.roleRegion role).shown

/-- The containers of a tour are inside of `outer`, and so on inside of each. -/
def Tour.Placed (g : Graph) (cfg : Config) (outer : RegionId) : Tour → Prop
  | done => True
  | visit _ v inner rest =>
    g.Encloses outer v.container ∧ v.Placed g cfg ∧
      inner.Placed g cfg (v.frameRegion cfg.clusters) ∧ rest.Placed g cfg outer

/-- The container of a visit encloses the regions of its roles. -/
theorem Visit.Placed.encloses (h : v.Placed g cfg) (role : Role) :
    g.Encloses v.container (v.region cfg.clusters role) := by
  by_cases hr : role ∈ Role.drawn cfg.clusters
  · obtain ⟨x, hx, hs⟩ := Option.map_eq_some_iff.mp (h.role role hr)
    have hp : x.parent = some v.container := congrArg (fun x : Shown => x.2.2) hs
    obtain ⟨i, -, hi⟩ := v.exists_region_eq hr
    have hlt : v.container < v.region cfg.clusters role := by
      rw [hi, Nat.add_assoc]
      exact Nat.lt_add_of_pos_right (Nat.add_pos_left Nat.one_pos i)
    exact .single (mem_children_iff.mpr ⟨hlt, x, hx, hp⟩)
  · rw [v.region_of_not_mem hr]
    exact .refl

/-- In a tour that is placed, every visit is. -/
theorem Tour.placed_of_mem_visits {outer : RegionId} (h : t.Placed g cfg outer)
    (hv : v ∈ t.visits) : v.Placed g cfg := by
  induction t generalizing outer with
  | done => exact absurd hv List.not_mem_nil
  | visit site w inner rest ihi ihr =>
    obtain ⟨-, hw, hi, hr⟩ := h
    rcases mem_visits.mp hv with rfl | hv | hv
    · exact hw
    · exact ihi hi hv
    · exact ihr hr hv

/-! ## Listed regions -/

/-- Where a container is listed in front of its contents, the visit is placed, and so is the tour
inside of it if that is placed wherever it is listed. -/
theorem Visit.placed_of_listed {before after : List Shown} {fill : Option String}
    {outer : Option RegionId}
    (h : g.regions.map Region.shown = before ++ ([("cluster_" ++ v.id.text, fill, outer)] ++
      ((contents cfg.clusters v.id (t.frames cfg)).listed v.container (v.container + 1) ++ after)))
    (hn : before.length = v.container)
    (hi : ∀ before : List Shown, g.regions.map Region.shown = before ++
        ((t.frames cfg).listed (v.frameRegion cfg.clusters) (v.container + width cfg.clusters)
          ++ after) →
      before.length = v.container + width cfg.clusters →
        t.Placed g cfg (v.frameRegion cfg.clusters)) :
    v.Placed g cfg ∧ t.Placed g cfg (v.frameRegion cfg.clusters) := by
  have hc := shown_region? h (Nat.le_of_eq hn) (hn ▸ Nat.lt_succ_self _)
  have hl : (before ++ [("cluster_" ++ v.id.text, fill, outer)]).length = v.container + 1 := by
    rw [List.length_append, hn]
    rfl
  have hr : g.regions.map Region.shown =
      (before ++ [("cluster_" ++ v.id.text, fill, outer)]) ++
        (((Role.drawn cfg.clusters).map v.roleRegion).map Region.shown ++
          ((t.frames cfg).listed (v.frameRegion cfg.clusters)
            (v.container + width cfg.clusters) ++ after)) := by
    rw [h, listed_contents]
    simp only [List.append_assoc]
  refine ⟨⟨?_, fun role hm => ?_⟩, hi (before ++ [("cluster_" ++ v.id.text, fill, outer)] ++
    ((Role.drawn cfg.clusters).map v.roleRegion).map Region.shown) ?_ ?_⟩
  -- the container is what stands in front
  · rw [hn, Nat.sub_self] at hc
    obtain ⟨x, hx, hs⟩ := Option.map_eq_some_iff.mp hc
    rw [hx]
    exact congrArg (fun x : Shown => some x.1) hs
  -- the roles come next, in their order
  · obtain ⟨i, hi, he⟩ := v.exists_region_eq hm
    have hlt : i < (Role.drawn cfg.clusters).length := (List.getElem?_eq_some_iff.mp hi).1
    rw [he, shown_region? hr (by rw [hl]; exact Nat.le_add_right _ i)
      (by rw [hl, List.length_map, List.length_map]; exact Nat.add_lt_add_left hlt _), hl,
      Nat.add_sub_cancel_left, List.getElem?_map, List.getElem?_map, hi]
    rfl
  · rw [hr]
    simp only [List.append_assoc]
  · simp [hn, width, Nat.add_comm 1]

/-- Where the frames of a tour are listed, the tour is placed. -/
theorem Tour.placed_of_listed {n outer : Nat} {before after : List Shown}
    (hf : t.Follows cfg u n)
    (h : g.regions.map Region.shown = before ++ ((t.frames cfg).listed outer n ++ after))
    (hn : before.length = n) (ho : outer < n) : t.Placed g cfg outer := by
  induction t generalizing u n outer before after with
  | done => trivial
  | visit site v inner rest ihi ihr =>
    obtain ⟨hv, -, hi, hr⟩ := hf
    obtain rfl : v.container = n := hv.container
    rw [Tour.frames, Visit.frame, Forest.listed, next_eq] at h
    generalize hothers : (rest.frames cfg).listed outer
      (v.container + width cfg.clusters * (inner.size + 1)) = others at h
    have hc : g.regions.map Region.shown = before ++ ([("cluster_" ++ v.id.text,
        some (Color.background cfg.gradient (v.level - 1)), some outer)] ++
          ((contents cfg.clusters v.id (inner.frames cfg)).listed v.container (v.container + 1) ++
            (others ++ after))) := by
      rw [h]
      simp
    have hrest : g.regions.map Region.shown = (before ++ ("cluster_" ++ v.id.text,
        some (Color.background cfg.gradient (v.level - 1)), some outer) ::
          (contents cfg.clusters v.id (inner.frames cfg)).listed v.container (v.container + 1)) ++
            ((rest.frames cfg).listed outer
              (v.container + width cfg.clusters * (inner.size + 1)) ++ after) := by
      rw [h, hothers]
      simp
    -- the frames inside come behind the roles of the container, the other visits behind it all
    obtain ⟨hpv, hpi⟩ := Visit.placed_of_listed hc hn fun before hb hl =>
      ihi hi hb hl (v.frameRegion_lt _)
    refine ⟨?_, hpv, hpi, ihr hr hrest ?_ (Nat.lt_add_right _ ho)⟩
    · obtain ⟨x, hx, hs⟩ := exists_shown_mem hc (Nat.le_of_eq hn) (hn ▸ Nat.lt_succ_self _)
      have hp : x.parent = some outer :=
        congrArg (fun x : Shown => x.2.2) (List.mem_singleton.mp hs)
      exact .single (mem_children_iff.mpr ⟨ho, x, hx, hp⟩)
    · rw [List.length_append, List.length_cons, hn, Forest.length_listed,
        ← next_eq cfg v, Nat.add_assoc, Nat.add_comm 1]

/-- The regions of a whole model are placed. -/
theorem placed_of_shown {s : Settings} {network : Cursor} {root : Shown}
    (hf : t.Follows s.config (rootVisit s network)
      ((rootVisit s network).container + width s.config.clusters))
    (h : g.regions.map Region.shown =
      root :: (modelForest s (rootVisit s network) t).listed rootId 1) :
    (rootVisit s network).Placed g s.config ∧
      t.Placed g s.config ((rootVisit s network).frameRegion s.config.clusters) := by
  have hc : g.regions.map Region.shown = [root] ++ ([("cluster_" ++ (rootVisit s network).id.text,
      some (Color.background s.config.gradient 1), some rootId)] ++
        ((contents s.config.clusters (rootVisit s network).id (t.frames s.config)).listed
          (rootVisit s network).container ((rootVisit s network).container + 1) ++ [])) := by
    rw [h, modelForest, Visit.frame, Forest.listed, Forest.listed, List.append_nil,
      List.append_nil]
    rfl
  exact Visit.placed_of_listed hc rfl fun before hb hl =>
    Tour.placed_of_listed hf hb hl ((rootVisit s network).frameRegion_lt _)

/-! ## Drawings

What later proofs need to know of a compile is gathered here: the graph is one run of steps along a
tour, and the tour and the graph number their regions alike. -/

/-- The graph `g` was drawn along the tour `t` inside of `v`. -/
structure Drawn (cfg : Config) (v : Visit) (t : Tour) (g : Graph) : Prop where
  sites : t.sites.Sublist (v.expanded cfg)
  follows : t.Follows cfg v (v.container + width cfg.clusters)
  placed : v.Placed g cfg
  inside : t.Placed g cfg (v.frameRegion cfg.clusters)
  edges : g.edges = t.edges cfg ++ v.edges cfg
  nodes : g.nodes = mentionAll [] (v.mentions cfg (t.mentions cfg))

/-- Every visit of a drawing is placed. -/
theorem Drawn.placed_of_mem (h : Drawn cfg u t g) (hv : v ∈ u :: t.visits) : v.Placed g cfg := by
  rcases List.mem_cons.mp hv with rfl | hv
  · exact h.placed
  · exact Tour.placed_of_mem_visits h.inside hv

/-- A model that compiles is drawn along the visits that it leads to. -/
theorem exists_drawn_of_compile {source : Source} {s : Settings}
    (h : (compile source s).outcome = .ok g) :
    ∃ v t, visits source s = v :: t.visits ∧ Drawn s.config v t g := by
  obtain ⟨network, hn, -, -, rfl⟩ := compile_eq_ok h
  obtain ⟨hs, hf⟩ := follows_tourBelow source s (rootVisit s network)
  obtain ⟨hv, ht⟩ := placed_of_shown hf (shown_modelSteps hf)
  exact ⟨_, _, visits_eq hn, hs, hf, hv, ht, edges_run_modelSteps .., nodes_run_modelSteps ..⟩

end NetPlot.Network
