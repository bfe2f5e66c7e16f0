/-
  Containers are numbered apart, and hold the edges of their own visits.

  1. **Numbers** — the containers of a tour that is numbered from `n` on are in the range of the
     regions that it opens (`Tour.container_mem`).

  2. **Edges** — so the edges that a container declares are those of its visit
     (`Drawn.edgesIn_container`), one for each of its wires (`edgesIn_container_of_compile`).

  This ties edges to networks: a graph lists each edge with its region, and a region that is the
  container of a visit is that of no other one.
-/
import NetPlot.Proofs.Network.Placement
import NetPlot.Proofs.Network.Wires

namespace NetPlot.Network

open NetPlot.Graph NetPlot.Label NetPlot.Xml

variable {cfg : Config} {g : Graph} {u v w : Visit} {t : Tour} {n : Nat}

theorem width_pos (flags : Flags) : 0 < width flags := Nat.add_pos_left Nat.one_pos _

/-- The regions of a visit of a tour are among those that the tour opens. -/
theorem Tour.container_mem (h : t.Follows cfg u n) (hw : w ∈ t.visits) :
    n ≤ w.container ∧ n + width cfg.clusters * t.size ≥ w.container + width cfg.clusters := by
  induction t generalizing u n with
  | done => exact absurd hw List.not_mem_nil
  | visit site v inner rest ihi ihr =>
    obtain ⟨hv, -, hi, hr⟩ := h
    have hc : n = v.container := hv.container.symm
    rw [Nat.mul_add, Nat.mul_one] at hr
    rw [size, Nat.mul_add, Nat.mul_add, Nat.mul_one]
    -- this visit, one inside of it, or a later one, each in its part of the range
    rcases mem_visits.mp hw with rfl | hw | hw
    · omega
    · have := ihi hi hw
      omega
    · have := ihr hr hw
      omega

/-- A visit declares all of its edges in its container. -/
theorem Visit.filter_edges (cfg : Config) (v : Visit) (k : RegionId) :
    (v.edges cfg).filter (·.region == k) = if v.container = k then v.edges cfg else [] := by
  by_cases hk : v.container = k
  · rw [if_pos hk, List.filter_eq_self]
    intro e he
    rw [region_of_edge he, hk]
    exact beq_self_eq_true k
  · rw [if_neg hk, List.filter_eq_nil_iff]
    intro e he hr
    exact hk ((region_of_edge he).symm.trans (beq_iff_eq.mp hr))

/-- A region outside of a tour declares none of its edges. -/
theorem Tour.filter_edges_of_outside (h : t.Follows cfg u n) {k : Nat}
    (hk : k < n ∨ n + width cfg.clusters * t.size ≤ k) :
    (t.edges cfg).filter (·.region == k) = [] := by
  rw [List.filter_eq_nil_iff]
  intro e he hr
  obtain ⟨w, hw, he⟩ := mem_edges_iff.mp he
  have hc : k = w.container := (beq_iff_eq.mp hr).symm.trans (Visit.region_of_edge he)
  have hm := container_mem h hw
  have hp := width_pos cfg.clusters
  omega

/-- The container of a visit of a tour declares the edges of that visit. -/
theorem Tour.filter_edges (h : t.Follows cfg u n) (hw : w ∈ t.visits) :
    (t.edges cfg).filter (·.region == w.container) = w.edges cfg := by
  induction t generalizing u n with
  | done => exact absurd hw List.not_mem_nil
  | visit site v inner rest ihi ihr =>
    obtain ⟨hv, -, hi, hr⟩ := h
    have hc : n = v.container := hv.container.symm
    have hp := width_pos cfg.clusters
    rw [Nat.mul_add, Nat.mul_one] at hr
    rw [edges, List.filter_append, List.filter_append, Visit.filter_edges]
    -- the visit, the tour inside of it and the rest have three ranges of numbers
    rcases mem_visits.mp hw with rfl | hw | hw
    · rw [filter_edges_of_outside hi (Or.inl (by omega)),
        filter_edges_of_outside hr (Or.inl (by omega)), if_pos rfl, List.nil_append,
        List.append_nil]
    · have hm := container_mem hi hw
      have hne : ¬ v.container = w.container := fun he => by
        have he : n = w.container := hc.trans he
        omega
      rw [ihi hi hw, filter_edges_of_outside hr (Or.inl (by omega)), if_neg hne, List.append_nil,
        List.append_nil]
    · have hm := container_mem hr hw
      have hne : ¬ v.container = w.container := fun he => by
        have he : n = w.container := hc.trans he
        omega
      rw [ihr hr hw, filter_edges_of_outside hi (Or.inr (by omega)), if_neg hne, List.nil_append,
        List.nil_append]

/-- The edges that the container of a visit declares are those of the visit. -/
theorem Drawn.edgesIn_container (h : Drawn cfg v t g) (hw : w ∈ v :: t.visits) :
    g.edgesIn w.container = w.edges cfg := by
  have hp := width_pos cfg.clusters
  rw [edgesIn, h.edges, List.filter_append, Visit.filter_edges]
  -- the root itself, whose number no visit below has, or a visit below
  rcases List.mem_cons.mp hw with rfl | hw
  · rw [Tour.filter_edges_of_outside h.follows (Or.inl (Nat.lt_add_of_pos_right hp)), if_pos rfl,
      List.nil_append]
  · have hm : v.container + width cfg.clusters ≤ w.container :=
      (Tour.container_mem h.follows hw).1
    have hne : v.container ≠ w.container :=
      Nat.ne_of_lt (Nat.lt_of_lt_of_le (Nat.lt_add_of_pos_right hp) hm)
    rw [Tour.filter_edges h.follows hw, if_neg hne, List.append_nil]

/-- In a model that compiles, the container of every visit declares the edges of its wires. -/
theorem edgesIn_container_of_compile {source : Source} {s : Settings}
    (h : (compile source s).outcome = .ok g) (hv : v ∈ visits source s) :
    g.edgesIn v.container = (v.wires s.config).map (v.wireEdge s.config) := by
  obtain ⟨u, t, hvisits, hd⟩ := exists_drawn_of_compile h
  rw [hd.edgesIn_container (hvisits ▸ hv), Visit.edges_eq_map]

end NetPlot.Network
