/-
  Edges and the regions of their ends.

  1. **Containers** — what a visit mentions is in its container, what a tour mentions is in the
     region that the tour is in (`Tour.encloses_of_mem`).

  2. **First mentions** — an end of an edge is inside of the process whose network the edge
     belongs to, and nothing outside of that process mentions it earlier
     (`Tour.exists_find?_of_edge`).

  3. **Enclosure** — the region of an edge encloses both of its ends, and the DOT text declares
     the ends before it draws the edge (`edges_enclosed_of_compile`).

  In a DOT text a node belongs to the subgraph in which it is met first.  An edge that came before
  its ends would take them along to where the edge is drawn, and this is what is ruled out.
-/
import NetPlot.Proofs.Network.Placement

namespace NetPlot.Network

open NetPlot.Graph NetPlot.Label NetPlot.Xml

variable {cfg : Config} {g : Graph} {u v : Visit} {t : Tour} {m : Node} {e : Edge}

/-! ## Containers -/

/-- All that a visit mentions is in its container. -/
theorem Visit.encloses_of_mem {inner : List Node} (h : v.Placed g cfg)
    (hi : ∀ m ∈ inner, g.Encloses v.container m.region) (hm : m ∈ v.mentions cfg inner) :
    g.Encloses v.container m.region := by
  rw [mentions, List.mem_append, List.mem_append, List.mem_cons, mem_closingMentions_iff] at hm
  -- the hidden node, boxes, the visits inside, leaves, ports, and ends of edges
  rcases hm with ((rfl | hm) | hm) | ⟨site, -, rfl⟩ | ⟨site, -, rfl⟩ | ⟨e, he, hm⟩
  · exact .refl
  · obtain ⟨site, -, rfl⟩ := List.mem_map.mp hm
    exact h.encloses _
  · exact hi m hm
  · exact h.encloses _
  · exact h.encloses _
  · rcases Edge.mem_ends.mp hm with rfl | rfl
    · exact region_of_edge he ▸ .refl
    · exact region_of_edge he ▸ .refl

/-- All that a tour mentions is in the region that the tour is in. -/
theorem Tour.encloses_of_mem {outer : RegionId} (h : t.Placed g cfg outer)
    (hm : m ∈ t.mentions cfg) : g.Encloses outer m.region := by
  induction t generalizing outer m with
  | done => exact absurd hm List.not_mem_nil
  | visit site v inner rest ihi ihr =>
    obtain ⟨ho, hv, hi, hr⟩ := h
    rcases List.mem_append.mp hm with hm | hm
    · exact ho.trans (v.encloses_of_mem hv (fun k hk => (hv.encloses _).trans (ihi hi hk)) hm)
    · exact ihr hr hm

/-! ## First mentions

A node is in the region of its first mention, so it has to be shown that no mention outside of the
network of an edge comes before the first one inside.  Names without the mark keep the networks
apart: a mention outside has another name. -/

/-- A visit with something inside of it draws no boxes. -/
theorem Visit.boxes_eq_nil (hs : t.sites.Sublist (v.expanded cfg)) (he : e ∈ t.edges cfg) :
    v.boxes cfg = [] := by
  rw [boxes]
  by_cases hl : v.level < cfg.maxLevel
  · rw [if_pos hl]
  · rw [expanded, if_neg hl, List.sublist_nil] at hs
    cases t with
    | done => exact absurd he List.not_mem_nil
    | visit => cases hs

/-- The first mention of an end of an edge, in the whole visit, is inside of the region that
declares the edge, if this is so for the edges of the visits inside. -/
theorem Visit.exists_find?_of_edge {n : Nat} (hf : t.Follows cfg v n)
    (hs : t.sites.Sublist (v.expanded cfg)) (hv : v.Placed g cfg)
    (ht : t.Placed g cfg (v.frameRegion cfg.clusters))
    (hi : ∀ e ∈ t.edges cfg, ∀ m ∈ e.ends, ∃ k,
      (t.mentions cfg).find? (named m.name) = some k ∧ g.Encloses e.region k.region)
    (he : e ∈ t.edges cfg ++ v.edges cfg) (hm : m ∈ e.ends) :
    ∃ k, (v.mentions cfg (t.mentions cfg)).find? (named m.name) = some k ∧
      g.Encloses e.region k.region := by
  rcases List.mem_append.mp he with he | he
  · -- only the hidden node comes before the visits inside, as there are no boxes
    obtain ⟨k, hk, hr⟩ := hi e he m hm
    have hh : v.hiddenNode.name ≠ m.name := by
      intro h
      have hin := Tour.inside_of_mem hf (Tour.mem_mentions_of_edge he hm)
      rw [← h] at hin
      exact v.id.not_inside_hidden hin
    refine ⟨k, ?_, hr⟩
    rw [mentions, boxes_eq_nil hs he, List.map_nil, List.find?_append, List.find?_append,
      List.find?_cons_of_neg (by simpa using hh), hk]
    rfl
  -- an edge of the visit itself: whatever mentions its end lies in the frame of the visit
  · have hmem := v.mem_mentions_of_edge he hm (t.mentions cfg)
    obtain ⟨k, hk⟩ := Option.isSome_iff_exists.mp
      (List.find?_isSome.mpr ⟨m, hmem, named_iff.mpr rfl⟩)
    refine ⟨k, hk, region_of_edge he ▸ v.encloses_of_mem hv (fun k hk => ?_)
      (List.mem_of_find?_eq_some hk)⟩
    exact (hv.encloses _).trans (Tour.encloses_of_mem ht hk)

/-- The first mention of an end of an edge, in the whole tour, is inside of the region that
declares the edge. -/
theorem Tour.exists_find?_of_edge {n outer : Nat} (hf : t.Follows cfg u n)
    (ha : Apart t.sites) (hv : ∀ v ∈ t.visits, Apart (compositesOf v.network))
    (ht : t.Placed g cfg outer) (he : e ∈ t.edges cfg) (hm : m ∈ e.ends) :
    ∃ k, (t.mentions cfg).find? (named m.name) = some k ∧ g.Encloses e.region k.region := by
  induction t generalizing u n outer e m with
  | done => exact absurd he List.not_mem_nil
  | visit site v inner rest ihi ihr =>
    have hfv := hf
    obtain ⟨-, hs, hfi, hfr⟩ := hfv
    obtain ⟨ho, hnv, hni, hnr⟩ := ht
    rw [Tour.mentions, List.find?_append]
    rw [Tour.edges, List.mem_append] at he
    -- an edge of this site meets its ends here; one of a later site is looked for behind
    rcases he with he | he
    · have hav : Apart inner.sites :=
        (hv v List.mem_cons_self).sublist (hs.trans (v.expanded_sublist cfg))
      obtain ⟨k, hk, hr⟩ := Visit.exists_find?_of_edge hfi hs hnv hni (fun e he m hm =>
        ihi hfi hav (fun w hw => hv w (by simp [hw])) hni he hm) he hm
      exact ⟨k, by rw [hk]; rfl, hr⟩
    · -- the visits before the edge mention neither of its ends
      have hk := Tour.mem_mentions_of_edge he hm
      have hnone : (v.mentions cfg (inner.mentions cfg)).find? (named m.name) = none := by
        rw [List.find?_eq_none]
        intro k hk' hn
        exact Tour.name_ne_of_mem hf ha hk' hk (named_iff.mp hn)
      rw [hnone, Option.none_or]
      exact ihr hfr (ha.sublist (List.sublist_cons_self _ _))
        (fun w hw => hv w (by simp [hw])) hnr he hm

/-! ## Enclosure -/

/-- **Enclosure.**  If the composites of each network have different names without `@`, the region
of an edge encloses those of its ends; so in the DOT text an end is declared before the edge is
drawn, and not again after it. -/
theorem edges_enclosed_of_compile {source : Source} {s : Settings}
    (h : (compile source s).outcome = .ok g)
    (ha : ∀ v ∈ visits source s, Apart (compositesOf v.network)) :
    (∀ e ∈ g.edges, ∀ x, x = e.tail ∨ x = e.head →
      ∃ n, g.node? x = some n ∧ g.Encloses e.region n.region) ∧
    g.toDot = Statement.document g.strict g.name (g.statements rootId) ∧
    ∀ before e after, g.statements rootId = before ++ .edge e :: after →
      ∀ x, x = e.tail ∨ x = e.head → ∃ n, g.node? x = some n ∧
        .node n ∈ before ∧ .node n ∉ after := by
  obtain ⟨v, t, hvs, hd⟩ := exists_drawn_of_compile h
  rw [hvs] at ha
  have hat : Apart t.sites :=
    (ha v List.mem_cons_self).sublist (hd.sites.trans (v.expanded_sublist s.config))
  have henclosed : ∀ e ∈ g.edges, ∀ x, x = e.tail ∨ x = e.head →
      ∃ n, g.node? x = some n ∧ g.Encloses e.region n.region := by
    intro e he x hx
    rw [hd.edges] at he
    have hm : (⟨x, ∅, e.region⟩ : Node) ∈ e.ends :=
      Edge.mem_ends.mpr (hx.imp (fun h => by rw [h]) fun h => by rw [h])
    obtain ⟨k, hk, hr⟩ := Visit.exists_find?_of_edge hd.follows hd.sites hd.placed hd.inside
      (fun e he m hm => Tour.exists_find?_of_edge hd.follows hat
        (fun w hw => ha w (List.mem_cons_of_mem v hw)) hd.inside he hm) he hm
    -- the node of the name is in the region of its first mention
    have hfirst := region_find?_mentionAll x [] (v.mentions s.config (t.mentions s.config))
    rw [List.nil_append, hk, Option.map_some, ← hd.nodes] at hfirst
    obtain ⟨n, hn, hreg⟩ := Option.map_eq_some_iff.mp hfirst
    exact ⟨n, hn, hreg ▸ hr⟩
  refine ⟨henclosed, toDot_eq g, fun before e after hsplit x hx => ?_⟩
  have he : e ∈ g.edges := (edge_mem_statements.mp (by rw [hsplit]; simp)).1
  obtain ⟨n, hn, hr⟩ := henclosed e he x hx
  exact ⟨n, hn, node_mem_before_edge hsplit (List.mem_of_find?_eq_some hn) hr⟩

/-- In the small model, composites of one network have different names, so all edges are enclosed.
-/
theorem edges_enclosed_of_compile_sample :
    ∃ g, (compile sampleSource sampleSettings).outcome = .ok g ∧
      (∀ v ∈ visits sampleSource sampleSettings, Apart (compositesOf v.network)) ∧
      (∀ e ∈ g.edges, ∀ x, x = e.tail ∨ x = e.head →
        ∃ n, g.node? x = some n ∧ g.Encloses e.region n.region) ∧
      g.toDot = Statement.document g.strict g.name (g.statements rootId) ∧
      ∀ before e after, g.statements rootId = before ++ .edge e :: after →
        ∀ x, x = e.tail ∨ x = e.head → ∃ n, g.node? x = some n ∧
          .node n ∈ before ∧ .node n ∉ after := by
  obtain ⟨g, hg⟩ := compile_ok_iff.mpr sample_visits.1
  have ha : ∀ v ∈ visits sampleSource sampleSettings, Apart (compositesOf v.network) := by
    intro v hv
    rcases sample_names hv with ⟨hc, -, -⟩ | ⟨hc, -, -⟩ <;> rw [Apart, hc] <;> decide +kernel
  exact ⟨g, hg, ha, edges_enclosed_of_compile hg ha⟩

end NetPlot.Network
