/-
  The same model at two detail levels.

  1. **Specification** — `Visit.Refines` says what the networks of two visits have in common if
     the second one is drawn in more detail: the leaves have their nodes in both graphs, and the
     edges are the same wires.  Only the ends at composites that become frames differ
     (`Terminal.Matches`).

  2. **Visits** — the documents opened with less detail are those of the upper levels
     (`place_openings`); all of them can be used if those opened with more detail can
     (`usable_atDetail`).

  3. **Edges** — an end moves from a box to the interface inside of its frame, and no other end
     moves (`matches_endAt`).

  4. **Refinement** — all of this for whole models (`detail_of_compile`).

  Raising the detail level should show more of a model and change nothing else.  The relation
  between two visits lists all that does change, so whatever it does not mention stays.
-/
import NetPlot.Proofs.Network.Containers
import NetPlot.Proofs.Network.Nodes
import NetPlot.Proofs.Network.Openings
import NetPlot.Proofs.Network.Wires
import Mathlib.Data.List.Forall2

namespace NetPlot

/-- The same configuration with another detail level. -/
def Config.atDetail (cfg : Config) (m : Nat) : Config := { cfg with maxLevel := m }

/-- The same settings with another detail level. -/
def Settings.atDetail (s : Settings) (m : Nat) : Settings :=
  { s with config := s.config.atDetail m }

namespace Network

open NetPlot.Graph NetPlot.Label NetPlot.Xml

variable {source : Source} {s : Settings} {cfg : Config} {m m' : Nat} {v v' : Visit}

/-! ## Specification

Regions are numbered anew with more detail, so visits are compared without their numbers, and edges
without their regions. -/

/-- Is the process `x` of a network a box at the detail level `m` and a frame at `m'`?  A leaf of
the same name is a node at any level. -/
def Visit.Opened (m m' : Nat) (v : Visit) (x : String) : Prop :=
  x ∈ namesOf (compositesOf v.network) ∧ x ∉ namesOf (leaves v.network) ∧
    m ≤ v.level ∧ v.level < m'

/-- What becomes of the end of an edge at a terminal, from the detail level `m` to `m'`: where a
box is opened, the end moves from the field of the box to the interface port inside. -/
def Terminal.Matches (side : String) (m m' : Nat) (v : Visit) (e e' : String × Option String) :
    Terminal → Prop
  | own _ => e = e'
  | inner x q => (¬ v.Opened m m' x → e = e') ∧
      (v.Opened m m' x → e = (v.id.text ++ "@" ++ x, some (anchor (some q) side)) ∧
        e' = (v.id.text ++ "@" ++ x ++ "@" ++ q, some side))

/-- The edges `e` and `e'` are one wire, drawn at the detail levels `m` and `m'`. -/
structure Wire.Redrawn (cfg : Config) (m m' : Nat) (v : Visit) (e e' : Edge) (w : Wire) :
    Prop where
  style : e.attributes.get? "style" = e'.attributes.get? "style"
  penwidth : e.attributes.get? "penwidth" = e'.attributes.get? "penwidth"
  label : e.attributes.get? "label" = e'.attributes.get? "label"
  tail : w.tail.Matches cfg.direction.outputSide m m' v (tailEnd e) (tailEnd e')
  head : w.head.Matches cfg.direction.inputSide m m' v (headEnd e) (headEnd e')

/-- The visits `v` of the graph `g` and `v'` of the graph `g'` are of one network, and the second
one shows it in more detail. -/
structure Visit.Refines (cfg : Config) (m m' : Nat) (g g' : Graph) (v v' : Visit) : Prop where
  network : v.network = v'.network
  id : v.id = v'.id
  level : v.level = v'.level
  frame : (g.region? v.container).map (·.name) = some ("cluster_" ++ v.id.text)
  frame' : (g'.region? v'.container).map (·.name) = some ("cluster_" ++ v.id.text)
  leaves : ∀ site ∈ leaves v.network, ∃ n n',
    g.node? (identityAt v.id site).text = some n ∧ g'.node? (identityAt v.id site).text = some n'
  count : (g.edgesIn v.container).length = (v.wires cfg).length
  count' : (g'.edgesIn v'.container).length = (v.wires cfg).length
  edges : ∀ (i : Nat) w e e', (v.wires cfg)[i]? = some w →
    (g.edgesIn v.container)[i]? = some e → (g'.edgesIn v'.container)[i]? = some e' →
      w.Redrawn cfg m m' v e e'

/-! ## Visits

The finer tour is the coarser one with more inside of it.  So the visits of the coarser one are
those of the finer one down to a level, in the same order. -/

/-- What can be used with more detail can be used with less. -/
theorem usableBelow_atDetail (hm : m ≤ m') {level : Nat} {network : Cursor}
    (h : usableBelow source (s.atDetail m') level network = true) :
    usableBelow source (s.atDetail m) level network = true := by
  -- along the finer check, which looks at everything that the coarser one needs
  fun_induction usableBelow source (s.atDetail m') level network with
  | case1 level network hl ih =>
    rw [List.all_eq_true] at h
    refine usableBelow_iff.mpr fun _ site hs => ?_
    have hs := h site hs
    split at hs
    · cases hs
    next inner hn => exact ⟨inner, hn, ih inner hs⟩
  | case2 level network hl =>
    exact usableBelow_iff.mpr fun hlt => absurd (Nat.lt_of_lt_of_le hlt hm) hl

/-- A model that can be used in more detail can be used in less. -/
theorem usable_atDetail (hm : m ≤ m') (h : usable source (s.atDetail m') = true) :
    usable source (s.atDetail m) = true := by
  obtain ⟨network, hn, hu⟩ := (Option.any_eq_true _ _).mp h
  exact (Option.any_eq_true _ _).mpr ⟨network, hn, usableBelow_atDetail hm hu⟩

/-- A visit but for its region: network, process and level. -/
def Visit.place (v : Visit) : Cursor × Identity × Nat := (v.network, v.id, v.level)

/-- Two visits are at one place if all but their regions agree. -/
theorem Visit.place_eq_iff :
    v.place = v'.place ↔ v.network = v'.network ∧ v.id = v'.id ∧ v.level = v'.level := by
  rw [place, place, Prod.mk.injEq, Prod.mk.injEq]

/-- An opening but for the region of its visit. -/
def Opening.place (o : Opening) : Path × Cursor × Identity × Nat := (o.path, o.visit.place)

/-- The openings that are also there at the detail level `m`. -/
def shallow (m : Nat) (os : List Opening) : List Opening :=
  os.filter (·.visit.level ≤ max firstLevel m)

theorem shallow_append (m : Nat) (os ps : List Opening) :
    shallow m (os ++ ps) = shallow m os ++ shallow m ps :=
  List.filter_append ..

theorem shallow_cons_of_le {o : Opening} (h : o.visit.level ≤ max firstLevel m)
    (os : List Opening) : shallow m (o :: os) = o :: shallow m os :=
  List.filter_cons_of_pos (decide_eq_true h)

/-- Nothing below the detail level is shallow. -/
theorem shallow_tourAlong {v : Visit} (hf : firstLevel ≤ v.level) (hl : m ≤ v.level)
    (next : RegionId) (sites : List Cursor) (dir : Path) :
    shallow m ((tourAlong source s v next sites).openings dir) = [] := by
  refine List.filter_eq_nil_iff.mpr fun o ho => ?_
  have hv : o.visit ∈ (tourAlong source s v next sites).visits :=
    Tour.visit_openings dir _ ▸ List.mem_map_of_mem ho
  have hlt := Tour.level_lt
    (follows_tourAlong (fun _ w _ => follows_tourBelow source s w) next sites).2 hv
  simp only [decide_eq_true_eq]
  exact Nat.not_le.mpr (Nat.lt_of_le_of_lt (Nat.max_le.mpr ⟨hf, hl⟩) hlt)

/-- Along composites of one network the same documents are opened, as far as the smaller detail
level reaches, if this is so inside of each. -/
theorem place_openings_tourAlong (hm : m ≤ m') (hp : v.place = v'.place)
    (hf : firstLevel ≤ v'.level)
    (h : v'.level < m' → ∀ w w' : Visit, w.place = w'.place → w'.level = v'.level + 1 →
      ((tourBelow source (s.atDetail m) w).openings s.inDir).map Opening.place =
        (shallow m ((tourBelow source (s.atDetail m') w').openings s.inDir)).map Opening.place)
    (next next' : RegionId) (sites : List Cursor) :
    ((tourAlong source (s.atDetail m) v next sites).openings s.inDir).map Opening.place =
      (shallow m ((tourAlong source (s.atDetail m') v' next' sites).openings s.inDir)).map
        Opening.place := by
  obtain ⟨-, hid, hlevel⟩ := Visit.place_eq_iff.mp hp
  by_cases hl : v'.level < m
  · have hl' : v'.level < m' := Nat.lt_of_lt_of_le hl hm
    induction sites generalizing next next' with
    | nil =>
      rw [tourAlong_nil, tourAlong_nil]
      rfl
    | cons site sites ih =>
      cases hn : networkOf? source s.inDir site with
      | none =>
        rw [tourAlong_cons_none (s := s.atDetail m) hn, tourAlong_cons_none (s := s.atDetail m') hn]
        exact ih next next'
      | some network =>
        have hlv : v.level < m := hlevel ▸ hl
        rw [tourAlong_cons_some (s := s.atDetail m) hlv hn,
          tourAlong_cons_some (s := s.atDetail m') hl' hn]
        -- both tours visit the network of the composite, one level further down
        let w : Visit := ⟨network, identityAt v.id site, v.level + 1, next⟩
        let w' : Visit := ⟨network, identityAt v'.id site, v'.level + 1, next'⟩
        have hw : w.place = w'.place := by simp [w, w', Visit.place_eq_iff, hid, hlevel]
        have hle : w'.level ≤ max firstLevel m := Nat.le_trans hl (Nat.le_max_right ..)
        simp only [Tour.openings, List.cons_append]
        rw [shallow_cons_of_le hle, shallow_append, List.map_cons, List.map_cons, List.map_append,
          List.map_append, ih _ _, h hl' w w' hw rfl]
        exact congrArg (· :: _) (congrArg (Prod.mk _) hw)
  · have hl := Nat.not_lt.mp hl
    have hlv : m ≤ v.level := hlevel ▸ hl
    rw [shallow_tourAlong hf hl, tourAlong_of_le (s := s.atDetail m) hlv]
    rfl

/-- Below a visit the same documents are opened with less detail, those of the lower levels left
out. -/
theorem place_openings_tourBelow (hm : m ≤ m') (hp : v.place = v'.place)
    (hf : firstLevel ≤ v'.level) :
    ((tourBelow source (s.atDetail m) v).openings s.inDir).map Opening.place =
      (shallow m ((tourBelow source (s.atDetail m') v').openings s.inDir)).map Opening.place := by
  obtain ⟨hn, -, hlevel⟩ := Visit.place_eq_iff.mp hp
  -- along the recursion of the finer tour; the coarser one stops no later
  fun_induction tourBelow source (s.atDetail m') v' generalizing v with
  | case1 v' hl ih =>
    have h := place_openings_tourAlong hm hp hf
      (fun _ w w' hw hw' => ih w' hw' hw (by omega) (Visit.place_eq_iff.mp hw).1
        (Visit.place_eq_iff.mp hw).2.2)
      (v.container + width s.config.clusters) (v'.container + width s.config.clusters)
      (compositesOf v'.network)
    rw [tourBelow_eq, hn]
    exact h.trans (by rw [tourAlong, if_pos hl]; rfl)
  | case2 v' hl =>
    -- where the finer tour stops, so does the coarser
    have hlv : ¬ v.level < (s.atDetail m).config.maxLevel := fun h =>
      hl (Nat.lt_of_lt_of_le (hlevel ▸ h) hm)
    rw [tourBelow, if_neg hlv]
    rfl

/-- The documents opened with less detail are those of the upper levels. -/
theorem place_openings (hm : m ≤ m') :
    (openings source (s.atDetail m)).map Opening.place =
      (shallow m (openings source (s.atDetail m'))).map Opening.place := by
  cases hn : rootNetwork? source s with
  | none =>
    have hn' : ∀ k, rootNetwork? source (s.atDetail k) = none := fun _ => hn
    rw [openings, openings, hn', hn']
    rfl
  | some network =>
    rw [openings_eq (s := s.atDetail m) hn, openings_eq (s := s.atDetail m') hn, openingsFrom,
      openingsFrom, shallow_cons_of_le (Nat.le_max_left ..), List.map_cons, List.map_cons]
    exact congrArg _ (place_openings_tourBelow hm rfl (Nat.le_refl _))

/-! ## Edges

An end depends on whether its process is shown as a node.  More detail changes this for composites
between the two levels, and for no others. -/

/-- What is shown as a node at a detail level: leaves, and composites from that level on. -/
theorem isShown_atDetail_iff {level : Nat} {network : Cursor} {x : String} :
    IsShown (cfg.atDetail m) level network x ↔
      x ∈ namesOf (leaves network) ∨ (m ≤ level ∧ x ∈ namesOf (compositesOf network)) :=
  Iff.rfl

/-- A terminal has the same end at both detail levels, unless it is at a box that is opened. -/
theorem matches_endAt (hm : m ≤ m') (hp : v.place = v'.place) (side : String) (t : Terminal) :
    t.Matches side m m' v ((t.endAt (cfg.atDetail m) v).onSide side)
      ((t.endAt (cfg.atDetail m') v').onSide side) := by
  obtain ⟨hn, hid, hlevel⟩ := Visit.place_eq_iff.mp hp
  cases t with
  | own port =>
    rw [Terminal.Matches, Terminal.endAt, Terminal.endAt, hid]
  | inner x q =>
    rw [Terminal.Matches, Terminal.endAt, Terminal.endAt, ← hid, ← hlevel, ← hn, endOf, endOf]
    constructor
    · intro ho
      have hiff : IsShown (cfg.atDetail m) v.level v.network x ↔
          IsShown (cfg.atDetail m') v.level v.network x := by
        rw [isShown_atDetail_iff, isShown_atDetail_iff]
        constructor
        · rintro (h | ⟨hl, hc⟩)
          · exact Or.inl h
          -- a composite that is no box with more detail is one that is opened
          · by_cases hx : x ∈ namesOf (leaves v.network)
            · exact Or.inl hx
            · exact Or.inr ⟨Nat.not_lt.mp fun hl' => ho ⟨hc, hx, hl, hl'⟩, hc⟩
        · rintro (h | ⟨hl, hc⟩)
          · exact Or.inl h
          · exact Or.inr ⟨Nat.le_trans hm hl, hc⟩
      simp only [hiff]
    · rintro ⟨hc, hnl, hl, hl'⟩
      have hs : IsShown (cfg.atDetail m) v.level v.network x := Or.inr ⟨hl, hc⟩
      have hs' : ¬ IsShown (cfg.atDetail m') v.level v.network x := by
        rw [isShown_atDetail_iff]
        rintro (h | ⟨h, -⟩)
        · exact hnl h
        · exact Nat.not_le.mpr hl' h
      rw [if_pos hs, if_neg hs']
      exact ⟨rfl, rfl⟩

/-- The edges of a wire at two detail levels. -/
theorem redrawn_wireEdge (hm : m ≤ m') (hp : v.place = v'.place) (w : Wire) :
    w.Redrawn cfg m m' v (v.wireEdge (cfg.atDetail m) w) (v'.wireEdge (cfg.atDetail m') w) where
  style := by rw [get?_wireEdge, get?_wireEdge]; rfl
  penwidth := by rw [get?_wireEdge, get?_wireEdge]; rfl
  label := by rw [get?_wireEdge, get?_wireEdge]; rfl
  tail := by
    rw [tailEnd_wireEdge, tailEnd_wireEdge]
    exact matches_endAt hm hp _ _
  head := by
    rw [headEnd_wireEdge, headEnd_wireEdge]
    exact matches_endAt hm hp _ _

/-! ## Refinement -/

/-- Visits of one network in two drawings refine each other. -/
theorem Drawn.refines {g g' : Graph} {u u' : Visit} {t t' : Tour}
    (h : Drawn (cfg.atDetail m) u t g) (h' : Drawn (cfg.atDetail m') u' t' g') (hm : m ≤ m')
    (hv : v ∈ u :: t.visits) (hv' : v' ∈ u' :: t'.visits) (hp : v.place = v'.place) :
    v.Refines cfg m m' g g' v' := by
  obtain ⟨hn, hid, hlevel⟩ := Visit.place_eq_iff.mp hp
  -- one network has the same wires at both levels, so the edges are compared one by one
  have hwires : v'.wires cfg = v.wires cfg := by
    rw [Visit.wires, Visit.wires, Visit.ports, Visit.ports, Visit.signals, Visit.signals, hn]
  have he : g.edgesIn v.container = (v.wires cfg).map (v.wireEdge (cfg.atDetail m)) := by
    rw [h.edgesIn_container hv, Visit.edges_eq_map]
    rfl
  have he' : g'.edgesIn v'.container = (v.wires cfg).map (v'.wireEdge (cfg.atDetail m')) := by
    rw [h'.edgesIn_container hv', Visit.edges_eq_map, ← hwires]
    rfl
  refine ⟨hn, hid, hlevel, (h.placed_of_mem hv).container,
    hid ▸ (h'.placed_of_mem hv').container, fun site hs => ?_, by rw [he, List.length_map],
    by rw [he', List.length_map], fun i w e e' hw hei hei' => ?_⟩
  · have hleaf : ∀ {k} {w : Visit}, site ∈ leaves w.network →
        w.leafNode (cfg.atDetail k) site ∈ w.elements (cfg.atDetail k) := fun hs =>
      List.mem_append_left _ (List.mem_append_right _ (List.mem_map_of_mem hs))
    obtain ⟨n, hg⟩ := h.exists_node_of_element hv (hleaf hs)
    obtain ⟨n', hg'⟩ := h'.exists_node_of_element hv' (hleaf (hn ▸ hs))
    exact ⟨n, n', hg, hid ▸ hg'⟩
  · rw [he, List.getElem?_map, hw] at hei
    rw [he', List.getElem?_map, hw] at hei'
    obtain rfl := Option.some.inj hei
    obtain rfl := Option.some.inj hei'
    exact redrawn_wireEdge hm hp w

/-- **Detail.**  A model that compiles at a detail level compiles at every smaller one.  The
documents that are then opened are some of those opened before, in the same order: those of the
networks down to the smaller level, the first network being always there.  Each of these networks
has its leaves in both graphs and the same edges in its container, which differ only at composites
that are boxes with less detail and frames with more. -/
theorem detail_of_compile {source : Source} {s : Settings} {m m' : Nat} {g' : Graph}
    (hm : m ≤ m') (h : (compile source (s.atDetail m')).outcome = .ok g') :
    ∃ g, (compile source (s.atDetail m)).outcome = .ok g ∧
      (compile source (s.atDetail m)).opened.Sublist (compile source (s.atDetail m')).opened ∧
      (compile source (s.atDetail m')).opened =
        (openings source (s.atDetail m')).map (·.path) ∧
      (openings source (s.atDetail m')).map (·.visit) = visits source (s.atDetail m') ∧
      (∀ o ∈ openings source (s.atDetail m'),
        openDocument source "process_network" o.path = .ok o.visit.network) ∧
      (compile source (s.atDetail m)).opened =
        ((openings source (s.atDetail m')).filter (·.visit.level ≤ max 2 m)).map (·.path) ∧
      List.Forall₂ (Visit.Refines s.config m m' g g') (visits source (s.atDetail m))
        ((visits source (s.atDetail m')).filter (·.level ≤ max 2 m)) := by
  -- what suffices for more detail suffices for less
  obtain ⟨g, hg⟩ := compile_ok_iff.mpr (usable_atDetail hm (compile_ok_iff.mp ⟨g', h⟩))
  have hplace := @place_openings source s m m' hm
  have hpaths : (compile source (s.atDetail m)).opened =
      (shallow m (openings source (s.atDetail m'))).map (·.path) := by
    have hpath := congrArg (List.map (·.1)) hplace
    rw [List.map_map, List.map_map] at hpath
    rw [opened_of_compile hg]
    exact hpath
  refine ⟨g, hg, ?_, opened_of_compile h, visit_openings .., fun o ho => open_of_openings ho,
    hpaths, ?_⟩
  · rw [hpaths, opened_of_compile h]
    exact List.filter_sublist.map _
  · obtain ⟨u, t, hu, hd⟩ := exists_drawn_of_compile hg
    obtain ⟨u', t', hu', hd'⟩ := exists_drawn_of_compile h
    -- the visits match in pairs, as the openings do that led to them
    have hmatch : List.Forall₂ (fun v v' : Visit => v.place = v'.place)
        (visits source (s.atDetail m))
        ((visits source (s.atDetail m')).filter (·.level ≤ max 2 m)) := by
      rw [← visit_openings, ← visit_openings, List.filter_map, List.forall₂_map_left_iff,
        List.forall₂_map_right_iff]
      rw [← List.forall₂_eq_eq_eq, List.forall₂_map_left_iff, List.forall₂_map_right_iff] at hplace
      exact hplace.imp fun _ _ ho => congrArg (·.2) ho
    obtain ⟨hlength, hzip⟩ := List.forall₂_iff_zip.mp hmatch
    refine List.forall₂_iff_zip.mpr ⟨hlength, fun {v v'} hv => ?_⟩
    obtain ⟨hl, hr⟩ := List.of_mem_zip hv
    exact hd.refines hd' hm (hu ▸ hl) (hu' ▸ (List.mem_filter.mp hr).1) (hzip hv)

/-- A box of the small model is a frame with more detail. -/
theorem detail_of_compile_sample :
    2 ≤ 3 ∧ ∃ g', (compile sampleSource (sampleSettings.atDetail 3)).outcome = .ok g' ∧
      ∃ g, (compile sampleSource (sampleSettings.atDetail 2)).outcome = .ok g ∧
        (compile sampleSource (sampleSettings.atDetail 2)).opened.Sublist
          (compile sampleSource (sampleSettings.atDetail 3)).opened ∧
        (compile sampleSource (sampleSettings.atDetail 3)).opened =
          (openings sampleSource (sampleSettings.atDetail 3)).map (·.path) ∧
        (openings sampleSource (sampleSettings.atDetail 3)).map (·.visit) =
          visits sampleSource (sampleSettings.atDetail 3) ∧
        (∀ o ∈ openings sampleSource (sampleSettings.atDetail 3),
          openDocument sampleSource "process_network" o.path = .ok o.visit.network) ∧
        (compile sampleSource (sampleSettings.atDetail 2)).opened =
          ((openings sampleSource (sampleSettings.atDetail 3)).filter
            (·.visit.level ≤ max 2 2)).map (·.path) ∧
        List.Forall₂ (Visit.Refines sampleSettings.config 2 3 g g')
          (visits sampleSource (sampleSettings.atDetail 2))
          ((visits sampleSource (sampleSettings.atDetail 3)).filter (·.level ≤ max 2 2)) := by
  obtain ⟨g', hg'⟩ := compile_ok_iff.mpr sample_visits.1
  exact ⟨by decide, g', hg', detail_of_compile (by decide) hg'⟩

end Network

end NetPlot
