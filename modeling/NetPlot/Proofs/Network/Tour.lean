/-
  Tours: the networks that a model leads to, in the order in which they are visited.

  1. **Data** — a `Visit` is a network with the process it belongs to, its level and the number of
     the region that holds its drawing.  A `Tour` lists the expanded composites of a network, each
     with the tour inside of it: the expansion tree of a model, its boxes left out.

  2. **Program** — `tourBelow` walks from a visit down the documents.  It looks at nothing but the
     documents and the detail level; what is drawn and in which order plays no part.

  3. **Rules** — `tourAlong` goes through the composites of a network one by one; its equations
     are what an induction over composites needs.

  4. **Shape** — what a tour inside of a visit looks like, whatever the documents say (`Follows`):
     identities and levels go down by one step, containers are numbered in order.

  Documents, regions, nodes and edges of a model are all read off its tour.  So different statements
  about one model speak of the same visits, in the same order and under the same numbers.
-/
import NetPlot.Network.Drawing

namespace NetPlot.Network

open NetPlot.Graph NetPlot.Xml

/-! ## Visits

Documents that cannot be used are passed over here, so that there is a tour for every model.  A
model that compiles has none of these on its way. -/

/-- The names of elements in order. -/
def namesOf (sites : List Cursor) : List String := sites.map (·.element.attr "name")

/-- The network that a composite process stands for, if its document can be used. -/
def networkOf? (source : Source) (dir : Path) (site : Cursor) : Option Cursor :=
  (openDocument source "process_network"
    (componentFile dir (site.element.attr "component_name"))).toOption

/-- A network that is visited. -/
structure Visit where
  network : Cursor
  /-- The process that it is the network of. -/
  id : Identity
  level : Nat
  /-- The region that its drawing is in. -/
  container : RegionId

/-- The interface ports of a network that is visited. -/
def Visit.ports (v : Visit) : List Cursor := v.network.childrenNamed "port"

/-- The signals of a network that is visited. -/
def Visit.signals (v : Visit) : List Cursor := v.network.childrenNamed "signal"

/-- The composites that a visit expands: all of them below the detail level, else none. -/
def Visit.expanded (cfg : Config) (v : Visit) : List Cursor :=
  if v.level < cfg.maxLevel then compositesOf v.network else []

/-- How many regions a visit opens: its container and the role clusters in it. -/
def width (flags : Flags) : Nat := 1 + (Role.drawn flags).length

/-- The expanded composites of a network in order, each with what is visited inside of it. -/
inductive Tour where
  | done
  | visit (site : Cursor) (v : Visit) (inner rest : Tour)

namespace Tour

/-- The number of visits. -/
def size : Tour → Nat
  | done => 0
  | visit _ _ inner rest => 1 + inner.size + rest.size

/-- The visits, a network before the networks inside of it. -/
def visits : Tour → List Visit
  | done => []
  | visit _ v inner rest => v :: inner.visits ++ rest.visits

@[simp] theorem mem_visits {site : Cursor} {v w : Visit} {inner rest : Tour} :
    w ∈ (visit site v inner rest).visits ↔ w = v ∨ w ∈ inner.visits ∨ w ∈ rest.visits := by
  simp [visits]

/-- The documents of the visits, a network before the networks inside of it. -/
def documents (dir : Path) : Tour → List Path
  | done => []
  | visit site _ inner rest =>
    componentFile dir (site.element.attr "component_name") ::
      inner.documents dir ++ rest.documents dir

/-- The composites that are expanded in the network itself. -/
def sites : Tour → List Cursor
  | done => []
  | visit site _ _ rest => site :: rest.sites

/-- The tour is along exactly these composites, and inside of each along all that are expanded. -/
def Covers (cfg : Config) : List Cursor → Tour → Prop
  | [], done => True
  | site :: sites, visit site' v inner rest =>
    site' = site ∧ inner.Covers cfg (v.expanded cfg) ∧ rest.Covers cfg sites
  | _, _ => False

/-- The tour of composites of `v`, where `below` says what is visited inside of each; containers
are numbered from `next` on. -/
def through (network? : Cursor → Option Cursor) (width : Nat) (v : Visit)
    (below : (w : Visit) → w.level = v.level + 1 → Tour) (next : RegionId) : List Cursor → Tour
  | [] => done
  | site :: rest =>
    match network? site with
    | none => through network? width v below next rest
    | some network =>
      let w : Visit := ⟨network, identityAt v.id site, v.level + 1, next⟩
      let inner := below w rfl
      visit site w inner (through network? width v below (next + width * (inner.size + 1)) rest)

end Tour

/-- Everything visited inside of a visit; nothing from the detail level on. -/
def tourBelow (source : Source) (s : Settings) (v : Visit) : Tour :=
  if v.level < s.config.maxLevel then
    .through (networkOf? source s.inDir) (width s.config.clusters) v
      (fun w _ => tourBelow source s w) (v.container + width s.config.clusters)
      (compositesOf v.network)
  else .done
termination_by s.config.maxLevel - v.level

/-- The part of `tourBelow` that goes through some of the composites of `v`. -/
def tourAlong (source : Source) (s : Settings) (v : Visit) (next : RegionId)
    (sites : List Cursor) : Tour :=
  if v.level < s.config.maxLevel then
    .through (networkOf? source s.inDir) (width s.config.clusters) v
      (fun w _ => tourBelow source s w) next sites
  else .done

/-- The visit that a model starts with. -/
def rootVisit (s : Settings) (network : Cursor) : Visit := ⟨network, ⟨s.rootName⟩, firstLevel, 1⟩

/-- The network of the model itself, if its document can be used. -/
def rootNetwork? (source : Source) (s : Settings) : Option Cursor :=
  (openDocument source "process_network" s.input).toOption

/-- All networks that a model leads to, a network before the networks inside of it. -/
def visits (source : Source) (s : Settings) : List Visit :=
  match rootNetwork? source s with
  | none => []
  | some network => rootVisit s network :: (tourBelow source s (rootVisit s network)).visits

/-- A model whose own document opens begins with the visit of the root. -/
theorem visits_eq {source : Source} {s : Settings} {network : Cursor}
    (h : rootNetwork? source s = some network) :
    visits source s =
      rootVisit s network :: (tourBelow source s (rootVisit s network)).visits := by
  rw [visits, h]

section

variable {source : Source} {s : Settings} {v : Visit} {next : RegionId}

theorem tourBelow_eq (source : Source) (s : Settings) (v : Visit) :
    tourBelow source s v =
      tourAlong source s v (v.container + width s.config.clusters) (compositesOf v.network) := by
  rw [tourBelow, tourAlong]

theorem tourAlong_nil : tourAlong source s v next [] = .done := by
  rw [tourAlong]
  split <;> rfl

theorem tourAlong_of_le (h : s.config.maxLevel ≤ v.level) (sites : List Cursor) :
    tourAlong source s v next sites = .done :=
  if_neg (Nat.not_lt.mpr h)

/-- A composite whose document cannot be used is passed over. -/
theorem tourAlong_cons_none {site : Cursor} {sites : List Cursor}
    (hn : networkOf? source s.inDir site = none) :
    tourAlong source s v next (site :: sites) = tourAlong source s v next sites := by
  simp only [tourAlong, Tour.through, hn]

/-- Any other is visited, with all that is inside of it, and the numbers go on behind the regions
that this takes. -/
theorem tourAlong_cons_some (h : v.level < s.config.maxLevel) {site network : Cursor}
    (hn : networkOf? source s.inDir site = some network) (sites : List Cursor) :
    tourAlong source s v next (site :: sites) =
      let w : Visit := ⟨network, identityAt v.id site, v.level + 1, next⟩
      .visit site w (tourBelow source s w)
        (tourAlong source s v
          (next + width s.config.clusters * ((tourBelow source s w).size + 1)) sites) := by
  simp only [tourAlong, if_pos h, Tour.through, hn]

end

/-! ## Shape

Whatever the documents say, a tour has the levels, the identities and the numbers that the walk
gives to its visits.  Proofs about a model use this shape and not the walk. -/

/-- The visit `v` is that of a composite of `u`, and its container has the number `n`. -/
structure Visit.Follows (v u : Visit) (site : Cursor) (n : RegionId) : Prop where
  id : v.id = identityAt u.id site
  level : v.level = u.level + 1
  container : v.container = n

/-- A tour inside of `u` along some of the composites that are expanded there, whose containers
are numbered from `n` on. -/
def Tour.Follows (cfg : Config) (u : Visit) (n : RegionId) : Tour → Prop
  | done => True
  | visit site v inner rest =>
    v.Follows u site n ∧ inner.sites.Sublist (v.expanded cfg) ∧
      inner.Follows cfg v (n + width cfg.clusters) ∧
      rest.Follows cfg u (n + width cfg.clusters * (inner.size + 1))

theorem Visit.expanded_sublist (cfg : Config) (v : Visit) :
    (v.expanded cfg).Sublist (compositesOf v.network) := by
  rw [expanded]
  split
  · exact List.Sublist.refl _
  · exact List.nil_sublist _

/-- Along the sites of a visit, the tour follows it if those below the next level follow theirs. -/
theorem follows_tourAlong {source : Source} {s : Settings} {v : Visit}
    (h : v.level < s.config.maxLevel → ∀ w : Visit, w.level = v.level + 1 →
      (tourBelow source s w).sites.Sublist (w.expanded s.config) ∧
        (tourBelow source s w).Follows s.config w (w.container + width s.config.clusters))
    (next : RegionId) (sites : List Cursor) :
    (tourAlong source s v next sites).sites.Sublist
        (if v.level < s.config.maxLevel then sites else []) ∧
      (tourAlong source s v next sites).Follows s.config v next := by
  by_cases hl : v.level < s.config.maxLevel
  · rw [if_pos hl]
    induction sites generalizing next with
    | nil =>
      rw [tourAlong_nil]
      exact ⟨List.Sublist.refl [], trivial⟩
    | cons site sites ih =>
      cases hn : networkOf? source s.inDir site with
      | none =>
        -- a composite whose document cannot be used is left out
        rw [tourAlong_cons_none hn]
        exact ⟨(ih next).1.cons site, (ih next).2⟩
      | some network =>
        let w : Visit := ⟨network, identityAt v.id site, v.level + 1, next⟩
        obtain ⟨hs, hw⟩ := h hl w rfl
        obtain ⟨hr, ht⟩ :=
          ih (next + width s.config.clusters * ((tourBelow source s w).size + 1))
        rw [tourAlong_cons_some hl hn]
        exact ⟨hr.cons_cons site, ⟨rfl, rfl, rfl⟩, hs, hw, ht⟩
  · rw [tourAlong_of_le (Nat.not_lt.mp hl)]
    exact ⟨List.nil_sublist _, trivial⟩

/-- What is visited inside of a visit follows it. -/
theorem follows_tourBelow (source : Source) (s : Settings) (v : Visit) :
    (tourBelow source s v).sites.Sublist (v.expanded s.config) ∧
      (tourBelow source s v).Follows s.config v (v.container + width s.config.clusters) := by
  fun_induction tourBelow source s v with
  | case1 v hl ih =>
    have h := follows_tourAlong (fun _ w hw => ih w hw) (v.container + width s.config.clusters)
      (compositesOf v.network)
    rw [tourAlong, if_pos hl] at h
    exact h
  | case2 => exact ⟨List.nil_sublist _, trivial⟩

end NetPlot.Network
