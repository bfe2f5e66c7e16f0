/-
  The documents of a tour, with the visits that they are opened for.

  1. **Program** — `openings` lists the documents that a model leads to, each with the visit of the
     network that is in it; paths and visits by themselves are those of the tour.

  2. **Documents** — every visit is that of the network in its document (`open_of_openings`).

  3. **Levels** — what is visited inside of a visit has a larger level (`Tour.level_lt`).

  A document may be opened several times, for different processes.  With the visit beside the path
  it can be said what each of these openings is for.
-/
import NetPlot.Proofs.Answer
import NetPlot.Proofs.Network.Steps

namespace NetPlot.Network

open NetPlot.Graph NetPlot.Xml

/-- A document that is opened, with the visit that it is opened for. -/
structure Opening where
  path : Path
  visit : Visit

/-- The openings of a tour, those of a network before those of the networks inside of it. -/
def Tour.openings (dir : Path) : Tour → List Opening
  | done => []
  | visit site v inner rest =>
    ⟨componentFile dir (site.element.attr "component_name"), v⟩ ::
      inner.openings dir ++ rest.openings dir

/-- The openings of a model that begins with the visit `v`. -/
def openingsFrom (source : Source) (s : Settings) (v : Visit) : List Opening :=
  ⟨s.input, v⟩ :: (tourBelow source s v).openings s.inDir

/-- The openings of a model. -/
def openings (source : Source) (s : Settings) : List Opening :=
  match rootNetwork? source s with
  | none => []
  | some network => openingsFrom source s (rootVisit s network)

/-! ## Paths and visits -/

/-- The paths of the openings are those of the documents of the tour. -/
theorem Tour.path_openings (dir : Path) (t : Tour) :
    (t.openings dir).map (·.path) = t.documents dir := by
  induction t with
  | done => rfl
  | visit site v inner rest ihi ihr =>
    rw [openings, documents, List.map_append, List.map_cons, ihi, ihr]

/-- The visits of the openings are those of the tour. -/
theorem Tour.visit_openings (dir : Path) (t : Tour) :
    (t.openings dir).map (·.visit) = t.visits := by
  induction t with
  | done => rfl
  | visit site v inner rest ihi ihr =>
    rw [openings, visits, List.map_append, List.map_cons, ihi, ihr]

variable {source : Source} {s : Settings}

/-- A model whose own document opens begins with the visit of the root. -/
theorem openings_eq {network : Cursor} (h : rootNetwork? source s = some network) :
    openings source s = openingsFrom source s (rootVisit s network) := by
  rw [openings, h]

/-- The openings of a model are those of its visits. -/
theorem visit_openings (source : Source) (s : Settings) :
    (openings source s).map (·.visit) = visits source s := by
  cases hn : rootNetwork? source s with
  | none => rw [openings, visits, hn, List.map_nil]
  | some network =>
    rw [openings_eq hn, visits_eq hn, openingsFrom, List.map_cons, Tour.visit_openings]

/-- A model that compiles has opened the documents of its openings. -/
theorem opened_of_compile {g : Graph} (h : (compile source s).outcome = .ok g) :
    (compile source s).opened = (openings source s).map (·.path) := by
  obtain ⟨network, hn, -, ho, -⟩ := compile_eq_ok h
  rw [ho, openings_eq hn, openingsFrom, List.map_cons, Tour.path_openings]

/-! ## Documents

A tour visits what a document holds when it is opened, and by then it has been opened.  The
induction is that of the tour: along the sites of a visit, with the visits below the next level
given. -/

/-- The document holds the network of the visit. -/
def Opening.Holds (source : Source) (o : Opening) : Prop :=
  openDocument source "process_network" o.path = .ok o.visit.network

/-- Along the sites of a visit, each opening holds the network of its visit. -/
theorem holds_tourAlong {v : Visit}
    (h : v.level < s.config.maxLevel → ∀ w : Visit, w.level = v.level + 1 →
      ∀ o ∈ (tourBelow source s w).openings s.inDir, o.Holds source)
    (next : RegionId) (sites : List Cursor) :
    ∀ o ∈ (tourAlong source s v next sites).openings s.inDir, o.Holds source := by
  -- above the last level along the sites; a site without a network is passed over
  by_cases hl : v.level < s.config.maxLevel
  · induction sites generalizing next with
    | nil =>
      rw [tourAlong_nil]
      exact fun o ho => absurd ho List.not_mem_nil
    | cons site sites ih =>
      cases hn : networkOf? source s.inDir site with
      | none =>
        rw [tourAlong_cons_none hn]
        exact ih next
      | some network =>
        rw [tourAlong_cons_some hl hn]
        intro o ho
        rw [Tour.openings, List.mem_append, List.mem_cons] at ho
        rcases ho with (rfl | ho) | ho
        · exact eq_ok_of_toOption hn
        · exact h hl _ rfl o ho
        · exact ih _ o ho
  · rw [tourAlong_of_le (Nat.not_lt.mp hl)]
    exact fun o ho => absurd ho List.not_mem_nil

/-- Below a visit each opening holds the network of its visit, by the recursion of the tour. -/
theorem holds_tourBelow (source : Source) (s : Settings) (v : Visit) :
    ∀ o ∈ (tourBelow source s v).openings s.inDir, o.Holds source := by
  fun_induction tourBelow source s v with
  | case1 v hl ih =>
    have h := holds_tourAlong (fun _ w hw => ih w hw) (v.container + width s.config.clusters)
      (compositesOf v.network)
    rw [tourAlong, if_pos hl] at h
    exact h
  | case2 => exact fun o ho => absurd ho List.not_mem_nil

/-- Every document of a model holds the network that is visited. -/
theorem open_of_openings {o : Opening} (h : o ∈ openings source s) :
    openDocument source "process_network" o.path = .ok o.visit.network := by
  cases hn : rootNetwork? source s with
  | none =>
    rw [openings, hn] at h
    exact absurd h List.not_mem_nil
  | some network =>
    rw [openings_eq hn, openingsFrom, List.mem_cons] at h
    rcases h with rfl | h
    · exact eq_ok_of_toOption hn
    · exact holds_tourBelow source s _ o h

/-! ## Levels

A tour goes one level down with every visit inside, so the levels below a visit are larger than its
own, and filtering by a level cuts a tour off at that depth. -/

/-- What is visited inside of a visit has a larger level. -/
theorem Tour.level_lt {cfg : Config} {u w : Visit} {t : Tour} {n : RegionId}
    (h : t.Follows cfg u n) (hw : w ∈ t.visits) : u.level < w.level := by
  induction t generalizing u n with
  | done => exact absurd hw List.not_mem_nil
  | visit site v inner rest ihi ihr =>
    obtain ⟨hv, -, hi, hr⟩ := h
    have hlt : u.level < v.level := by
      rw [hv.level]
      exact Nat.lt_succ_self _
    rcases mem_visits.mp hw with rfl | hw | hw
    · exact hlt
    · exact Nat.lt_trans hlt (ihi hi hw)
    · exact ihr hr hw

end NetPlot.Network
