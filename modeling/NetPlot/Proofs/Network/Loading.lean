/-
  Loading a model, and the tour that it follows.

  1. **Readings** — a reading that succeeds is made of readings that succeed (`bind_eq_ok`,
     `map_eq_ok`), and what was opened is listed in their order.

  2. **Expansions** — `Expands` is the expansion of composites as a relation between them and
     their documents, one rule for each kind of composite; `expand` gives nothing else
     (`expands_of_expand`).

  3. **Whole models** — the documents opened are those of the tour (`load_eq_ok`).  A model does
     load if every document on the way can be used (`load_of_usable`).

  The program decides on documents as it goes along and stops at the first that fails, while every
  model has a tour.  The two are compared where the program comes to its end.
-/
import NetPlot.Proofs.Network.Tour

namespace NetPlot.Network

open NetPlot.Xml

/-! ## Readings that succeed

A reading carries the list of what has been opened beside its outcome.  These lemmas take a reading
that succeeds apart into the readings that it was put together from. -/

namespace Reading

variable {ε ε' α β : Type} {opened : List Path}

theorem pure_eq_ok {a b : α} : (pure a : Reading ε α) = ⟨opened, .ok b⟩ ↔ opened = [] ∧ a = b := by
  simp [pure, eq_comm]

theorem map_eq_ok {f : α → β} {x : Reading ε α} {b : β} :
    x.map f = ⟨opened, .ok b⟩ ↔ ∃ a, x = ⟨opened, .ok a⟩ ∧ f a = b := by
  obtain ⟨ps, o⟩ := x
  cases o with
  | error e => simp [map, Except.map]
  | ok a =>
    constructor
    · intro h
      obtain ⟨rfl, hf⟩ : ps = opened ∧ f a = b := by simpa [map, Except.map] using h
      exact ⟨a, rfl, hf⟩
    · rintro ⟨a', hx, rfl⟩
      cases hx
      rfl

/-- Where there is a result, changing the failure does nothing. -/
theorem mapError_eq_ok {f : ε → ε'} {x : Reading ε α} {a : α} :
    x.mapError f = ⟨opened, .ok a⟩ ↔ x = ⟨opened, .ok a⟩ := by
  obtain ⟨ps, o⟩ := x
  cases o with
  | error e =>
    show (⟨ps, .error (f e)⟩ : Reading ε' α) = _ ↔ _
    simp
  | ok b =>
    show (⟨ps, .ok b⟩ : Reading ε' α) = _ ↔ _
    simp

/-- Both readings succeed, and what they open is listed one after the other. -/
theorem bind_eq_ok {x : Reading ε α} {f : α → Reading ε β} {b : β} :
    x.bind f = ⟨opened, .ok b⟩ ↔
      ∃ ps a qs, x = ⟨ps, .ok a⟩ ∧ f a = ⟨qs, .ok b⟩ ∧ opened = ps ++ qs := by
  obtain ⟨ps, o⟩ := x
  cases o with
  | error e => simp [bind]
  | ok a =>
    constructor
    · intro h
      have h : (⟨ps ++ (f a).opened, (f a).outcome⟩ : Reading ε β) = ⟨opened, .ok b⟩ := h
      injection h with ho hf
      exact ⟨ps, a, (f a).opened, rfl, by rw [← hf], ho.symm⟩
    · rintro ⟨ps', a', qs, hx, hf, rfl⟩
      cases hx
      simp [bind, hf]

end Reading

/-- A network is opened through its document, and no other document is. -/
theorem openNetwork_eq_ok {source : Source} {id : Identity} {path : Path} {network : Cursor}
    {opened : List Path} :
    openNetwork source id path = ⟨opened, .ok network⟩ ↔
      opened = [path] ∧ (openDocument source "process_network" path).toOption = some network := by
  rw [openNetwork, Reading.mapError_eq_ok, Reading.open?]
  cases openDocument source "process_network" path <;> simp [Except.toOption, eq_comm]

/-! ## Expansions

The recursion of `expand` goes into a document and then on to the next composite.  `Expands` has a
rule for each of its branches, so later proofs are inductions on its rules and never open `expand`.
-/

/-- The document of a process and all inside of it. -/
def readAt (source : Source) (s : Settings) (path : Path) (id : Identity) (level : Nat) :
    Reading Failure Model :=
  (openNetwork source id path).bind fun network =>
    (expand source s.inDir s.config.maxLevel level id (compositesOf network)).map
      fun e => ⟨network, e⟩

section

variable {source : Source} {s : Settings} {level : Nat}

theorem expand_cons_of_le (h : s.config.maxLevel ≤ level) (parent : Identity) (site : Cursor)
    (rest : List Cursor) :
    expand source s.inDir s.config.maxLevel level parent (site :: rest) =
      (expand source s.inDir s.config.maxLevel level parent rest).map (.box site) := by
  rw [expand, if_pos h]

/-- Above it, its document is read before the next composite is looked at. -/
theorem expand_cons_of_lt (h : level < s.config.maxLevel) (parent : Identity) (site : Cursor)
    (rest : List Cursor) :
    expand source s.inDir s.config.maxLevel level parent (site :: rest) =
      ((readAt source s (componentFile s.inDir (site.element.attr "component_name"))
          (identityAt parent site) (level + 1)).mapError
            (Failure.inside (identityAt parent site))).bind fun m =>
        (expand source s.inDir s.config.maxLevel level parent rest).map
          (.expand site m.network m.composites) := by
  rw [expand, if_neg (Nat.not_le.mpr h), readAt]
  dsimp only
  generalize openNetwork source (identityAt parent site)
    (componentFile s.inDir (site.element.attr "component_name")) = x
  obtain ⟨opened, outcome⟩ := x
  cases outcome with
  | error e => rfl
  | ok network =>
    simp only [Reading.bind]
    generalize expand source s.inDir s.config.maxLevel (level + 1) (identityAt parent site)
      (compositesOf network) = y
    obtain ⟨opened', outcome'⟩ := y
    cases outcome' <;> rfl

end

/-- The documents that an expansion has opened. -/
def Expansion.documents (dir : Path) : Expansion → List Path
  | .done => []
  | .box _ rest => rest.documents dir
  | .expand site _ inner rest =>
    componentFile dir (site.element.attr "component_name") ::
      inner.documents dir ++ rest.documents dir

/-- What becomes of composites of the network of a process, by what their documents say. -/
inductive Expands (source : Source) (s : Settings) :
    Nat → Identity → List Cursor → Expansion → Prop where
  | done {level : Nat} {parent : Identity} : Expands source s level parent [] .done
  | box {level : Nat} {parent : Identity} {site : Cursor} {sites : List Cursor} {rest : Expansion}
      (limit : s.config.maxLevel ≤ level) (hr : Expands source s level parent sites rest) :
      Expands source s level parent (site :: sites) (.box site rest)
  | expand {level : Nat} {parent : Identity} {site network : Cursor} {sites : List Cursor}
      {inner rest : Expansion} (limit : level < s.config.maxLevel)
      (hn : networkOf? source s.inDir site = some network)
      (hi : Expands source s (level + 1) (identityAt parent site) (compositesOf network) inner)
      (hr : Expands source s level parent sites rest) :
      Expands source s level parent (site :: sites) (.expand site network inner rest)

/-- The expansion that is found is the one that the documents prescribe, and it has opened the
documents of its expanded composites. -/
theorem expands_of_expand {source : Source} {s : Settings} {level : Nat} {parent : Identity}
    {sites : List Cursor} {opened : List Path} {e : Expansion}
    (h : expand source s.inDir s.config.maxLevel level parent sites = ⟨opened, .ok e⟩) :
    Expands source s level parent sites e ∧ opened = e.documents s.inDir := by
  fun_induction expand source s.inDir s.config.maxLevel level parent sites generalizing opened e with
  | case1 =>
    obtain ⟨rfl, rfl⟩ := Reading.pure_eq_ok.mp h
    exact ⟨.done, rfl⟩
  | case2 level parent site rest hl ih =>
    obtain ⟨e, he, rfl⟩ := Reading.map_eq_ok.mp h
    obtain ⟨hr, rfl⟩ := ih he
    exact ⟨.box hl hr, rfl⟩
  | case3 level parent site rest hl =>
    rename_i _ _ ihi ihr
    -- the reading is taken apart from the outside: this composite, then those after it
    obtain ⟨_, ⟨network, ei⟩, _, hi, hr, rfl⟩ := Reading.bind_eq_ok.mp h
    obtain ⟨er, he, rfl⟩ := Reading.map_eq_ok.mp hr
    obtain ⟨_, network', _, ho, hm, rfl⟩ := Reading.bind_eq_ok.mp (Reading.mapError_eq_ok.mp hi)
    obtain ⟨e', he', hp⟩ := Reading.map_eq_ok.mp hm
    obtain ⟨rfl, rfl⟩ := Prod.mk.inj hp
    obtain ⟨rfl, hn⟩ := openNetwork_eq_ok.mp ho
    obtain ⟨hei, rfl⟩ := ihi network' he'
    obtain ⟨her, rfl⟩ := ihr he
    exact ⟨.expand (Nat.lt_of_not_le hl) hn hei her, rfl⟩

/-- The documents of an expansion are those of the tour along the same composites. -/
theorem Expands.documents_eq {source : Source} {s : Settings} {level : Nat} {parent : Identity}
    {sites : List Cursor} {e : Expansion} (h : Expands source s level parent sites e) :
    ∀ {v : Visit} {next : Graph.RegionId}, v.level = level → v.id = parent →
      e.documents s.inDir = (tourAlong source s v next sites).documents s.inDir := by
  induction h with
  | done =>
    intro v next _ _
    rw [tourAlong_nil]
    rfl
  -- a box opens nothing, so all that matters are the sites behind it
  | box limit _ ih =>
    intro v next hv hp
    rw [tourAlong_of_le (hv ▸ limit)]
    exact (@ih v next hv hp).trans (by rw [tourAlong_of_le (hv ▸ limit)])
  | expand limit hn _ _ ihi ihr =>
    intro v next hv hp
    subst hv hp
    rw [tourAlong_cons_some limit hn]
    simp only [Expansion.documents, Tour.documents]
    rw [tourBelow_eq, ihr rfl rfl, ← ihi rfl rfl]

/-- A tour along composites that could be expanded leaves none of them out. -/
theorem Expands.covers {source : Source} {s : Settings} {level : Nat} {parent : Identity}
    {sites : List Cursor} {e : Expansion} (h : Expands source s level parent sites e) :
    ∀ {v : Visit} {next : Graph.RegionId}, v.level = level → v.id = parent →
      (tourAlong source s v next sites).Covers s.config
        (if v.level < s.config.maxLevel then sites else []) := by
  induction h with
  | done =>
    intro v next _ _
    rw [tourAlong_nil, ite_self]
    trivial
  | box limit _ _ =>
    intro v next hv _
    rw [tourAlong_of_le (hv ▸ limit), if_neg (Nat.not_lt.mpr (hv ▸ limit))]
    trivial
  | expand limit hn _ _ ihi ihr =>
    intro v next hv hp
    subst hv hp
    have hr := @ihr v
    -- the site opens, so the tour visits it, and covers what is inside and what follows
    rw [if_pos limit] at hr
    rw [tourAlong_cons_some limit hn, if_pos limit]
    refine ⟨rfl, ?_, hr rfl rfl⟩
    rw [tourBelow_eq]
    exact ihi rfl rfl

/-! ## Whole models

Whether a model loads is said twice: as the outcome of the program, and as a condition on its
documents that is looked up one by one.  Both agree, so either may be used. -/

/-- A model that loads begins with the network of its own document, its expansion is the one that
the documents prescribe, and the documents opened are those of the tour. -/
theorem load_eq_ok {source : Source} {s : Settings} {opened : List Path} {m : Model}
    (h : Model.load source s = ⟨opened, .ok m⟩) :
    rootNetwork? source s = some m.network ∧
      Expands source s firstLevel ⟨s.rootName⟩ (compositesOf m.network) m.composites ∧
      opened = s.input ::
        (tourBelow source s (rootVisit s m.network)).documents s.inDir := by
  obtain ⟨_, network, _, ho, hm, rfl⟩ := Reading.bind_eq_ok.mp h
  obtain ⟨e, he, rfl⟩ := Reading.map_eq_ok.mp hm
  obtain ⟨rfl, hn⟩ := openNetwork_eq_ok.mp ho
  obtain ⟨hx, rfl⟩ := expands_of_expand he
  refine ⟨hn, hx, ?_⟩
  rw [tourBelow_eq]
  have hr : (rootVisit s network).level = firstLevel := rfl
  exact congrArg (s.input :: ·) (hx.documents_eq hr rfl)

/-- Can all documents inside a network at a level be used? -/
def usableBelow (source : Source) (s : Settings) (level : Nat) (network : Cursor) : Bool :=
  if level < s.config.maxLevel then
    (compositesOf network).all fun site =>
      match networkOf? source s.inDir site with
      | none => false
      | some network => usableBelow source s (level + 1) network
  else true
termination_by s.config.maxLevel - level

/-- Can all documents that a model leads to be used? -/
def usable (source : Source) (s : Settings) : Bool :=
  (rootNetwork? source s).any (usableBelow source s firstLevel)

/-- At the detail level nothing more is needed; above it, all documents of composites are. -/
theorem usableBelow_iff {source : Source} {s : Settings} {level : Nat} {network : Cursor} :
    usableBelow source s level network = true ↔ (level < s.config.maxLevel →
      ∀ site ∈ compositesOf network, ∃ inner, networkOf? source s.inDir site = some inner ∧
        usableBelow source s (level + 1) inner = true) := by
  rw [usableBelow]
  by_cases hl : level < s.config.maxLevel
  · rw [if_pos hl, List.all_eq_true]
    refine ⟨fun h _ site hs => ?_, fun h site hs => ?_⟩
    -- a composite without a network makes the check fail
    · have hs := h site hs
      split at hs
      · cases hs
      next inner hn => exact ⟨inner, hn, hs⟩
    · obtain ⟨inner, hn, hu⟩ := h hl site hs
      rw [hn]
      exact hu
  · simp [hl]

/-- If all documents can be used, the expansion succeeds: one case for each branch of its recursion.
-/
theorem expand_of_usable {source : Source} {s : Settings} {level : Nat} (parent : Identity)
    {sites : List Cursor}
    (h : level < s.config.maxLevel → ∀ site ∈ sites, ∃ network,
      networkOf? source s.inDir site = some network ∧
        usableBelow source s (level + 1) network = true) :
    ∃ opened e, expand source s.inDir s.config.maxLevel level parent sites = ⟨opened, .ok e⟩ := by
  fun_induction expand source s.inDir s.config.maxLevel level parent sites with
  | case1 => exact ⟨[], .done, rfl⟩
  | case2 level parent site rest hl ih =>
    obtain ⟨ps, e, he⟩ := ih fun hl' => absurd hl (Nat.not_le.mpr hl')
    exact ⟨ps, .box site e, Reading.map_eq_ok.mpr ⟨e, he, rfl⟩⟩
  | case3 level parent site rest hl =>
    rename_i _ _ ihi ihr
    have hlt := Nat.lt_of_not_le hl
    -- the document opens, and both the sites inside and the later ones expand by induction
    obtain ⟨network, hn, hu⟩ := h hlt site List.mem_cons_self
    obtain ⟨ps, er, hr⟩ := ihr fun _ x hx => h hlt x (List.mem_cons_of_mem site hx)
    obtain ⟨qs, ei, hi⟩ := ihi network (usableBelow_iff.mp hu)
    have ho : openNetwork source (identityAt parent site)
        (componentFile s.inDir (site.element.attr "component_name")) = ⟨_, .ok network⟩ :=
      openNetwork_eq_ok.mpr ⟨rfl, hn⟩
    exact ⟨_, .expand site network ei er, Reading.bind_eq_ok.mpr ⟨_, (network, ei), _,
      Reading.mapError_eq_ok.mpr (Reading.bind_eq_ok.mpr
        ⟨_, network, _, ho, Reading.map_eq_ok.mpr ⟨ei, hi, rfl⟩, rfl⟩),
      Reading.map_eq_ok.mpr ⟨er, hr, rfl⟩, rfl⟩⟩

/-- A model loads if all documents that it leads to can be used. -/
theorem load_of_usable {source : Source} {s : Settings} (h : usable source s = true) :
    ∃ opened m, Model.load source s = ⟨opened, .ok m⟩ := by
  unfold usable at h
  cases hn : rootNetwork? source s with
  | none => rw [hn] at h; cases h
  | some network =>
    rw [hn, Option.any_some] at h
    -- the root network is there, and what is inside of it expands
    obtain ⟨ps, e, he⟩ := expand_of_usable ⟨s.rootName⟩ (usableBelow_iff.mp h)
    have ho : openNetwork source ⟨s.rootName⟩ s.input = ⟨_, .ok network⟩ :=
      openNetwork_eq_ok.mpr ⟨rfl, hn⟩
    exact ⟨_, ⟨network, e⟩, Reading.bind_eq_ok.mpr
      ⟨_, network, _, ho, Reading.map_eq_ok.mpr ⟨e, he, rfl⟩, rfl⟩⟩

/-- Composites that were expanded have documents that can be used. -/
theorem Expands.exists_networkOf {source : Source} {s : Settings} {level : Nat}
    {parent : Identity} {sites : List Cursor} {e : Expansion}
    (h : Expands source s level parent sites e) : level < s.config.maxLevel →
      ∀ site ∈ sites, ∃ network, networkOf? source s.inDir site = some network ∧
        usableBelow source s (level + 1) network = true := by
  induction h with
  | done => exact fun _ site hs => absurd hs List.not_mem_nil
  | box limit => exact fun hl => absurd limit (Nat.not_le.mpr hl)
  | expand limit hn _ _ ihi ihr =>
    intro hl site hs
    rcases List.mem_cons.mp hs with rfl | hs
    · -- the composites inside were expanded in the same way
      exact ⟨_, hn, usableBelow_iff.mpr ihi⟩
    · exact ihr hl site hs

/-! ## A small model -/

/-- Two documents: a composite to expand and a signal that leads nowhere, then a box, a leaf and
an interface port. -/
def sampleSource : Source
  | ⟨"top.xml"⟩ => .ok ("<process_network><composite_process name=\"X\" component_name=\"x\"/>"
      ++ "<signal source=\"X\" source_port=\"o\" target=\"P\"/></process_network>")
  | ⟨"./x.xml"⟩ => .ok ("<process_network><composite_process name=\"B\"/><leaf_process name=\"L\"/>"
      ++ "<port name=\"o\" bound_process=\"B\"/></process_network>")
  | path => .error ⟨["Nothing at " ++ path.text]⟩

/-- Settings under which the second document is opened and no third one is. -/
def sampleSettings : Settings :=
  ⟨⟨"top.xml"⟩, ⟨"."⟩, "top", ⟨"."⟩, { Config.default with maxLevel := 3 }⟩

/-- The small model can be used, and has two visits. -/
theorem sample_visits :
    usable sampleSource sampleSettings = true ∧
      (visits sampleSource sampleSettings).map (fun v =>
        (v.id.text, v.level, namesOf (compositesOf v.network), namesOf (leaves v.network),
          namesOf v.ports)) =
        [("top", 2, ["X"], [], []), ("top@X", 3, ["B"], ["L"], ["o"])] := by
  decide +kernel

/-- The names in the networks of the small model. -/
theorem sample_names {v : Visit} (h : v ∈ visits sampleSource sampleSettings) :
    (namesOf (compositesOf v.network) = ["X"] ∧ namesOf (leaves v.network) = [] ∧
        namesOf v.ports = []) ∨
      (namesOf (compositesOf v.network) = ["B"] ∧ namesOf (leaves v.network) = ["L"] ∧
        namesOf v.ports = ["o"]) := by
  have hm := List.mem_map_of_mem (f := fun v : Visit =>
    (v.id.text, v.level, namesOf (compositesOf v.network), namesOf (leaves v.network),
      namesOf v.ports)) h
  rw [sample_visits.2, List.mem_cons, List.mem_singleton] at hm
  rcases hm with hm | hm
  · simp only [Prod.mk.injEq] at hm
    exact Or.inl hm.2.2
  · simp only [Prod.mk.injEq] at hm
    exact Or.inr hm.2.2

end NetPlot.Network
