/-
  The regions of a model, and the documents that it opens.

  1. **Specification** — the forest of regions is read off the tour: a frame for each visit, in it
     the roles of the level and then the frames of the visits inside, which are in the region for
     the rest if there is one (`Tour.frames`).

  2. **Numbers** — the steps of a tour open these regions in the order of the forest, a region
     before what is inside of it (`Tour.shown_steps`).

  3. **Regions** — documents, regions and their nesting all follow the tour
     (`regions_of_compile`).

  **The crux** — a frame has the numbers of a whole part of the list, its own first.  How long this
  part is can be told from the tour before anything in it is drawn (`Tour.size_frames`).
-/
import NetPlot.Proofs.Graph.Attributes
import NetPlot.Proofs.Graph.Forest
import NetPlot.Proofs.Network.Steps

namespace NetPlot.Network

open NetPlot.Graph NetPlot.Label NetPlot.Xml

/-! ## Specification

The forest is made from the tour without any numbers: what is inside of what is all that it says. -/

namespace Role

/-- The roles drawn as clusters, but for that of the rest. -/
def special (flags : Flags) : List Role :=
  [source, sink, inputPort, outputPort].filter (·.enabled flags)

/-- The region of a role in the container of a process. -/
def forest (id : Identity) (role : Role) (inside after : Forest) : Forest :=
  .region ("cluster_" ++ id.text ++ role.key) none inside after

end Role

/-- What is in the container of a process: the roles in their order, with the frames of its
composites in the region for the rest if there is one, and after the roles otherwise. -/
def contents (flags : Flags) (id : Identity) (frames : Forest) : Forest :=
  (Role.special flags).foldr (fun role after => role.forest id .empty after)
    (if flags.others then Role.other.forest id frames .empty else frames)

/-- The frame of a visit, filled for the level at which it is opened. -/
def Visit.frame (cfg : Config) (v : Visit) (frames after : Forest) : Forest :=
  .region ("cluster_" ++ v.id.text) (some (Color.background cfg.gradient (v.level - 1)))
    (contents cfg.clusters v.id frames) after

/-- The frames of a tour. -/
def Tour.frames (cfg : Config) : Tour → Forest
  | done => .empty
  | visit _ v inner rest => v.frame cfg (inner.frames cfg) (rest.frames cfg)

/-! ## Numbers

A region is numbered when it is opened, and what is inside of it is opened before the next one
beside it.  This is the order in which a forest is listed. -/

/-- The role of the rest comes last, if it is drawn. -/
theorem Role.drawn_eq (flags : Flags) :
    drawn flags = special flags ++ if flags.others then [.other] else [] := by
  have h : [source, sink, inputPort, outputPort, other] =
      [source, sink, inputPort, outputPort] ++ [other] := rfl
  rw [drawn, h, List.filter_append, special]
  cases ho : flags.others <;> simp [enabled, ho]

/-- The cluster of a role has its name and no fill of its own. -/
theorem shown_roleRegion (v : Visit) (role : Role) :
    (v.roleRegion role).shown =
      ("cluster_" ++ v.id.text ++ role.key, none, some v.container) := by
  have hk : (Entries.keys [("label", "")]).Nodup := by simp [Entries.keys]
  rw [Region.shown, Visit.roleRegion, Attributes.get?_ofGiven hk]
  rfl

/-- Roles without anything inside of them take a number each. -/
theorem listed_foldr_roles (v : Visit) (roles : List Role) (after : Forest) (n : Nat) :
    (roles.foldr (fun role after => role.forest v.id .empty after) after).listed v.container n =
      (roles.map v.roleRegion).map Region.shown
        ++ after.listed v.container (n + roles.length) := by
  induction roles generalizing n with
  | nil => rfl
  | cons role roles ih =>
    have hn : n + 1 + Forest.empty.size + roles.length = n + (role :: roles).length := by
      simp [Forest.size]
      omega
    rw [List.foldr_cons, Role.forest, Forest.listed, ih, hn, List.map_cons, List.map_cons,
      shown_roleRegion]
    rfl

theorem lookup_zipIdx_of_not_mem {role : Role} {roles : List Role} (h : role ∉ roles) (n : Nat) :
    (roles.zipIdx n).lookup role = none := by
  rw [List.lookup_eq_none_iff]
  intro e he
  exact bne_iff_ne.mpr fun hr => h (hr ▸ List.fst_mem_of_mem_zipIdx he)

/-- Frames are in the region right in front of them, or in the container. -/
theorem Visit.frameRegion_eq (flags : Flags) (v : Visit) :
    v.frameRegion flags =
      if flags.others then v.container + 1 + (Role.special flags).length else v.container := by
  rw [frameRegion, region, Clusters.region, frameRole, clusters, Role.drawn_eq]
  cases flags.others
  · have hc : Role.container ∉ Role.special flags := by simp [Role.special]
    simp [lookup_zipIdx_of_not_mem hc]
  · have ho : Role.other ∉ Role.special flags := by simp [Role.special]
    simp [List.zipIdx_append, List.lookup_append, lookup_zipIdx_of_not_mem ho]

/-- A visit opens its container, the regions of the special roles, and that of the rest. -/
theorem width_eq (flags : Flags) :
    width flags = 1 + (Role.special flags).length + if flags.others then 1 else 0 := by
  rw [width, Role.drawn_eq, List.length_append, ← Nat.add_assoc]
  cases flags.others <;> rfl

/-- What is in a container is listed as its roles, then the frames. -/
theorem listed_contents (flags : Flags) (v : Visit) (frames : Forest) :
    (contents flags v.id frames).listed v.container (v.container + 1) =
      ((Role.drawn flags).map v.roleRegion).map Region.shown
        ++ frames.listed (v.frameRegion flags) (v.container + width flags) := by
  rw [contents, listed_foldr_roles, Role.drawn_eq, Visit.frameRegion_eq, width_eq]
  cases flags.others
  · simp [Nat.add_assoc]
  · simp [Role.forest, Forest.listed, shown_roleRegion, Nat.add_assoc]

/-- What is in a container, and the container itself, are the regions of the visit and the frames in
it. -/
theorem size_contents (flags : Flags) (v : Visit) (frames : Forest) :
    (contents flags v.id frames).size + 1 = width flags + frames.size := by
  have hl := congrArg List.length (listed_contents flags v frames)
  simp only [Forest.length_listed, List.length_append, List.length_map] at hl
  rw [hl, width]
  omega

/-- A tour needs as many numbers as its visits. -/
theorem Tour.size_frames (cfg : Config) (t : Tour) :
    (t.frames cfg).size = width cfg.clusters * t.size := by
  induction t with
  | done => rfl
  | visit site v inner rest ihi ihr =>
    have hc := size_contents cfg.clusters v (inner.frames cfg)
    rw [Tour.frames, Visit.frame, Forest.size, Nat.add_comm 1, hc, ihi, ihr, Tour.size,
      Nat.mul_add, Nat.mul_add, Nat.mul_one]

/-- After the container and its contents comes the next frame. -/
theorem next_eq (cfg : Config) (v : Visit) (inner : Tour) (n : Nat) :
    n + 1 + (contents cfg.clusters v.id (inner.frames cfg)).size =
      n + width cfg.clusters * (inner.size + 1) := by
  have hc := size_contents cfg.clusters v (inner.frames cfg)
  rw [Nat.add_assoc, Nat.add_comm 1, hc, Tour.size_frames, Nat.mul_add, Nat.mul_one,
    Nat.add_comm (width cfg.clusters)]

/-- The region of a frame has the fill of its level. -/
theorem shown_frame (cfg : Config) (label : String) (v : Visit) (outer : RegionId) :
    Region.shown ⟨"cluster_" ++ v.id.text, frameAttributes cfg label (v.level - 1), some outer⟩ =
      ("cluster_" ++ v.id.text, some (Color.background cfg.gradient (v.level - 1)),
        some outer) := by
  have hf : Color.background cfg.gradient (v.level - 1) ≠ "" := by simp [Color.background]
  rw [Region.shown, frameAttributes, Attributes.get?_ofGiven (by simp [Entries.keys])]
  simp [List.lookup_cons, hf]

/-- A visit opens what is in its container, if the visits inside open their frames. -/
theorem Visit.shown_steps {cfg : Config} {v : Visit} {inner : List Step} {frames : Forest}
    (h : (inner.flatMap Step.regions).map Region.shown =
      frames.listed (v.frameRegion cfg.clusters) (v.container + width cfg.clusters)) :
    ((v.steps cfg inner).flatMap Step.regions).map Region.shown =
      (contents cfg.clusters v.id frames).listed v.container (v.container + 1) := by
  rw [regions_steps, List.map_append, h, listed_contents]

/-- The steps of a tour open the regions of its frames in order. -/
theorem Tour.shown_steps {cfg : Config} {t : Tour} {u : Visit} {n : Nat} (outer : RegionId)
    (h : t.Follows cfg u n) :
    ((t.steps cfg outer).flatMap Step.regions).map Region.shown =
      (t.frames cfg).listed outer n := by
  induction t generalizing u n outer with
  | done => rfl
  | visit site v inner rest ihi ihr =>
    obtain ⟨hv, -, hi, hr⟩ := h
    -- the frames inside are numbered behind the roles of the container
    rw [← hv.container] at hi
    have hs := Visit.shown_steps (ihi (v.frameRegion cfg.clusters) hi)
    rw [Tour.steps, List.flatMap_append, List.flatMap_cons, List.map_append, List.map_append, hs,
      ihr outer hr, Tour.frames, Visit.frame, Forest.listed, next_eq, ← hv.container]
    exact congrArg (fun x : Shown => x :: _ ++ _) (shown_frame cfg _ v outer)

theorem shown_blank (s : Settings) : (blank s).root.shown = (s.rootName, none, none) := by
  have hk : (Entries.keys [("rankdir", s.config.direction.rankdir), ("fontname", "Helvetica"),
      ("overlap", "prism"), ("splines", "true")]).Nodup := by simp [Entries.keys]
  show (s.rootName, Attributes.get? (.ofGiven _) "fillcolor", none) = _
  rw [Attributes.get?_ofGiven hk]
  rfl

/-- The frame of the root comes next, filled for the first level. -/
theorem shown_rootFrame (s : Settings) :
    Region.shown ⟨"cluster_" ++ s.rootName, .ofGiven [
      ("label", s.rootName), ("style", "filled, rounded"),
      ("fillcolor", Color.background s.config.gradient 1), ("fontsize", "13")], some rootId⟩ =
      ("cluster_" ++ s.rootName, some (Color.background s.config.gradient 1), some rootId) := by
  have hf : Color.background s.config.gradient 1 ≠ "" := by simp [Color.background]
  rw [Region.shown, Attributes.get?_ofGiven (by simp [Entries.keys])]
  simp [List.lookup_cons, hf]

/-! ## Regions of models -/

/-- The forest of a whole model: the frame of the root process and all that is in it. -/
def modelForest (s : Settings) (v : Visit) (t : Tour) : Forest :=
  v.frame s.config (t.frames s.config) .empty

/-- A model opens its root, the frame of its root process and the contents of that frame. -/
theorem shown_modelSteps {s : Settings} {network : Cursor} {t : Tour}
    (h : t.Follows s.config (rootVisit s network)
      ((rootVisit s network).container + width s.config.clusters)) :
    ((blank s).run (modelSteps s (rootVisit s network) t)).regions.map Region.shown =
      (s.rootName, none, none) :: (modelForest s (rootVisit s network) t).listed rootId 1 := by
  have hs := Visit.shown_steps (Tour.shown_steps
    ((rootVisit s network).frameRegion s.config.clusters) h)
  rw [regions_run, List.map_append, modelSteps, List.flatMap_cons, List.map_append, hs,
    modelForest, Visit.frame, Forest.listed, Forest.listed, List.append_nil, ← shown_blank]
  exact congrArg (fun x : Shown => _ :: x :: _) (shown_rootFrame s)

/-- **Regions.**  The tour of a model that compiles goes along all composites that are expanded.
The model has opened its own document and then those of the tour, one for each visit and in order;
its regions are exactly those of the tour, nested in the same way and created in the same order. -/
theorem regions_of_compile {source : Source} {s : Settings} {g : Graph}
    (h : (compile source s).outcome = .ok g) :
    ∃ network, rootNetwork? source s = some network ∧
      let root := rootVisit s network
      let tour := tourBelow source s root
      tour.Covers s.config (root.expanded s.config) ∧
      (compile source s).opened = s.input :: tour.documents s.inDir ∧
      g.forest rootId = modelForest s root tour ∧
      g.regions.map Region.shown =
        (s.rootName, none, none) :: (modelForest s root tour).listed rootId 1 := by
  obtain ⟨network, hn, ⟨e, hx⟩, ho, rfl⟩ := compile_eq_ok h
  have hc : (tourBelow source s (rootVisit s network)).Covers s.config
      ((rootVisit s network).expanded s.config) := by
    rw [tourBelow_eq]
    exact hx.covers rfl rfl
  have hr := shown_modelSteps (follows_tourBelow source s (rootVisit s network)).2
  exact ⟨network, hn, hc, ho, forest_eq_of_listed hr, hr⟩

/-- The small model is read back as the forest of its tour, and its documents are opened in this
order. -/
theorem regions_of_compile_sample :
    ∃ g, (compile sampleSource sampleSettings).outcome = .ok g ∧
      ∃ network, rootNetwork? sampleSource sampleSettings = some network ∧
        let root := rootVisit sampleSettings network
        let tour := tourBelow sampleSource sampleSettings root
        tour.Covers sampleSettings.config (root.expanded sampleSettings.config) ∧
        (compile sampleSource sampleSettings).opened =
          sampleSettings.input :: tour.documents sampleSettings.inDir ∧
        g.forest rootId = modelForest sampleSettings root tour ∧
        g.regions.map Region.shown = (sampleSettings.rootName, none, none) ::
          (modelForest sampleSettings root tour).listed rootId 1 := by
  obtain ⟨g, hg⟩ := compile_ok_iff.mpr sample_visits.1
  exact ⟨g, hg, regions_of_compile hg⟩

end NetPlot.Network
