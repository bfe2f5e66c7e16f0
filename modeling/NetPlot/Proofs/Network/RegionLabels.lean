/-
  The labels of regions, those that they have and those that they show.

  1. **Inheritance** — a region without a label shows that of the region around it.  `labelAll` goes
     through regions in the order of their creation and notes both labels of each.

  2. **Specification** — an empty text is no label (`given`).  So a frame has the label of its
     composite only if that is not empty, the cluster of a role has none, and what they show
     instead is handed down along the tour (`Tour.labels`).

  3. **Runs** — a region that is opened shows what the list so far says of the region around it, so
     the roles of a visit show what its frame shows (`labelAll_roles`), and a tour opens its regions
     with the labels of the specification (`Tour.labelAll_steps`).

  4. **Models** — the same holds of all regions of a model (`labels_of_compile`): there are regions
     without a label statement that show the label of the frame around them
     (`exists_inherited_label`).
-/
import NetPlot.Graph.Dot
import NetPlot.Proofs.Network.Regions

namespace NetPlot

namespace Graph

/-! ## Inheritance

A label is looked for from a region outwards, up to the first region that has one.  Regions are
created from the outside in, so one pass in that order knows the answer for the region around. -/

/-- A region with its own label and the one that it shows. -/
structure Labelled where
  name : String
  own : Option String
  shown : Option String
  deriving DecidableEq

/-- The label that the region with a number shows. -/
def shownAt (ls : List Labelled) (r : RegionId) : Option String := ls[r]?.bind (·.shown)

/-- A region that comes after others.  Without a label it shows that of the region around it. -/
def Region.labelled (ls : List Labelled) (r : Region) : Labelled where
  name := r.name
  own := r.attributes.get? "label"
  shown := (r.attributes.get? "label").or (r.parent.bind (shownAt ls))

/-- Regions that come after others, one by one. -/
def labelAll (ls : List Labelled) (rs : List Region) : List Labelled :=
  rs.foldl (fun ls r => ls ++ [r.labelled ls]) ls

section

variable {ls ms : List Labelled}

theorem labelAll_append (ls : List Labelled) (rs ts : List Region) :
    labelAll ls (rs ++ ts) = labelAll (labelAll ls rs) ts := List.foldl_append

theorem length_labelAll (ls : List Labelled) (rs : List Region) :
    (labelAll ls rs).length = ls.length + rs.length := by
  induction rs generalizing ls with
  | nil => rfl
  | cons r rs ih =>
    rw [labelAll, List.foldl_cons, ← labelAll, ih, List.length_append, List.length_singleton,
      List.length_cons, Nat.add_assoc, Nat.add_comm 1]

theorem shownAt_append {r : Nat} (h : r < ls.length) : shownAt (ls ++ ms) r = shownAt ls r := by
  rw [shownAt, List.getElem?_append_left h, shownAt]

/-- Regions that all show the same label show it wherever they stand. -/
theorem shownAt_append_of_forall {label : Option String} (h : ∀ l ∈ ms, l.shown = label) {r : Nat}
    (hl : ls.length ≤ r) (hu : r < ls.length + ms.length) : shownAt (ls ++ ms) r = label := by
  have hlt : r - ls.length < ms.length := by omega
  rw [shownAt, List.getElem?_append_right hl, List.getElem?_eq_getElem hlt, Option.bind_some]
  exact h _ (List.getElem_mem hlt)

end

/-- The own label of a region is that of its attributes. -/
theorem map_own_labelAll (ls : List Labelled) (rs : List Region) :
    (labelAll ls rs).map (·.own) = ls.map (·.own) ++ rs.map (·.attributes.get? "label") := by
  induction rs generalizing ls with
  | nil => exact (List.append_nil _).symm
  | cons r rs ih =>
    rw [labelAll, List.foldl_cons, ← labelAll, ih, List.map_append, List.append_assoc]
    rfl

/-- The label that the body of a region has is the one that is noted for it. -/
theorem label_block (g : Graph) (r : RegionId) :
    (g.block r).attributes.get? "label" = (labelAll [] g.regions)[r]?.bind (·.own) := by
  have hown := congrArg (·[r]?) (map_own_labelAll [] g.regions)
  simp only [List.map_nil, List.nil_append, List.getElem?_map] at hown
  have hbind : (labelAll [] g.regions)[r]?.bind (·.own) =
      (g.regions[r]?.map (·.attributes.get? "label")).bind id := by
    rw [← hown, Option.bind_map, Function.id_comp]
  rw [hbind, block, region?]
  cases g.regions[r]? <;> rfl

end Graph

namespace Network

open NetPlot.Graph NetPlot.Label NetPlot.Xml

/-! ## Specification

The specification hands a label down along the tour and does not know how regions are numbered. -/

/-- A text given as a label; an empty one is none. -/
def given (text : String) : Option String := if text = "" then none else some text

/-- The regions of a visit inside of one that shows `outer`: its frame with the text given for it,
then the clusters of the roles, without a label. -/
def Visit.labels (cfg : Config) (text : String) (outer : Option String) (v : Visit) :
    List Labelled :=
  ⟨"cluster_" ++ v.id.text, given text, (given text).or outer⟩ ::
    (Role.drawn cfg.clusters).map fun role =>
      ⟨"cluster_" ++ v.id.text ++ role.key, none, (given text).or outer⟩

/-- The regions of a tour inside of one that shows `outer`. -/
def Tour.labels (cfg : Config) (outer : Option String) : Tour → List Labelled
  | done => []
  | visit site v inner rest =>
    let text := pretty (cfg.labels.composite.evaluate site)
    v.labels cfg text outer ++ inner.labels cfg ((given text).or outer) ++ rest.labels cfg outer

/-! ## Runs

The list of what is noted grows as regions are opened.  What was noted before does not change, so
the label of the region around can be looked up at any later time. -/

theorem filter_eq_given (text : String) : (some text).filter (· ≠ "") = given text := by
  rw [given, Option.filter_some]
  by_cases h : text = "" <;> simp [h]

/-- The cluster of a role has no label. -/
theorem labelled_roleRegion (ls : List Labelled) (v : Visit) (role : Role) :
    (v.roleRegion role).labelled ls =
      ⟨"cluster_" ++ v.id.text ++ role.key, none, shownAt ls v.container⟩ := by
  have hown : (v.roleRegion role).attributes.get? "label" = none := by
    rw [Visit.roleRegion, Attributes.get?_ofGiven (by simp [Entries.keys]), List.lookup_cons_self,
      filter_eq_given]
    rfl
  rw [Region.labelled, hown]
  rfl

/-- The frame of a composite has the label of the composite. -/
theorem labelled_frame (ls : List Labelled) (cfg : Config) (text : String) (level : Nat)
    (v : Visit) (outer : RegionId) :
    Region.labelled ls ⟨"cluster_" ++ v.id.text, frameAttributes cfg text level, some outer⟩ =
      ⟨"cluster_" ++ v.id.text, given text, (given text).or (shownAt ls outer)⟩ := by
  have hown : (frameAttributes cfg text level).get? "label" = given text := by
    rw [frameAttributes, Attributes.get?_ofGiven (by simp [Entries.keys]), List.lookup_cons_self,
      filter_eq_given]
  rw [Region.labelled, hown]
  rfl

/-- Roles that are opened in a container show what the container shows. -/
theorem labelAll_roles {ls : List Labelled} {v : Visit} (h : v.container < ls.length)
    (roles : List Role) :
    labelAll ls (roles.map v.roleRegion) = ls ++ roles.map fun role =>
      ⟨"cluster_" ++ v.id.text ++ role.key, none, shownAt ls v.container⟩ := by
  induction roles generalizing ls with
  | nil => exact (List.append_nil ls).symm
  | cons role roles ih =>
    have hnext : v.container < (ls ++ [(v.roleRegion role).labelled ls]).length := by
      rw [List.length_append]
      exact Nat.lt_add_right _ h
    rw [List.map_cons, labelAll, List.foldl_cons, ← labelAll, ih hnext, shownAt_append h,
      labelled_roleRegion, List.append_assoc, List.map_cons]
    rfl

/-- The frame and the roles of a visit, opened one after the other. -/
theorem Visit.labelAll_regions {cfg : Config} {v : Visit} {ls : List Labelled} {frame : Region}
    {text : String} {outer : Option String} (hn : ls.length = v.container)
    (hf : frame.labelled ls =
      ⟨"cluster_" ++ v.id.text, given text, (given text).or outer⟩) :
    labelAll ls (frame :: (Role.drawn cfg.clusters).map v.roleRegion) =
      ls ++ v.labels cfg text outer := by
  have hlt : v.container < (ls ++ [frame.labelled ls]).length := by
    rw [List.length_append, hn]
    exact Nat.lt_succ_self _
  have hshown : shownAt (ls ++ [frame.labelled ls]) v.container = (given text).or outer := by
    refine shownAt_append_of_forall (fun l hl => ?_) (Nat.le_of_eq hn) (hn ▸ Nat.lt_succ_self _)
    rw [List.mem_singleton.mp hl, hf]
  rw [labelAll, List.foldl_cons, ← labelAll, labelAll_roles hlt, hshown, hf, Visit.labels,
    List.append_assoc]
  rfl

theorem Visit.length_labels (cfg : Config) (text : String) (outer : Option String) (v : Visit) :
    (v.labels cfg text outer).length = width cfg.clusters := by
  rw [labels, List.length_cons, List.length_map, width, Nat.add_comm]

/-- All regions of a visit show the same label. -/
theorem Visit.shown_of_mem_labels {cfg : Config} {text : String} {outer : Option String} {v : Visit}
    {l : Labelled} (h : l ∈ v.labels cfg text outer) : l.shown = (given text).or outer := by
  rcases List.mem_cons.mp h with rfl | h
  · rfl
  · obtain ⟨role, -, rfl⟩ := List.mem_map.mp h
    rfl

/-- Frames inside of a visit are opened in one of its regions. -/
theorem Visit.frameRegion_bounds (flags : Flags) (v : Visit) :
    v.container ≤ v.frameRegion flags ∧ v.frameRegion flags < v.container + width flags := by
  rw [frameRegion_eq, width_eq]
  cases flags.others
  · exact ⟨Nat.le_refl _,
      Nat.lt_add_of_pos_right (Nat.add_pos_left (Nat.add_pos_left Nat.one_pos _) _)⟩
  · simp only [if_true, Nat.add_assoc]
    exact ⟨Nat.le_add_right .., by simp⟩

/-- So they are inside of what the visit shows. -/
theorem Visit.shownAt_frameRegion {cfg : Config} {v : Visit} {ls : List Labelled} {text : String}
    {outer : Option String} (hn : ls.length = v.container) :
    shownAt (ls ++ v.labels cfg text outer) (v.frameRegion cfg.clusters) =
      (given text).or outer := by
  obtain ⟨hl, hu⟩ := v.frameRegion_bounds cfg.clusters
  refine shownAt_append_of_forall (fun l hl => Visit.shown_of_mem_labels hl) (hn ▸ hl) ?_
  rwa [hn, Visit.length_labels]

/-- The steps of a tour open regions with the labels of the tour. -/
theorem Tour.labelAll_steps {cfg : Config} {t : Tour} {u : Visit} {n outer : RegionId}
    {ls : List Labelled} (h : t.Follows cfg u n) (hn : ls.length = n) (ho : outer < n) :
    labelAll ls ((t.steps cfg outer).flatMap Step.regions) =
      ls ++ t.labels cfg (shownAt ls outer) := by
  induction t generalizing u n outer ls with
  | done => exact (List.append_nil ls).symm
  | visit site v inner rest ihi ihr =>
    obtain ⟨hv, -, hi, hr⟩ := h
    have hnv : ls.length = v.container := hn.trans hv.container.symm
    let text := pretty (cfg.labels.composite.evaluate site)
    let frame : Region :=
      ⟨"cluster_" ++ v.id.text, frameAttributes cfg text (v.level - 1), some outer⟩
    have hregions : ((visit site v inner rest).steps cfg outer).flatMap Step.regions =
        (frame :: (Role.drawn cfg.clusters).map v.roleRegion) ++
          (inner.steps cfg (v.frameRegion cfg.clusters)).flatMap Step.regions ++
          (rest.steps cfg outer).flatMap Step.regions := by
      rw [steps, List.flatMap_append, List.flatMap_cons, Visit.regions_steps]
      rfl
    have hown : labelAll ls (frame :: (Role.drawn cfg.clusters).map v.roleRegion) =
        ls ++ v.labels cfg text (shownAt ls outer) :=
      Visit.labelAll_regions hnv (labelled_frame ..)
    have hlen : (ls ++ v.labels cfg text (shownAt ls outer)).length = n + width cfg.clusters := by
      rw [List.length_append, Visit.length_labels, hn]
    have hlt : v.frameRegion cfg.clusters < n + width cfg.clusters :=
      hv.container ▸ (v.frameRegion_bounds cfg.clusters).2
    have hinner := ihi hi hlen hlt
    rw [Visit.shownAt_frameRegion hnv] at hinner
    have hnext : ((ls ++ v.labels cfg text (shownAt ls outer)) ++
        inner.labels cfg ((given text).or (shownAt ls outer))).length =
          n + width cfg.clusters * (inner.size + 1) := by
      rw [← hinner, length_labelAll, hlen, Tour.length_regions_steps, Nat.mul_add, Nat.mul_one,
        Nat.add_assoc, Nat.add_comm (width cfg.clusters)]
    -- the frames behind are opened where this one was
    have hrest := ihr hr hnext (Nat.lt_of_lt_of_le ho (Nat.le_add_right _ _))
    rw [List.append_assoc, shownAt_append (hn ▸ ho), ← List.append_assoc] at hrest
    rw [hregions, labelAll_append, labelAll_append, hown, hinner, hrest, labels]
    simp only [List.append_assoc, text]

/-! ## Models -/

/-- The graph itself has no label to hand down. -/
theorem labelled_root (s : Settings) : (blank s).root.labelled [] = ⟨s.rootName, none, none⟩ := by
  have hown : (blank s).root.attributes.get? "label" = none := by
    show Attributes.get? (.ofGiven _) "label" = none
    rw [Attributes.get?_ofGiven (by simp [Entries.keys])]
    rfl
  rw [Region.labelled, hown]
  rfl

/-- The frame of the root has the name of the root for its label. -/
theorem labelled_rootFrame {ls : List Labelled} (s : Settings) (hroot : shownAt ls rootId = none) :
    Region.labelled ls ⟨"cluster_" ++ s.rootName, .ofGiven [
      ("label", s.rootName), ("style", "filled, rounded"),
      ("fillcolor", Color.background s.config.gradient 1), ("fontsize", "13")], some rootId⟩ =
      ⟨"cluster_" ++ s.rootName, given s.rootName, (given s.rootName).or none⟩ := by
  have hown : Attributes.get? (.ofGiven [
      ("label", s.rootName), ("style", "filled, rounded"),
      ("fillcolor", Color.background s.config.gradient 1), ("fontsize", "13")]) "label" =
      given s.rootName := by
    rw [Attributes.get?_ofGiven (by simp [Entries.keys]), List.lookup_cons_self, filter_eq_given]
  rw [Region.labelled, hown, Option.bind_some, hroot]

/-- A model opens its root and the regions of its visits with their labels. -/
theorem labelAll_modelSteps {s : Settings} {network : Cursor} {t : Tour}
    (h : t.Follows s.config (rootVisit s network)
      ((rootVisit s network).container + width s.config.clusters)) :
    labelAll [] ((blank s).run (modelSteps s (rootVisit s network) t)).regions =
      ⟨s.rootName, none, none⟩ :: ((rootVisit s network).labels s.config s.rootName none ++
        t.labels s.config (given s.rootName)) := by
  let root := rootVisit s network
  let frame : Region := ⟨"cluster_" ++ s.rootName, .ofGiven [
      ("label", s.rootName), ("style", "filled, rounded"),
      ("fillcolor", Color.background s.config.gradient 1), ("fontsize", "13")], some rootId⟩
  let first : List Labelled := [⟨s.rootName, none, none⟩]
  -- the regions are the root, the frame with the roles of the first visit, and those of the tour
  have hregions : ((blank s).run (modelSteps s root t)).regions =
      [(blank s).root] ++ (frame :: (Role.drawn s.config.clusters).map root.roleRegion) ++
        (t.steps s.config (root.frameRegion s.config.clusters)).flatMap Step.regions := by
    rw [regions_run, modelSteps, List.flatMap_cons, Visit.regions_steps]
    rfl
  have hfirst : labelAll [] [(blank s).root] = first := by
    rw [labelAll, List.foldl_cons, List.foldl_nil, labelled_root]
    rfl
  have hown : labelAll first (frame :: (Role.drawn s.config.clusters).map root.roleRegion) =
      first ++ root.labels s.config s.rootName none :=
    Visit.labelAll_regions rfl (labelled_rootFrame s rfl)
  -- the tour numbers its regions from where the labels so far end
  have hlen : (first ++ root.labels s.config s.rootName none).length =
      root.container + width s.config.clusters := by
    rw [List.length_append, Visit.length_labels]
    rfl
  have htour := Tour.labelAll_steps h hlen (root.frameRegion_bounds s.config.clusters).2
  rw [Visit.shownAt_frameRegion rfl, Option.or_none] at htour
  rw [hregions, labelAll_append, labelAll_append, hfirst, hown, htour, List.append_assoc]
  rfl

/-- The regions of a model that compiles have the labels that the tour hands down. -/
theorem labelAll_of_compile {source : Source} {s : Settings} {g : Graph}
    (h : (compile source s).outcome = .ok g) :
    ∃ network, rootNetwork? source s = some network ∧
      labelAll [] g.regions =
        ⟨s.rootName, none, none⟩ :: ((rootVisit s network).labels s.config s.rootName none ++
          (tourBelow source s (rootVisit s network)).labels s.config (given s.rootName)) := by
  obtain ⟨network, hn, -, -, rfl⟩ := compile_eq_ok h
  exact ⟨network, hn, labelAll_modelSteps (follows_tourBelow source s (rootVisit s network)).2⟩

/-- **Labels.**  A region has a label only where the text given for it is not empty.  The frame of the
root has its name for a label, and the frame of each composite that is expanded has the label of the
composite, unless these are empty; no cluster of a role has one.  A region without a label has no
statement for it in its body, and shows the label of the nearest region around it that has one. -/
theorem labels_of_compile {source : Source} {s : Settings} {g : Graph}
    (h : (compile source s).outcome = .ok g) :
    ∃ network, rootNetwork? source s = some network ∧
      let root := rootVisit s network
      let tour := tourBelow source s root
      tour.Covers s.config (root.expanded s.config) ∧
      labelAll [] g.regions =
        ⟨s.rootName, none, none⟩ :: (root.labels s.config s.rootName none ++
          tour.labels s.config (given s.rootName)) ∧
      ∀ r, (g.block r).attributes.get? "label" = (labelAll [] g.regions)[r]?.bind (·.own) := by
  obtain ⟨network, hn, hlabels⟩ := labelAll_of_compile h
  obtain ⟨network', hn', hc, -⟩ := regions_of_compile h
  obtain rfl : network = network' := Option.some.inj (hn.symm.trans hn')
  exact ⟨network, hn, hc, hlabels, label_block g⟩

/-! ## Labels that are left out -/

/-- Two composites; of the name of the second one nothing is left in its label. -/
def plusSource : Source
  | ⟨"top.xml"⟩ => .ok ("<process_network><composite_process name=\"X\" component_name=\"c\"/>"
      ++ "<composite_process name=\"+\" component_name=\"c\"/></process_network>")
  | ⟨"./c.xml"⟩ => .ok "<process_network/>"
  | path => .error ⟨["Nothing at " ++ path.text]⟩

def plusSettings : Settings := { sampleSettings with config := Config.default }

/-- The labels of the regions inside of the root. -/
def plusLabels : List Labelled :=
  [⟨"cluster_top", some "top", some "top"⟩, ⟨"cluster_topinps", none, some "top"⟩,
    ⟨"cluster_topoutps", none, some "top"⟩, ⟨"cluster_top@X", some "X", some "X"⟩,
    ⟨"cluster_top@Xinps", none, some "X"⟩, ⟨"cluster_top@Xoutps", none, some "X"⟩,
    ⟨"cluster_top@+", none, some "top"⟩, ⟨"cluster_top@+inps", none, some "top"⟩,
    ⟨"cluster_top@+outps", none, some "top"⟩]

theorem plus_labels : usable plusSource plusSettings = true ∧
    ((rootNetwork? plusSource plusSettings).map fun network =>
      (rootVisit plusSettings network).labels plusSettings.config plusSettings.rootName none ++
        (tourBelow plusSource plusSettings (rootVisit plusSettings network)).labels
          plusSettings.config (given plusSettings.rootName)) = some plusLabels := by
  decide +kernel

/-- The regions of the model have the labels of the list, and the frame of the first composite writes
its own. -/
theorem labels_of_compile_plus :
    ∃ g, (compile plusSource plusSettings).outcome = .ok g ∧
      labelAll [] g.regions = ⟨"top", none, none⟩ :: plusLabels ∧
      (g.block 4).attributes.get? "label" = some "X" := by
  obtain ⟨husable, hlist⟩ := plus_labels
  obtain ⟨g, hg⟩ := compile_ok_iff.mpr husable
  obtain ⟨network, hn, -, hlabels, hblock⟩ := labels_of_compile hg
  rw [hn, Option.map_some, Option.some.injEq] at hlist
  rw [hlist] at hlabels
  exact ⟨g, hg, hlabels, by rw [hblock, hlabels]; rfl⟩

/-- An empty label is given for the clusters of all roles and for the frame of the second composite.
None of them has a label in its body, and all show the label of a frame around them. -/
theorem exists_inherited_label :
    ∃ g, (compile plusSource plusSettings).outcome = .ok g ∧
      labelAll [] g.regions = ⟨"top", none, none⟩ :: plusLabels ∧
      ∀ r ∈ [2, 3, 5, 6, 7, 8, 9], (g.block r).attributes.get? "label" = none := by
  obtain ⟨husable, hlist⟩ := plus_labels
  obtain ⟨g, hg⟩ := compile_ok_iff.mpr husable
  obtain ⟨network, hn, hlabels⟩ := labelAll_of_compile hg
  rw [hn, Option.map_some, Option.some.injEq] at hlist
  rw [hlist] at hlabels
  refine ⟨g, hg, hlabels, fun r hr => ?_⟩
  rw [label_block, hlabels]
  revert r
  decide

end Network

end NetPlot
