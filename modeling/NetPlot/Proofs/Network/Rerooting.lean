/-
  Models under another root.

  1. **Documents** — what a model leads to depends on the text of the input, on the directory of
     the components and on the configuration alone (`usable_congr`).

  2. **Tours** — under another root, the tour is the same but for the beginning of the identities
     (`rerooted_tourBelow`).

  3. **Steps** — a process is drawn in a network or not, whatever the network is a part of, so the
     ends of edges are of the same kind (`rerooted_resolve`).  So all steps of a visit differ in
     the root only (`Visit.rerooted_steps`).

  4. **Models** — a model compiles under one root exactly if it does under the other, and then the
     graphs differ in the root only (`rerooting_of_compile`).

  A root may hold any characters, marks included.  So names are not taken apart here; it is enough
  that all of them begin with the root.
-/
import NetPlot.Proofs.Graph.Rerooting
import NetPlot.Proofs.Network.Edges

namespace NetPlot.Network

open NetPlot.Graph NetPlot.Label NetPlot.Xml

/-! ## Documents

The root is the name of the input without its ending.  It is put in front of names,
and documents are found without it. -/

/-- A document is used for its text alone. -/
theorem toOption_openDocument (source : Source) (name : String) (path : Path) :
    (openDocument source name path).toOption =
      ((source path).toOption.bind parse?).bind (Cursor.firstNamed? · name) := by
  rw [openDocument]
  cases source path with
  | error cause => rfl
  | ok text =>
    show _ = (parse? text).bind _
    cases hx : parse? text with
    | none => simp [hx, Except.toOption]
    | some root =>
      cases hn : Cursor.firstNamed? root name with
      | none => simp [hx, hn, Except.toOption]
      | some network => simp [hx, hn, Except.toOption]

variable {source : Source} {s s' : Settings} {r t : String}

/-- Only the text of the input counts, not its path. -/
theorem rootNetwork?_congr (htext : (source s'.input).toOption = (source s.input).toOption) :
    rootNetwork? source s' = rootNetwork? source s := by
  rw [rootNetwork?, rootNetwork?, toOption_openDocument, toOption_openDocument, htext]

/-- Whether documents can be used depends on their directory and on the detail level. -/
theorem usableBelow_congr (hdir : s'.inDir = s.inDir) (hconfig : s'.config = s.config)
    (level : Nat) (network : Cursor) :
    usableBelow source s' level network = usableBelow source s level network := by
  fun_induction usableBelow source s level network with
  | case1 level network hl ih =>
    rw [usableBelow, hconfig, if_pos hl, hdir]
    refine congrArg (List.all _) (funext fun site => ?_)
    cases networkOf? source s.inDir site with
    | none => rfl
    | some inner => exact ih inner
  | case2 level network hl => rw [usableBelow, hconfig, if_neg hl]

/-- Whether all documents can be used does not depend on the root. -/
theorem usable_congr (hdir : s'.inDir = s.inDir) (hconfig : s'.config = s.config)
    (htext : (source s'.input).toOption = (source s.input).toOption) :
    usable source s' = usable source s := by
  rw [usable, usable, rootNetwork?_congr htext]
  exact congrArg (Option.any · _) (funext (usableBelow_congr hdir hconfig firstLevel))

/-! ## Tours

Both tours are one recursion over the same documents.  The relation between them says nothing about
the names in the documents, so no condition on these is needed. -/

/-- The same visit for another process. -/
def Visit.under (v : Visit) (id : Identity) : Visit := { v with id := id }

/-- Two tours that differ in the root of the identities only. -/
inductive Tour.Rerooted (r t : String) : Tour → Tour → Prop where
  | done : Rerooted r t .done .done
  | visit {site : Cursor} {v : Visit} {id : Identity} {inner inner' rest rest' : Tour}
      (h : Reroots r t v.id.text id.text) (hi : Rerooted r t inner inner')
      (hr : Rerooted r t rest rest') :
      Rerooted r t (.visit site v inner rest) (.visit site (v.under id) inner' rest')

/-- Both tours have as many visits, so regions are numbered alike. -/
theorem Tour.Rerooted.size_eq {a a' : Tour} (h : Tour.Rerooted r t a a') : a'.size = a.size := by
  induction h with
  | done => rfl
  | visit _ _ _ ihi ihr => rw [size, size, ihi, ihr]

theorem reroots_child {p p' : Identity} (h : Reroots r t p.text p'.text) (x : String) :
    Reroots r t (p.child x).text (p'.child x).text :=
  (h.append "@").append x

theorem reroots_boundary {p p' : Identity} (h : Reroots r t p.text p'.text) (q : String) :
    Reroots r t (p.boundary q) (p'.boundary q) :=
  (h.append "@").append q

/-- Along the sites of a visit, the tours differ in the root only if those below the next level do.
-/
theorem rerooted_tourAlong (hdir : s'.inDir = s.inDir) (hconfig : s'.config = s.config)
    {v : Visit} {id : Identity} (h : Reroots r t v.id.text id.text)
    (hb : v.level < s.config.maxLevel → ∀ (w : Visit) (id : Identity), w.level = v.level + 1 →
      Reroots r t w.id.text id.text →
        Tour.Rerooted r t (tourBelow source s w) (tourBelow source s' (w.under id)))
    (next : RegionId) (sites : List Cursor) :
    Tour.Rerooted r t (tourAlong source s v next sites)
      (tourAlong source s' (v.under id) next sites) := by
  by_cases hl : v.level < s.config.maxLevel
  · have hl' : (v.under id).level < s'.config.maxLevel := by rw [hconfig]; exact hl
    induction sites generalizing next with
    | nil =>
      rw [tourAlong_nil, tourAlong_nil]
      exact .done
    | cons site sites ih =>
      cases hn : networkOf? source s.inDir site with
      | none =>
        have hn' : networkOf? source s'.inDir site = none := hdir ▸ hn
        rw [tourAlong_cons_none hn, tourAlong_cons_none hn']
        exact ih next
      | some network =>
        have hn' : networkOf? source s'.inDir site = some network := hdir ▸ hn
        rw [tourAlong_cons_some hl hn, tourAlong_cons_some hl' hn', hconfig]
        -- the visits inside take as many regions on both sides
        have hid := reroots_child h (site.element.attr "name")
        have hw := hb hl ⟨network, identityAt v.id site, v.level + 1, next⟩ (identityAt id site)
          rfl hid
        have hsize := hw.size_eq
        refine .visit hid hw ?_
        have hrest := ih (next + width s.config.clusters *
          ((tourBelow source s ⟨network, identityAt v.id site, v.level + 1, next⟩).size + 1))
        rw [← hsize] at hrest ⊢
        exact hrest
  · have hl' : s'.config.maxLevel ≤ (v.under id).level := by
      rw [hconfig]
      exact Nat.not_lt.mp hl
    rw [tourAlong_of_le (Nat.not_lt.mp hl), tourAlong_of_le hl']
    exact .done

/-- Under another root, the tour differs in the root of the identities only. -/
theorem rerooted_tourBelow (hdir : s'.inDir = s.inDir) (hconfig : s'.config = s.config)
    {v : Visit} {id : Identity} (h : Reroots r t v.id.text id.text) :
    Tour.Rerooted r t (tourBelow source s v) (tourBelow source s' (v.under id)) := by
  fun_induction tourBelow source s v generalizing id with
  | case1 v hl ih =>
    have hb := rerooted_tourAlong hdir hconfig h (fun _ w _ hw hid => ih w hw hid)
      (v.container + width s.config.clusters) (compositesOf v.network)
    rw [tourAlong, if_pos hl] at hb
    rw [tourBelow_eq, hconfig]
    exact hb
  | case2 v hl =>
    have hl' : s'.config.maxLevel ≤ (v.under id).level := by
      rw [hconfig]
      exact Nat.not_lt.mp hl
    rw [tourBelow_eq, tourAlong_of_le hl']
    exact .done

/-! ## Steps -/

/-- Steps for the same items differ in the root only, if they do for each item. -/
theorem forall₂_map {α β : Type} {R : β → β → Prop} {f f' : α → β} {l : List α}
    (h : ∀ a ∈ l, R (f a) (f' a)) : List.Forall₂ R (l.map f) (l.map f') :=
  List.forall₂_map_left_iff.mpr (List.forall₂_map_right_iff.mpr (List.forall₂_same.mpr h))

/-- Lists that are put together from related lists are related. -/
theorem forall₂_flatMap {α β : Type} {R : β → β → Prop} {f f' : α → List β}
    (h : ∀ a, List.Forall₂ R (f a) (f' a)) (l : List α) :
    List.Forall₂ R (l.flatMap f) (l.flatMap f') :=
  List.rel_flatMap (R := Eq) (List.forall₂_refl l) fun a _ he => he ▸ h a

/-- Two ends that differ in the root of the node only. -/
structure Endpoint.Rerooted (r t : String) (e e' : Endpoint) : Prop where
  node : Reroots r t e.node e'.node
  port : e'.port = e.port

section

variable {cfg : Config} {v : Visit} {id : Identity}

/-- Whether a process is drawn in its network does not depend on what is around the network. -/
theorem rerooted_resolve (h : Reroots r t v.id.text id.text) (x q : String) :
    (resolve (v.drawn cfg) (v.id.child x) q).Rerooted r t
      (resolve ((v.under id).drawn cfg) (id.child x) q) := by
  have hx := reroots_child h x
  rw [resolve_drawn]
  show Endpoint.Rerooted r t _ (resolve ((v.under id).drawn cfg) ((v.under id).id.child x) q)
  rw [resolve_drawn, endOf, endOf]
  by_cases hs : IsShown cfg v.level v.network x
  · rw [if_pos hs, if_pos (show IsShown cfg (v.under id).level (v.under id).network x from hs)]
    exact ⟨hx, rfl⟩
  · rw [if_neg hs, if_neg (show ¬ IsShown cfg (v.under id).level (v.under id).network x from hs)]
    exact ⟨(hx.append "@").append q, rfl⟩

/-- Related ends make related edges; sides and styles do not look at the names of nodes. -/
theorem rerooted_edge {tail tail' head head' : Endpoint} (ht : tail.Rerooted r t tail')
    (hh : head.Rerooted r t head') (dataType label : String) :
    Edge.Rerooted r t (v.edge cfg (tail, head) dataType label)
      ((v.under id).edge cfg (tail', head') dataType label) where
  tail := ht.node
  head := hh.node
  attributes := by
    show edgeAttributes cfg.direction tail' head' dataType label = _
    rw [edgeAttributes, ht.port, hh.port]
    rfl
  region := rfl

/-- The edge of an interface port is drawn the same way round under either root. -/
theorem rerooted_portEdge (h : Reroots r t v.id.text id.text) (site : Cursor) :
    Edge.Rerooted r t (v.portEdge cfg site) ((v.under id).portEdge cfg site) := by
  have hown : Endpoint.Rerooted r t (.bare (v.id.boundary (site.element.attr "name")))
      (.bare (id.boundary (site.element.attr "name"))) :=
    ⟨reroots_boundary h _, rfl⟩
  have hinner : Endpoint.Rerooted r t
      (resolve (v.drawn cfg) (v.id.child (site.element.attr "bound_process"))
        (site.element.attr "bound_port"))
      (resolve ((v.under id).drawn cfg) (id.child (site.element.attr "bound_process"))
        (site.element.attr "bound_port")) :=
    rerooted_resolve h ..
  have hends : (portEnds (v.drawn cfg) (.ofElement v.id site.element)).1.Rerooted r t
        (portEnds ((v.under id).drawn cfg) (.ofElement id site.element)).1 ∧
      (portEnds (v.drawn cfg) (.ofElement v.id site.element)).2.Rerooted r t
        (portEnds ((v.under id).drawn cfg) (.ofElement id site.element)).2 := by
    -- the direction is that of the port, whatever process it is of
    have hd : (PortBinding.ofElement id site.element).direction =
        (PortBinding.ofElement v.id site.element).direction := rfl
    rw [portEnds, portEnds, hd]
    cases (PortBinding.ofElement v.id site.element).direction with
    | input => exact ⟨hown, hinner⟩
    | output => exact ⟨hinner, hown⟩
  exact rerooted_edge hends.1 hends.2 _ _

theorem rerooted_signalEdge (h : Reroots r t v.id.text id.text) (site : Cursor) :
    Edge.Rerooted r t (v.signalEdge cfg site) ((v.under id).signalEdge cfg site) :=
  rerooted_edge
    (rerooted_resolve h (site.element.attr "source") (site.element.attr "source_port"))
    (rerooted_resolve h (site.element.attr "target") (site.element.attr "target_port")) _ _

/-- The node of a process, the label of which is that of its element. -/
theorem rerooted_processNode (h : Reroots r t v.id.text id.text) (spec ports : Spec)
    (color : String) (site : Cursor) :
    Node.Rerooted r t (v.processNode cfg spec ports color site)
      ((v.under id).processNode cfg spec ports color site) :=
  ⟨reroots_child h _, rfl, rfl⟩

/-- The steps of a visit differ in the root only, if those of the visits inside do. -/
theorem Visit.rerooted_steps (h : Reroots r t v.id.text id.text) {inner inner' : List Step}
    (hi : List.Forall₂ (Step.Rerooted r t) inner inner') :
    List.Forall₂ (Step.Rerooted r t) (v.steps cfg inner) ((v.under id).steps cfg inner') := by
  -- each step names the same thing below the other root; the regions keep their numbers
  have hopening : List.Forall₂ (Step.Rerooted r t) (v.openingSteps cfg)
      ((v.under id).openingSteps cfg) := by
    refine .cons (.node ⟨h.append _, rfl, rfl⟩) (forall₂_map fun role _ => .region ?_)
    exact (h.behind "cluster_").append role.key
  have hboxes : List.Forall₂ (Step.Rerooted r t) (v.boxSteps cfg (v.boxes cfg))
      ((v.under id).boxSteps cfg ((v.under id).boxes cfg)) :=
    forall₂_map fun site _ => .node (rerooted_processNode h ..)
  have hclosing : List.Forall₂ (Step.Rerooted r t) (v.closingSteps cfg)
      ((v.under id).closingSteps cfg) := by
    refine List.rel_append (List.rel_append ?_ ?_) ?_
    · exact forall₂_map fun site _ => .node (rerooted_processNode h ..)
    · refine forall₂_flatMap (fun site => ?_) _
      exact .cons (.node ⟨reroots_boundary h _, rfl, rfl⟩)
        (.cons (.edge (rerooted_portEdge h site)) .nil)
    · exact forall₂_map fun site _ => .edge (rerooted_signalEdge h site)
  exact List.rel_append (List.rel_append (List.rel_append hopening hboxes) hi) hclosing

end

/-- The steps of a tour differ in the root only. -/
theorem Tour.Rerooted.steps {cfg : Config} {a a' : Tour} (h : Tour.Rerooted r t a a')
    (outer : RegionId) :
    List.Forall₂ (Step.Rerooted r t) (a.steps cfg outer) (a'.steps cfg outer) := by
  induction h generalizing outer with
  | done => exact .nil
  | @visit site v id inner inner' rest rest' hid _ _ ihi ihr =>
    have hframe : Step.Rerooted r t (v.frameStep cfg outer site)
        ((v.under id).frameStep cfg outer site) := .region (hid.behind "cluster_")
    exact List.rel_append (.cons hframe (Visit.rerooted_steps hid (ihi _))) (ihr outer)

/-! ## Models -/

/-- Graphs with nothing but the frame of the root differ in the root only. -/
theorem rerooted_frame (hconfig : s'.config = s.config) :
    Graph.Rerooted s.rootName s'.rootName (rootFrame s s.rootName).1
      (rootFrame s' s'.rootName).1 where
  strict := rfl
  root := by
    refine ⟨_, rfl, ?_⟩
    rw [rootFrame, hconfig]
    rfl
  nested := by
    refine ⟨[("style", "filled, rounded"), ("fillcolor", Color.background s.config.gradient 1),
      ("fontsize", "13")], [], [], by simp [Entries.keys], rfl, ?_, .nil⟩
    rw [rootFrame, hconfig]
    rfl
  nodes := .nil
  edges := .nil

/-- **Another root.**  Settings that differ in the root and in where the text of the input is
compile a model or fail to compile it together.  The graphs differ in the root only: all names of
nodes and ends of edges have the one root in front in place of the other, as have the names of the
frames and clusters behind their beginning; the name of the graph and the label of the frame of the
root are the roots themselves.  Everything else is equal, and in the same order. -/
theorem rerooting_of_compile {source : Source} {s s' : Settings} (hdir : s'.inDir = s.inDir)
    (hconfig : s'.config = s.config)
    (htext : (source s'.input).toOption = (source s.input).toOption) :
    ((∃ g, (compile source s).outcome = .ok g) ↔ ∃ g, (compile source s').outcome = .ok g) ∧
    ∀ g g', (compile source s).outcome = .ok g → (compile source s').outcome = .ok g' →
      Graph.Rerooted s.rootName s'.rootName g g' := by
  refine ⟨by rw [compile_ok_iff, compile_ok_iff, usable_congr hdir hconfig htext], ?_⟩
  intro g g' hg hg'
  -- the root documents agree, so both runs draw the same tour from different identities
  obtain ⟨network, hn, -, -, rfl⟩ := compile_eq_ok hg
  obtain ⟨network', hn', -, -, rfl⟩ := compile_eq_ok hg'
  rw [rootNetwork?_congr htext, hn] at hn'
  obtain rfl := Option.some.inj hn'
  have hroot : Reroots s.rootName s'.rootName (rootVisit s network).id.text s'.rootName :=
    Reroots.refl ..
  have htour : Tour.Rerooted s.rootName s'.rootName (tourBelow source s (rootVisit s network))
      (tourBelow source s' (rootVisit s' network)) :=
    rerooted_tourBelow hdir hconfig hroot
  have hsteps : List.Forall₂ (Step.Rerooted s.rootName s'.rootName)
      ((rootVisit s network).steps s.config ((tourBelow source s (rootVisit s network)).steps
        s.config ((rootVisit s network).frameRegion s.config.clusters)))
      ((rootVisit s' network).steps s.config ((tourBelow source s' (rootVisit s' network)).steps
        s.config ((rootVisit s network).frameRegion s.config.clusters))) :=
    Visit.rerooted_steps hroot (htour.steps _)
  show Graph.Rerooted _ _ ((rootFrame s s.rootName).1.run _)
    ((rootFrame s' s'.rootName).1.run ((rootVisit s' network).steps s'.config
      ((tourBelow source s' (rootVisit s' network)).steps s'.config
        ((rootVisit s' network).frameRegion s'.config.clusters))))
  rw [hconfig]
  exact (rerooted_frame hconfig).run hsteps

/-- The small model with its input at a second place. -/
def twinSource : Source
  | ⟨"twin.xml"⟩ => sampleSource ⟨"top.xml"⟩
  | path => sampleSource path

/-- Settings for the second place, under a root with marks in its name. -/
def twinSettings : Settings :=
  { sampleSettings with input := ⟨"twin.xml"⟩, rootName := "a@b#c" }

/-- The input is at another path and the root has marks in its name, and the graphs differ in the
root only. -/
theorem rerooting_of_compile_twin :
    twinSettings.inDir = sampleSettings.inDir ∧ twinSettings.config = sampleSettings.config ∧
      (twinSource twinSettings.input).toOption = (twinSource sampleSettings.input).toOption ∧
      ∃ g g', (compile twinSource sampleSettings).outcome = .ok g ∧
        (compile twinSource twinSettings).outcome = .ok g' ∧
        Graph.Rerooted "top" "a@b#c" g g' := by
  have htext : (twinSource twinSettings.input).toOption =
      (twinSource sampleSettings.input).toOption := by decide +kernel
  have husable : usable twinSource sampleSettings = true := by decide +kernel
  obtain ⟨hiff, hrerooted⟩ :=
    @rerooting_of_compile twinSource sampleSettings twinSettings rfl rfl htext
  obtain ⟨g, hg⟩ := compile_ok_iff.mpr husable
  obtain ⟨g', hg'⟩ := hiff.mp ⟨g, hg⟩
  exact ⟨rfl, rfl, htext, g, g', hg, hg', hrerooted g g' hg hg'⟩

end NetPlot.Network
