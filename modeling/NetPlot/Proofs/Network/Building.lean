/-
  Drawings are built.

  1. **Growth** — `BuiltFrom n g` says that the graph `g` is built and has the regions up to `n`.
     Nodes and edges in these regions keep it so, and so does any loop over such changes.

  2. **Attributes** — all attributes that a drawing makes have words for keys.

  3. **Drawings** — clusters are `Within` the regions that are there (`builtFrom_openLevel`), so
     that all that is drawn into them is built (`builtFrom_drawComposites`).  Both kinds of models
     come out as graphs that are built (`built_of_compileAs`).

  This is all that has to be known of the compilers for their texts to be read back.
-/
import NetPlot.Network.Mode
import NetPlot.Proofs.Graph.Built
import NetPlot.Proofs.Network.Loading

namespace NetPlot.Network

open NetPlot.Graph NetPlot.Label NetPlot.Xml

/-! ## Growth

Regions are never taken away, so a bound on the regions that are there is kept by every later
change. With it, the loops of the drawing can be followed without their graphs being known. -/

/-- The graph is built, and the regions up to `n` are there. -/
structure BuiltFrom (n : Nat) (g : Graph) : Prop where
  built : Built g
  le : n ≤ g.nextRegion

namespace BuiltFrom

variable {n : Nat} {g : Graph}

theorem mono {m : Nat} (h : BuiltFrom n g) (hm : m ≤ n) : BuiltFrom m g :=
  ⟨h.built, Nat.le_trans hm h.le⟩

theorem addRegion (h : BuiltFrom n g) {parent : RegionId} (hp : parent < n) (name : String)
    {a : Attributes} (ha : a.Worded) :
    BuiltFrom (g.nextRegion + 1) (g.addRegion parent name a) :=
  ⟨.region h.built (Nat.lt_of_lt_of_le hp h.le) name ha,
    Nat.le_of_eq (nextRegion_addRegion g parent name a).symm⟩

theorem addNode (h : BuiltFrom n g) {region : RegionId} (hr : region < n) (name : String)
    {a : Attributes} (ha : a.Worded) : BuiltFrom n (g.addNode region name a) :=
  ⟨.node h.built (Nat.lt_of_lt_of_le hr h.le) name ha, h.le⟩

theorem addEdge (h : BuiltFrom n g) {region : RegionId} (hr : region < n) (tail head : String)
    {a : Attributes} (ha : a.Worded) : BuiltFrom n (g.addEdge region tail head a) :=
  ⟨.edge h.built (Nat.lt_of_lt_of_le hr h.le) tail head ha, h.le⟩

/-- A loop keeps the bound if each of its rounds does. -/
theorem foldl {α : Type} {f : Graph → α → Graph}
    (hf : ∀ {g : Graph} (a : α), BuiltFrom n g → BuiltFrom n (f g a)) (h : BuiltFrom n g)
    (as : List α) : BuiltFrom n (as.foldl f g) := by
  induction as generalizing g with
  | nil => exact h
  | cons a as ih => exact ih (hf a h)

end BuiltFrom

/-! ## Attributes

The keys of each kind of attributes are fixed, so that they are words is decided once for each kind;
the values do not matter. -/

theorem worded_hidden : (Attributes.ofGiven [("style", "invis")]).Worded :=
  .ofGiven (show ∀ k ∈ ["style"], IsWord k by decide +kernel)

theorem worded_nodeAttributes {es : Entries} (h : ∀ k ∈ Entries.keys es, IsWord k) :
    (nodeAttributes es).Worded := by
  refine Attributes.Worded.override (.ofGiven ?_) h
  show ∀ k ∈ ["shape", "color", "fillcolor", "style", "fontname", "fontsize", "orientation"],
    IsWord k
  decide +kernel

theorem worded_recordAttributes (label : Rows) (ports : List Port) (color : String) :
    (recordAttributes label ports color).Worded :=
  worded_nodeAttributes (show ∀ k ∈ ["label", "fillcolor"], IsWord k by decide +kernel)

theorem worded_portAttributes (cfg : Config) (label : Rows) (dataType : String) :
    (portAttributes cfg label dataType).Worded :=
  worded_nodeAttributes
    (show ∀ k ∈ ["label", "shape", "width", "height", "style", "orientation"], IsWord k by
      decide +kernel)

theorem worded_edgeAttributes (d : PlotDirection) (tail head : Endpoint)
    (dataType label : String) : (edgeAttributes d tail head dataType label).Worded :=
  .ofGiven
    (show ∀ k ∈ ["tailport", "headport", "style", "penwidth", "label"], IsWord k by
      decide +kernel)

theorem worded_channelAttributes (cfg : Config) (channel : Cursor) :
    (channelAttributes cfg channel).Worded :=
  .ofGiven (show ∀ k ∈ ["tailport", "headport", "label"], IsWord k by decide +kernel)

theorem worded_frameAttributes (cfg : Config) (label : String) (level : Nat) :
    (frameAttributes cfg label level).Worded :=
  .ofGiven (show ∀ k ∈ ["label", "style", "fillcolor"], IsWord k by decide +kernel)

/-! ## Clusters

A role that is not drawn stands for the container, so whatever region a role has, it is one of those
that a level has opened. -/

/-- The container and the regions of the roles are there. -/
structure Clusters.Within (n : Nat) (c : Clusters) : Prop where
  container : c.container < n
  regions : ∀ x ∈ c.regions, x.2 < n

/-- Whatever region a role is drawn in, it is there. -/
theorem Clusters.Within.region_lt {n : Nat} {c : Clusters} (h : c.Within n) (role : Role) :
    c.region role < n := by
  rw [Clusters.region]
  cases hr : c.regions.lookup role with
  | none => exact h.container
  | some r =>
    obtain ⟨as, bs, hs, -⟩ := List.lookup_eq_some_iff.mp hr
    exact h.regions (role, r) (by simp [hs])

/-- The regions of roles are opened one after the other. -/
theorem builtFrom_foldl_addRole {n : Nat} {container : RegionId} (hc : container < n)
    (base : String) (roles : List Role) {state : Graph × List (Role × RegionId)}
    (hg : BuiltFrom n state.1) (hr : ∀ x ∈ state.2, x.2 < n) :
    ∃ m, n ≤ m ∧ BuiltFrom m (roles.foldl (Clusters.addRole container base) state).1 ∧
      ∀ x ∈ (roles.foldl (Clusters.addRole container base) state).2, x.2 < m := by
  induction roles generalizing n state with
  | nil => exact ⟨n, Nat.le_refl n, hg, hr⟩
  | cons role roles ih =>
    have hlt : n < state.1.nextRegion + 1 := Nat.lt_succ_of_le hg.le
    -- the new region has the next number, so those of the roles before it stay below the bound
    have hlabel : (Attributes.ofGiven [("label", "")]).Worded :=
      .ofGiven (show ∀ k ∈ ["label"], IsWord k by decide +kernel)
    have hregions : ∀ x ∈ (Clusters.addRole container base state role).2,
        x.2 < state.1.nextRegion + 1 := by
      intro x hx
      rcases List.mem_append.mp hx with hx | hx
      · exact Nat.lt_trans (hr x hx) hlt
      · rw [List.mem_singleton.mp hx]
        exact Nat.lt_succ_self _
    have hstate : BuiltFrom (state.1.nextRegion + 1)
        (Clusters.addRole container base state role).1 :=
      hg.addRegion hc (base ++ role.key) hlabel
    obtain ⟨m, hm, hmg, hmr⟩ := ih (Nat.lt_trans hc hlt) hstate hregions
    exact ⟨m, Nat.le_trans (Nat.le_of_lt hlt) hm, hmg, hmr⟩

/-- A level is opened in a container that is there. -/
theorem builtFrom_openLevel {n : Nat} {container : RegionId} {g : Graph} (h : BuiltFrom n g)
    (hc : container < n) (cfg : Config) (id : Identity) :
    ∃ m, n ≤ m ∧ BuiltFrom m (openLevel cfg id container g).1 ∧
      (openLevel cfg id container g).2.Within m := by
  let state : Graph × List (Role × RegionId) :=
    (g.addNode container id.hidden (.ofGiven [("style", "invis")]), [])
  have hstate : BuiltFrom n state.1 := h.addNode hc id.hidden worded_hidden
  obtain ⟨m, hm, hg, hr⟩ := builtFrom_foldl_addRole hc
    (((state.1.region? container).map (·.name)).getD "") (Role.drawn cfg.clusters) hstate
    fun x hx => absurd hx List.not_mem_nil
  exact ⟨m, hm, hg, Nat.lt_of_lt_of_le hc hm, hr⟩

/-! ## Drawings

Each function of the drawing keeps the bound, and so the drawing as a whole gives a graph that is
built.  The bound is that of the clusters in which the function draws. -/

section

variable {n : Nat} {clusters : Clusters} {g : Graph} (hc : clusters.Within n) (cfg : Config)
  (parent : Identity)

include hc

theorem builtFrom_drawProcess (spec ports : Spec) (color : String) (site : Cursor)
    (h : BuiltFrom n g) :
    BuiltFrom n (drawProcess cfg clusters parent spec ports color g site) :=
  h.addNode (hc.region_lt _) _ (worded_recordAttributes _ _ _)

theorem builtFrom_connect (ends : Endpoint × Endpoint) (dataType label : String)
    (h : BuiltFrom n g) : BuiltFrom n (connect cfg clusters.container g ends dataType label) :=
  h.addEdge hc.container _ _ (worded_edgeAttributes _ _ _ _ _)

/-- Leaves, ports and signals are drawn into regions that are there, in three loops. -/
theorem builtFrom_drawRest (m : Model) (h : BuiltFrom n g) :
    BuiltFrom n (drawRest cfg clusters parent m g) := by
  refine BuiltFrom.foldl (fun site h => builtFrom_connect hc cfg _ _ _ h) ?_ _
  refine BuiltFrom.foldl (fun site h => builtFrom_connect hc cfg _ _ _ ?_) ?_ _
  · exact h.addNode (hc.region_lt _) _ (worded_portAttributes _ _ _)
  · exact BuiltFrom.foldl (fun site h => builtFrom_drawProcess hc cfg parent _ _ _ site h) h _

end

/-- Composites are drawn into regions that are there, or into frames of their own. -/
theorem builtFrom_drawComposites {n : Nat} {clusters : Clusters} (hc : clusters.Within n)
    (cfg : Config) (parent : Identity) (level : Nat) (e : Expansion) {g : Graph}
    (h : BuiltFrom n g) : BuiltFrom n (drawComposites cfg clusters parent level e g) := by
  induction e generalizing n clusters parent level g with
  | done => exact h
  | box site rest ih =>
    exact ih hc parent level (builtFrom_drawProcess hc cfg parent _ _ _ site h)
  | expand site network inner rest ihi ihr =>
    have hframe := h.addRegion (hc.region_lt (frameRole cfg.clusters))
      ("cluster_" ++ (identityAt parent site).text)
      (worded_frameAttributes cfg (pretty (cfg.labels.composite.evaluate site)) level)
    obtain ⟨m, hm, hopen, hinside⟩ :=
      builtFrom_openLevel hframe (Nat.lt_succ_self _) cfg (identityAt parent site)
    have hinner := builtFrom_drawRest hinside cfg (identityAt parent site) ⟨network, inner⟩
      (ihi hinside (identityAt parent site) (level + 1) hopen)
    -- the regions that were there are there still
    have hn : n ≤ m := Nat.le_trans (Nat.le_succ_of_le h.le) hm
    exact ihr hc parent level (hinner.mono hn)

/-- The root frame is built, and it is there. -/
theorem builtFrom_rootFrame (s : Settings) (label : String) :
    BuiltFrom ((rootFrame s label).2 + 1) (rootFrame s label).1 := by
  have hnew : BuiltFrom 1 (Graph.new s.rootName true (.ofGiven [
      ("rankdir", s.config.direction.rankdir), ("fontname", "Helvetica"), ("overlap", "prism"),
      ("splines", "true")])) :=
    ⟨.new _ _ (.ofGiven
      (show ∀ k ∈ ["rankdir", "fontname", "overlap", "splines"], IsWord k by decide +kernel)),
      Nat.le_refl 1⟩
  exact hnew.addRegion Nat.one_pos _ (.ofGiven
    (show ∀ k ∈ ["label", "style", "fillcolor", "fontsize"], IsWord k by decide +kernel))

/-- Inside of the frame of the root, the model is drawn level by level. -/
theorem built_drawModel (s : Settings) (m : Model) : Built (drawModel s m) := by
  obtain ⟨n, -, hopen, hinside⟩ := builtFrom_openLevel (builtFrom_rootFrame s s.rootName)
    (Nat.lt_succ_self _) s.config ⟨s.rootName⟩
  exact (builtFrom_drawRest hinside s.config ⟨s.rootName⟩ m
    (builtFrom_drawComposites hinside s.config ⟨s.rootName⟩ firstLevel m.composites hopen)).built

/-- An application graph is drawn in the frame of the root alone. -/
theorem built_drawApplication (s : Settings) (app : Cursor) : Built (drawApplication s app) := by
  have hframe := builtFrom_rootFrame s (app.element.attr "name")
  have hlt := Nat.lt_succ_self (rootFrame s (app.element.attr "name")).2
  have hnode := hframe.addNode hlt (Identity.mk s.rootName).hidden worded_hidden
  refine (BuiltFrom.foldl (fun block h => ?_) hnode (app.childrenNamed "sdf")).built
  refine BuiltFrom.foldl (fun channel h => ?_) (BuiltFrom.foldl (fun actor h => ?_) h _) _
  · exact h.addEdge hlt _ _ (worded_channelAttributes s.config channel)
  · exact h.addNode hlt _ (worded_recordAttributes _ _ _)

theorem compileAs_network {source : Source} {s : Settings} {g : Graph}
    (h : (compile source s).outcome = .ok g) : (compileAs .network source s).outcome = .ok g := by
  show (compile source s).outcome.mapError Trouble.network = .ok g
  rw [h]
  rfl

/-- The graph of a model that compiles is built. -/
theorem built_of_compileAs {mode : Mode} {source : Source} {s : Settings} {g : Graph}
    (h : (compileAs mode source s).outcome = .ok g) : Built g := by
  have hc : compileAs mode source s = ⟨(compileAs mode source s).opened, .ok g⟩ := by rw [← h]
  cases mode with
  | network =>
    obtain ⟨m, -, rfl⟩ := Reading.map_eq_ok.mp (Reading.mapError_eq_ok.mp hc)
    exact built_drawModel s m
  | application =>
    obtain ⟨app, -, rfl⟩ := Reading.map_eq_ok.mp (Reading.mapError_eq_ok.mp hc)
    exact built_drawApplication s app

end NetPlot.Network
