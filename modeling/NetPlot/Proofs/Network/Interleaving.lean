/-
  Networks whose parts are interleaved in another way.

  1. **Documents** — a network is made of composites, leaves, ports and signals.  `Interleaved`
     documents differ in how the parts of their networks stand among each other; the parts of each
     kind are the same, in the same order.  The networks found in them have the same parts
     (`rel_openDocument`).

  2. **Readings** — two readings are in step if they open the same documents and come out alike
     (`Reading.Rel`).  Models are read in step: the same composites become boxes or frames, with
     the same parts inside (`rel_load`).

  3. **Drawing** — with labels that look at nothing but their own element, a part is drawn alike
     wherever it stands, and each kind of parts is drawn by itself.  So the same parts make the
     same graph (`drawModel_congr`), and the same document is at fault if there is none
     (`interleaving_of_compile`).

  Where a part stands among parts of other kinds has no meaning for the network.  A query can see it
  all the same if it leaves its element, which is why the labels are asked to look inwards.
-/
import Mathlib.Data.List.Forall2
import NetPlot.Proofs.Label.Inward
import NetPlot.Proofs.Network.Steps
import NetPlot.Proofs.Xml.Places

namespace NetPlot.Network

open NetPlot.Graph NetPlot.Label NetPlot.Xml

/-! ## Documents

The relation goes through a whole document, since a network may stand anywhere in it.  It allows
another order only between parts of different kinds and only directly inside a network. -/

/-- What a network is made of. -/
def partNames : List String := ["composite_process", "leaf_process", "port", "signal"]

/-- Two networks with the same parts of each kind, in the same order. -/
def SameParts (e e' : Element) : Prop :=
  ∀ name ∈ partNames,
    e.children.filter (·.name == name) = e'.children.filter (·.name == name)

instance (e e' : Element) : Decidable (SameParts e e') :=
  inferInstanceAs (Decidable (∀ name ∈ partNames, _))

mutual

/-- Two documents that differ in how the parts of their networks are interleaved. -/
inductive Interleaved : Element → Element → Prop where
  | network {e e' : Element} (h : e.name = "process_network") (h' : e'.name = "process_network")
      (hp : SameParts e e') : Interleaved e e'
  | other {name : String} {attributes : List Xml.Attribute} {text : String}
      {children children' : List Element} (h : name ≠ "process_network")
      (hc : AllInterleaved children children') :
      Interleaved ⟨name, attributes, text, children⟩ ⟨name, attributes, text, children'⟩

/-- Elements in order, each interleaved in another way. -/
inductive AllInterleaved : List Element → List Element → Prop where
  | nil : AllInterleaved [] []
  | cons {e e' : Element} {es es' : List Element} (h : Interleaved e e')
      (hs : AllInterleaved es es') : AllInterleaved (e :: es) (e' :: es')

end

mutual

theorem Interleaved.refl : (e : Element) → Interleaved e e
  | ⟨name, _, _, children⟩ => by
    by_cases h : name = "process_network"
    · exact .network h h fun _ _ => rfl
    · exact .other h (AllInterleaved.refl children)

theorem AllInterleaved.refl : (es : List Element) → AllInterleaved es es
  | [] => .nil
  | e :: es => .cons (.refl e) (.refl es)

end

/-- What is read at a path for the one and for the other model. -/
inductive Reinterleaved : Except Unreadable String → Except Unreadable String → Prop where
  | unreadable (cause : Unreadable) : Reinterleaved (.error cause) (.error cause)
  | malformed {text text' : String} (h : parse? text = none) (h' : parse? text' = none) :
      Reinterleaved (.ok text) (.ok text')
  | document {text text' : String} {root root' : Element} (h : parse? text = some root)
      (h' : parse? text' = some root') (hr : Interleaved root root') :
      Reinterleaved (.ok text) (.ok text')

theorem Reinterleaved.refl (read : Except Unreadable String) : Reinterleaved read read := by
  cases read with
  | error cause => exact .unreadable cause
  | ok text =>
    cases h : parse? text with
    | none => exact .malformed h h
    | some root => exact .document h h (.refl root)

/-- Documents that are networks with the same parts. -/
theorem reinterleaved_of_networks {text text' : String}
    (h : ∃ e ∈ parse? text, ∃ e' ∈ parse? text',
      e.name = "process_network" ∧ e'.name = "process_network" ∧ SameParts e e') :
    Reinterleaved (.ok text) (.ok text') := by
  obtain ⟨e, he, e', he', hn, hn', hp⟩ := h
  exact .document he he' (.network hn hn' hp)

/-- Is it a network? -/
def isNetwork (e : Element) : Bool := e.name == "process_network"

theorem rel_or {α β : Type} {R : α → β → Prop} {x y : Option α} {x' y' : Option β}
    (hx : Option.Rel R x x') (hy : Option.Rel R y y') : Option.Rel R (x.or y) (x'.or y') := by
  cases hx with
  | some h => exact .some h
  | none => exact hy

mutual

/-- The first networks of the two documents have the same parts. -/
theorem Interleaved.rel_find {e e' : Element} : Interleaved e e' →
    Option.Rel SameParts (e.descendants.find? isNetwork) (e'.descendants.find? isNetwork)
  | .network h h' hp => by
    obtain ⟨name, attributes, text, children⟩ := e
    obtain ⟨name', attributes', text', children'⟩ := e'
    have hn : isNetwork ⟨name, attributes, text, children⟩ = true := beq_iff_eq.mpr h
    have hn' : isNetwork ⟨name', attributes', text', children'⟩ = true := beq_iff_eq.mpr h'
    rw [Element.descendants, Element.descendants, List.find?_cons_of_pos hn,
      List.find?_cons_of_pos hn']
    exact .some hp
  | @Interleaved.other name attributes text children children' h hc => by
    have hn : ∀ cs, ¬ isNetwork ⟨name, attributes, text, cs⟩ = true :=
      fun _ hn => h (beq_iff_eq.mp hn)
    rw [Element.descendants, Element.descendants, List.find?_cons_of_neg (hn _),
      List.find?_cons_of_neg (hn _)]
    exact hc.rel_find

/-- The first network in some elements is in the same one of them on both sides. -/
theorem AllInterleaved.rel_find {es es' : List Element} : AllInterleaved es es' →
    Option.Rel SameParts ((Element.descendantsOf es).find? isNetwork)
      ((Element.descendantsOf es').find? isNetwork)
  | .nil => .none
  | .cons h hs => by
    rw [Element.descendantsOf, Element.descendantsOf, List.find?_append, List.find?_append]
    exact rel_or h.rel_find hs.rel_find

end

/-! ## Readings in step

Both models open their documents one after the other, and neither looks at the order of the parts
before it opens one.  So the two readings run in step, and stop at the same document if one cannot
be used. -/

/-- Both fail in the same way, or both succeed with related results. -/
inductive InStep {ε α : Type} (R : α → α → Prop) : Except ε α → Except ε α → Prop where
  | error (e : ε) : InStep R (.error e) (.error e)
  | ok {a a' : α} (h : R a a') : InStep R (.ok a) (.ok a')

/-- Two readings that open the same documents and come out in step. -/
structure Reading.Rel {ε α : Type} (R : α → α → Prop) (x x' : Reading ε α) : Prop where
  opened : x.opened = x'.opened
  outcome : InStep R x.outcome x'.outcome

namespace Reading.Rel

variable {ε ε' α β : Type} {R : α → α → Prop} {S : β → β → Prop} {x x' : Reading ε α}

/-- Results may be changed, if related ones are changed to related ones. -/
theorem map (h : x.Rel R x') {f f' : α → β} (hf : ∀ a a', R a a' → S (f a) (f' a')) :
    (x.map f).Rel S (x'.map f') := by
  obtain ⟨opened, outcome⟩ := x
  obtain ⟨opened', outcome'⟩ := x'
  obtain ⟨ho, hx⟩ := h
  refine ⟨ho, ?_⟩
  cases hx with
  | error e => exact .error e
  | ok hr => exact .ok (hf _ _ hr)

theorem mapError (h : x.Rel R x') (f : ε → ε') : (x.mapError f).Rel R (x'.mapError f) := by
  obtain ⟨opened, outcome⟩ := x
  obtain ⟨opened', outcome'⟩ := x'
  obtain ⟨ho, hx⟩ := h
  refine ⟨ho, ?_⟩
  cases hx with
  | error e => exact .error (f e)
  | ok hr => exact .ok hr

/-- One reading after the other; both go on, or both have failed. -/
theorem bind (h : x.Rel R x') {f f' : α → Reading ε β}
    (hf : ∀ a a', R a a' → (f a).Rel S (f' a')) : (x.bind f).Rel S (x'.bind f') := by
  obtain ⟨opened, outcome⟩ := x
  obtain ⟨opened', outcome'⟩ := x'
  obtain ⟨ho, hx⟩ := h
  -- where both have failed, nothing more is opened
  cases hx with
  | error e => exact ⟨ho, .error e⟩
  | @ok a a' hr =>
    obtain ⟨hopened, houtcome⟩ := hf a a' hr
    refine ⟨?_, houtcome⟩
    show opened ++ (f a).opened = opened' ++ (f' a').opened
    rw [show opened = opened' from ho, hopened]

/-- What does not tell related results apart makes the readings equal. -/
theorem map_eq (h : x.Rel R x') {f : α → β} (hf : ∀ a a', R a a' → f a = f a') :
    x.map f = x'.map f := by
  obtain ⟨opened, outcome⟩ := x
  obtain ⟨opened', outcome'⟩ := x'
  obtain ⟨ho, hx⟩ := h
  obtain rfl : opened = opened' := ho
  cases hx with
  | error e => rfl
  | @ok a a' hr =>
    show (⟨opened, .ok (f a)⟩ : Reading ε β) = ⟨opened, .ok (f a')⟩
    rw [hf a a' hr]

end Reading.Rel

/-! ## Expansions

Places in the two documents differ, though the elements at them do not.  What is compared is
therefore elements, and for networks their parts of each kind. -/

/-- Two networks with the same parts, wherever they stand. -/
def SameNetwork (c c' : Cursor) : Prop := SameParts c.element c'.element

/-- Two places of one element. -/
def SameElement (c c' : Cursor) : Prop := c.element = c'.element

/-- Two expansions of the same composites into networks with the same parts. -/
inductive Expansion.Same : Expansion → Expansion → Prop where
  | done : Same .done .done
  | box {site site' : Cursor} {rest rest' : Expansion} (h : SameElement site site')
      (hr : rest.Same rest') : Same (.box site rest) (.box site' rest')
  | expand {site site' network network' : Cursor} {inner inner' rest rest' : Expansion}
      (h : SameElement site site') (hn : SameNetwork network network') (hi : inner.Same inner')
      (hr : rest.Same rest') :
      Same (.expand site network inner rest) (.expand site' network' inner' rest')

/-- Two models with the same parts throughout. -/
structure Model.Same (m m' : Model) : Prop where
  network : SameNetwork m.network m'.network
  composites : m.composites.Same m'.composites

variable {source source' : Source} {s : Settings}

/-- The same places of elements, one by one. -/
theorem forall₂_sameElement {cs cs' : List Cursor}
    (h : cs.map (·.element) = cs'.map (·.element)) : List.Forall₂ SameElement cs cs' := by
  have h : List.Forall₂ Eq (cs.map (·.element)) (cs'.map (·.element)) := h ▸ List.forall₂_refl _
  rw [List.forall₂_map_left_iff, List.forall₂_map_right_iff] at h
  exact h

/-- Networks with the same parts have the same parts of each kind, one by one. -/
theorem SameNetwork.parts {c c' : Cursor} (h : SameNetwork c c') {name : String}
    (hn : name ∈ partNames) :
    List.Forall₂ SameElement (c.childrenNamed name) (c'.childrenNamed name) := by
  refine forall₂_sameElement ?_
  rw [Cursor.elements_childrenNamed, Cursor.elements_childrenNamed]
  exact h name hn

/-- One element has the same children wherever it stands. -/
theorem SameElement.children {c c' : Cursor} (h : SameElement c c') (name : String) :
    List.Forall₂ SameElement (c.childrenNamed name) (c'.childrenNamed name) := by
  refine forall₂_sameElement ?_
  rw [Cursor.elements_childrenNamed, Cursor.elements_childrenNamed, h]

theorem SameElement.identityAt_eq {c c' : Cursor} (h : SameElement c c') (parent : Identity) :
    identityAt parent c = identityAt parent c' := by
  rw [identityAt, identityAt, h]

/-- The networks of two documents have the same parts, or both documents are at fault. -/
theorem rel_openDocument (h : ∀ path, Reinterleaved (source path) (source' path)) (path : Path) :
    InStep SameNetwork (openDocument source "process_network" path)
      (openDocument source' "process_network" path) := by
  have hp := h path
  rw [openDocument, openDocument]
  generalize source path = text at hp
  generalize source' path = text' at hp
  -- both texts are unreadable, both malformed, or both documents with matching roots
  cases hp with
  | unreadable cause => exact .error _
  | malformed hx hx' =>
    simp only [hx, hx']
    exact .error _
  | @document text text' root root' hx hx' hr =>
    simp only [hx, hx']
    have hfind := hr.rel_find
    have hf : (root.descendants.find? isNetwork) =
        (Cursor.firstNamed? root "process_network").map (·.element) :=
      (Cursor.element_firstNamed? root _).symm
    have hf' : (root'.descendants.find? isNetwork) =
        (Cursor.firstNamed? root' "process_network").map (·.element) :=
      (Cursor.element_firstNamed? root' _).symm
    rw [hf, hf'] at hfind
    generalize Cursor.firstNamed? root "process_network" = found at hfind
    generalize Cursor.firstNamed? root' "process_network" = found' at hfind
    -- the search finds networks in both or in neither
    cases found with
    | none =>
      cases found' with
      | none => exact .error _
      | some network' => cases hfind
    | some network =>
      cases found' with
      | none => cases hfind
      | some network' =>
        cases hfind with
        | some hsame => exact .ok hsame

theorem rel_openNetwork (h : ∀ path, Reinterleaved (source path) (source' path)) (id : Identity)
    (path : Path) :
    (openNetwork source id path).Rel SameNetwork (openNetwork source' id path) := by
  have hopen : (Reading.open? source "process_network" path).Rel SameNetwork
      (Reading.open? source' "process_network" path) := ⟨rfl, rel_openDocument h path⟩
  exact hopen.mapError _

/-- The same composites are expanded in the same way, if the documents inside are read so. -/
theorem rel_expand {level : Nat} {parent : Identity}
    (hb : level < s.config.maxLevel → ∀ (path : Path) (id : Identity),
      (readAt source s path id (level + 1)).Rel Model.Same
        (readAt source' s path id (level + 1)))
    {sites sites' : List Cursor} (hs : List.Forall₂ SameElement sites sites') :
    (expand source s.inDir s.config.maxLevel level parent sites).Rel Expansion.Same
      (expand source' s.inDir s.config.maxLevel level parent sites') := by
  induction hs with
  | nil =>
    rw [expand, expand]
    exact ⟨rfl, .ok .done⟩
  | @cons site site' sites sites' hsite _ ih =>
    -- above the last level both read a document, and on it both draw a box
    by_cases hl : level < s.config.maxLevel
    · rw [expand_cons_of_lt hl, expand_cons_of_lt hl, ← hsite, ← hsite.identityAt_eq parent]
      refine ((hb hl _ _).mapError _).bind fun m m' hm => ?_
      exact ih.map fun rest rest' hr => .expand hsite hm.network hm.composites hr
    · rw [expand_cons_of_le (Nat.not_lt.mp hl), expand_cons_of_le (Nat.not_lt.mp hl)]
      exact ih.map fun rest rest' hr => .box hsite hr

/-- A document and all inside of it are read in the same way, from whatever level. -/
theorem rel_readAt (h : ∀ path, Reinterleaved (source path) (source' path)) (path : Path)
    (id : Identity) (level : Nat) :
    (readAt source s path id level).Rel Model.Same (readAt source' s path id level) := by
  -- documents inside are one level further down, and the levels are limited
  have hb : level < s.config.maxLevel → ∀ (path : Path) (id : Identity),
      (readAt source s path id (level + 1)).Rel Model.Same
        (readAt source' s path id (level + 1)) :=
    fun hl path id => rel_readAt h path id (level + 1)
  refine (rel_openNetwork h id path).bind fun network network' hsame => ?_
  exact (rel_expand hb (hsame.parts (by decide))).map fun e e' he => ⟨hsame, he⟩
termination_by s.config.maxLevel - level
decreasing_by omega

/-- The models are read in the same way. -/
theorem rel_load (h : ∀ path, Reinterleaved (source path) (source' path)) :
    (Model.load source s).Rel Model.Same (Model.load source' s) :=
  rel_readAt h s.input ⟨s.rootName⟩ firstLevel

/-! ## Drawing

A label that looks at its element alone is the same wherever the element stands.  So each function
of the drawing gives the same graph for related places, and each loop for related lists. -/

/-- All labels look at nothing but the element that they are of. -/
def InwardLabels (cfg : Config) : Prop :=
  ∀ kind : LabelKind, (cfg.labels.get kind).isInward = true

/-- Parts that are drawn alike at all places of an element, drawn one by one. -/
theorem foldl_congr_same {α : Type} {draw : α → Cursor → α}
    (hd : ∀ a c c', SameElement c c' → draw a c = draw a c') {cs cs' : List Cursor}
    (h : List.Forall₂ SameElement cs cs') (a : α) : cs.foldl draw a = cs'.foldl draw a := by
  have hstep : ∀ a a', a = a' → ∀ c c', SameElement c c' → draw a c = draw a' c' := by
    rintro a - rfl c c' hc
    exact hd a c c' hc
  exact List.rel_foldl (P := Eq) hstep rfl h

/-- What looks at elements alone gives the same for both lists. -/
theorem map_congr_same {α : Type} {f : Cursor → α} (hf : ∀ c c', SameElement c c' → f c = f c')
    {cs cs' : List Cursor} (h : List.Forall₂ SameElement cs cs') : cs.map f = cs'.map f := by
  have hmap : List.Forall₂ Eq (cs.map f) (cs'.map f) := List.rel_map hf h
  rwa [List.forall₂_eq_eq_eq] at hmap

section

variable {cfg : Config} {c c' : Cursor} (h : SameElement c c')
include h

theorem portsOf_congr {spec : Spec} (hs : spec.isInward = true) :
    portsOf spec c = portsOf spec c' := by
  refine map_congr_same (fun p p' hp => ?_) (h.children "port")
  rw [show p.element = p'.element from hp, Spec.evaluate_congr hs hp]

theorem drawProcess_congr (clusters : Clusters) (parent : Identity) {spec ports : Spec}
    (hs : spec.isInward = true) (hp : ports.isInward = true) (color : String) (g : Graph) :
    drawProcess cfg clusters parent spec ports color g c =
      drawProcess cfg clusters parent spec ports color g c' := by
  rw [drawProcess, drawProcess, portsOf_congr h hp, h.identityAt_eq, Spec.evaluate_congr hs h]

variable (hl : InwardLabels cfg)
include hl

theorem drawBox_congr (clusters : Clusters) (parent : Identity) (g : Graph) :
    drawBox cfg clusters parent g c = drawBox cfg clusters parent g c' :=
  drawProcess_congr h clusters parent (hl .composite) (hl .compositePort) _ g

theorem drawLeaf_congr (clusters : Clusters) (parent : Identity) (g : Graph) :
    drawLeaf cfg clusters parent g c = drawLeaf cfg clusters parent g c' :=
  drawProcess_congr h clusters parent (hl .leaf) (hl .leafPort) _ g

theorem drawPort_congr (clusters : Clusters) (parent : Identity) (drawn : List Identity)
    (g : Graph) :
    drawPort cfg clusters parent drawn g c = drawPort cfg clusters parent drawn g c' := by
  have hlabel : cfg.labels.compositePort.evaluate c = cfg.labels.compositePort.evaluate c' :=
    Spec.evaluate_congr (hl .compositePort) h
  rw [drawPort, drawPort, hlabel, h]

theorem drawSignal_congr (clusters : Clusters) (parent : Identity) (drawn : List Identity)
    (g : Graph) :
    drawSignal cfg clusters parent drawn g c = drawSignal cfg clusters parent drawn g c' := by
  have hlabel : cfg.labels.signal.evaluate c = cfg.labels.signal.evaluate c' :=
    Spec.evaluate_congr (hl .signal) h
  rw [drawSignal, drawSignal, hlabel, h]

end

/-- The boxes of an expansion are those composites that are not opened, in order. -/
theorem Expansion.Same.boxes {e e' : Expansion} (h : e.Same e') :
    List.Forall₂ SameElement e.boxes e'.boxes := by
  induction h with
  | done => exact .nil
  | box hsite _ ih => exact .cons hsite ih
  | expand _ _ _ _ _ ih => exact ih

/-- The same processes are drawn as nodes. -/
theorem Model.Same.drawnProcesses_eq {m m' : Model} (h : m.Same m') (parent : Identity) :
    drawnProcesses parent m = drawnProcesses parent m' :=
  map_congr_same (fun _ _ hc => hc.identityAt_eq parent)
    (List.rel_append h.composites.boxes (h.network.parts (by decide)))

section

variable {cfg : Config} (hl : InwardLabels cfg)
include hl

/-- Everything of the networks but their composites is drawn in the same way. -/
theorem drawRest_congr {m m' : Model} (h : m.Same m') (clusters : Clusters) (parent : Identity)
    (g : Graph) : drawRest cfg clusters parent m g = drawRest cfg clusters parent m' g := by
  -- each part of a network keeps its own order, and each loop goes over one part
  have hleaves : ∀ g, (leaves m.network).foldl (drawLeaf cfg clusters parent) g =
      (leaves m'.network).foldl (drawLeaf cfg clusters parent) g :=
    foldl_congr_same (fun g _ _ hc => drawLeaf_congr hc hl clusters parent g)
      (h.network.parts (by decide))
  have hports : ∀ drawn g,
      (m.network.childrenNamed "port").foldl (drawPort cfg clusters parent drawn) g =
        (m'.network.childrenNamed "port").foldl (drawPort cfg clusters parent drawn) g :=
    fun drawn => foldl_congr_same (fun g _ _ hc => drawPort_congr hc hl clusters parent drawn g)
      (h.network.parts (by decide))
  have hsignals : ∀ drawn g,
      (m.network.childrenNamed "signal").foldl (drawSignal cfg clusters parent drawn) g =
        (m'.network.childrenNamed "signal").foldl (drawSignal cfg clusters parent drawn) g :=
    fun drawn => foldl_congr_same (fun g _ _ hc => drawSignal_congr hc hl clusters parent drawn g)
      (h.network.parts (by decide))
  rw [drawRest, drawRest, h.drawnProcesses_eq, hleaves, hports, hsignals]

/-- The composites and all inside of them are drawn in the same way. -/
theorem drawComposites_congr {e e' : Expansion} (h : e.Same e') (clusters : Clusters)
    (parent : Identity) (level : Nat) (g : Graph) :
    drawComposites cfg clusters parent level e g = drawComposites cfg clusters parent level e' g := by
  induction h generalizing clusters parent level g with
  | done => rfl
  | box hsite _ ih => rw [drawComposites, drawComposites, drawBox_congr hsite hl, ih]
  | @expand site site' network network' inner inner' rest rest' hsite hn hi _ ihi ihr =>
    -- the frame shows the label of the composite, which looks at its element alone
    have hlabel : cfg.labels.composite.evaluate site = cfg.labels.composite.evaluate site' :=
      Spec.evaluate_congr (hl .composite) hsite
    have hm : Model.Same ⟨network, inner⟩ ⟨network', inner'⟩ := ⟨hn, hi⟩
    rw [drawComposites, drawComposites, hsite.identityAt_eq, hlabel]
    dsimp only
    rw [ihi, drawRest_congr hl hm, ihr]

end

/-- Models with the same parts have the same graph. -/
theorem drawModel_congr (hl : InwardLabels s.config) {m m' : Model} (h : m.Same m') :
    drawModel s m = drawModel s m' := by
  rw [drawModel, drawModel]
  dsimp only
  rw [drawNetwork, drawNetwork]
  dsimp only
  rw [drawComposites_congr hl h.composites, drawRest_congr hl h]

/-- **Parts in another order.**  If all that is read for one model and for the other differs only in
how the composites, leaves, ports and signals of networks stand among each other, and all labels
are inward, then both are compiled to one and the same graph, or they fail at the same document
with the same fault. -/
theorem interleaving_of_compile (hsources : ∀ path, Reinterleaved (source path) (source' path))
    (hlabels : InwardLabels s.config) : compile source s = compile source' s :=
  (rel_load hsources).map_eq fun _ _ hm => drawModel_congr hlabels hm

/-- The small model with its parts in another order: the signal before the process that it comes
from, the port before the process that it is bound to, and the leaf before the composite. -/
def shuffledSource : Source
  | ⟨"top.xml"⟩ => .ok ("<process_network><signal source=\"X\" source_port=\"o\" target=\"P\"/>"
      ++ "<composite_process name=\"X\" component_name=\"x\"/></process_network>")
  | ⟨"./x.xml"⟩ => .ok ("<process_network><port name=\"o\" bound_process=\"B\"/>"
      ++ "<leaf_process name=\"L\"/><composite_process name=\"B\"/></process_network>")
  | path => sampleSource path

/-- The default labels look at their elements alone, so the order of the parts makes no difference.
-/
theorem interleaving_of_compile_shuffled :
    (∀ path, Reinterleaved (sampleSource path) (shuffledSource path)) ∧
      InwardLabels sampleSettings.config ∧
      compile sampleSource sampleSettings = compile shuffledSource sampleSettings ∧
      ∃ g, (compile shuffledSource sampleSettings).outcome = .ok g := by
  have hsources : ∀ path, Reinterleaved (sampleSource path) (shuffledSource path) := by
    intro path
    rw [shuffledSource.eq_def]
    split
    · exact reinterleaved_of_networks (by decide +kernel)
    · exact reinterleaved_of_networks (by decide +kernel)
    · exact .refl _
  have hlabels : InwardLabels sampleSettings.config := by
    intro kind
    cases kind <;> decide +kernel
  have heq := @interleaving_of_compile sampleSource shuffledSource sampleSettings hsources hlabels
  exact ⟨hsources, hlabels, heq, heq ▸ compile_ok_iff.mpr sample_visits.1⟩

end NetPlot.Network
