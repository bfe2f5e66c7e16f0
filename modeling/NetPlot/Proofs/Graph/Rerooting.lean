/-
  Graphs that differ in the root that their names begin with.

  1. **Names** — `Reroots r t` relates two names that begin with `r` and with `t` and go on in the
     same way, whatever `r` and `t` are.  Two names are equal on one side exactly if they are on
     the other (`Reroots.eq_iff`).

  2. **Steps** — a step reroots if the names in it do; merging by name makes the same choices on
     both sides (`mention_rerooted`).

  3. **Runs** — steps that reroot keep graphs `Rerooted` (`Rerooted.run`).
-/
import Mathlib.Data.List.Forall2
import NetPlot.Proofs.Graph.Step

namespace NetPlot.Graph

/-! ## Names

Only the part of a name behind the root is compared.  So equal names stay equal and different ones
different, which is all that merging by name looks at. -/

/-- The second name is the first one with `t` in place of `r` in front. -/
def Reroots (r t x x' : String) : Prop := ∃ y, x = r ++ y ∧ x' = t ++ y

namespace Reroots

variable {r t x x' y y' : String}

theorem refl (r t : String) : Reroots r t r t := ⟨"", by simp, by simp⟩

theorem append (h : Reroots r t x x') (z : String) : Reroots r t (x ++ z) (x' ++ z) := by
  obtain ⟨y, rfl, rfl⟩ := h
  exact ⟨y ++ z, String.append_assoc, String.append_assoc⟩

/-- The same text may come before both. -/
theorem behind (h : Reroots r t x x') (z : String) :
    Reroots (z ++ r) (z ++ t) (z ++ x) (z ++ x') := by
  obtain ⟨y, rfl, rfl⟩ := h
  exact ⟨y, String.append_assoc.symm, String.append_assoc.symm⟩

/-- Names are told apart by what comes after the root. -/
theorem eq_iff (hx : Reroots r t x x') (hy : Reroots r t y y') : x = y ↔ x' = y' := by
  obtain ⟨a, rfl, rfl⟩ := hx
  obtain ⟨b, rfl, rfl⟩ := hy
  rw [String.append_right_inj, String.append_right_inj]

end Reroots

/-- Two nodes that differ in the root of their names only. -/
structure Node.Rerooted (r t : String) (n n' : Node) : Prop where
  name : Reroots r t n.name n'.name
  attributes : n'.attributes = n.attributes
  region : n'.region = n.region

/-- Two edges that differ in the root of the names of their ends only. -/
structure Edge.Rerooted (r t : String) (e e' : Edge) : Prop where
  tail : Reroots r t e.tail e'.tail
  head : Reroots r t e.head e'.head
  attributes : e'.attributes = e.attributes
  region : e'.region = e.region

/-- Two clusters that differ in the root of their names only. -/
structure Region.Rerooted (r t : String) (x x' : Region) : Prop where
  name : Reroots ("cluster_" ++ r) ("cluster_" ++ t) x.name x'.name
  attributes : x'.attributes = x.attributes
  parent : x'.parent = x.parent

/-- Two graphs that differ in their root only: in the name of the graph, in the name and the label
of the frame of the root, and in what the other names begin with. -/
structure Rerooted (r t : String) (g g' : Graph) : Prop where
  strict : g'.strict = g.strict
  root : ∃ attributes, g.root = ⟨r, attributes, none⟩ ∧ g'.root = ⟨t, attributes, none⟩
  nested : ∃ entries frames frames', "label" ∉ Entries.keys entries ∧
    g.nested = ⟨"cluster_" ++ r, .ofGiven (("label", r) :: entries), some rootId⟩ :: frames ∧
    g'.nested = ⟨"cluster_" ++ t, .ofGiven (("label", t) :: entries), some rootId⟩ :: frames' ∧
    List.Forall₂ (Region.Rerooted r t) frames frames'
  nodes : List.Forall₂ (Node.Rerooted r t) g.nodes g'.nodes
  edges : List.Forall₂ (Edge.Rerooted r t) g.edges g'.edges

/-! ## Steps -/

/-- Two steps that differ in the root of the names in them only. -/
inductive Step.Rerooted (r t : String) : Step → Step → Prop where
  | region {parent : RegionId} {name name' : String} {attributes : Attributes}
      (h : Reroots ("cluster_" ++ r) ("cluster_" ++ t) name name') :
      Rerooted r t (.region parent name attributes) (.region parent name' attributes)
  | node {n n' : Node} (h : n.Rerooted r t n') : Rerooted r t (.node n) (.node n')
  | edge {e e' : Edge} (h : e.Rerooted r t e') : Rerooted r t (.edge e) (.edge e')

variable {r t : String}

/-- A mention finds its node on one side where it does on the other. -/
theorem mention_rerooted {m m' : Node} {ns ns' : List Node} (hm : m.Rerooted r t m')
    (h : List.Forall₂ (Node.Rerooted r t) ns ns') :
    List.Forall₂ (Node.Rerooted r t) (mention m.region m.name m.attributes ns)
      (mention m'.region m'.name m'.attributes ns') := by
  induction h with
  | nil => exact .cons ⟨hm.name, hm.attributes, hm.region⟩ .nil
  | @cons n n' ns ns' hn hns ih =>
    rw [mention, mention]
    by_cases he : n.name = m.name
    · rw [if_pos he, if_pos ((hn.name.eq_iff hm.name).mp he), hn.attributes, hm.attributes]
      exact .cons ⟨hn.name, rfl, hn.region⟩ hns
    · rw [if_neg he, if_neg (mt (hn.name.eq_iff hm.name).mpr he)]
      exact .cons hn ih

/-- A node is merged or added on both sides alike. -/
theorem Rerooted.addNode {g g' : Graph} {m m' : Node} (h : Rerooted r t g g')
    (hm : m.Rerooted r t m') :
    Rerooted r t (g.addNode m.region m.name m.attributes)
      (g'.addNode m'.region m'.name m'.attributes) :=
  { h with nodes := mention_rerooted hm h.nodes }

/-- A frame is put at the end on both sides. -/
theorem Rerooted.addRegion {g g' : Graph} {name name' : String} (h : Rerooted r t g g')
    (hname : Reroots ("cluster_" ++ r) ("cluster_" ++ t) name name') (parent : RegionId)
    (attributes : Attributes) :
    Rerooted r t (g.addRegion parent name attributes) (g'.addRegion parent name' attributes) := by
  obtain ⟨entries, frames, frames', hl, hn, hn', hf⟩ := h.nested
  have hf : List.Forall₂ (Region.Rerooted r t) (frames ++ [⟨name, attributes, some parent⟩])
      (frames' ++ [⟨name', attributes, some parent⟩]) :=
    List.rel_append hf (.cons ⟨hname, rfl, rfl⟩ .nil)
  exact { h with nested := ⟨entries, _, _, hl, congrArg (· ++ [_]) hn, congrArg (· ++ [_]) hn', hf⟩ }

/-- One step keeps graphs rerooted. -/
theorem Rerooted.apply {g g' : Graph} {a a' : Step} (h : Rerooted r t g g')
    (ha : a.Rerooted r t a') : Rerooted r t (g.apply a) (g'.apply a') := by
  cases ha with
  | region hname => exact h.addRegion hname _ _
  | node hm => exact h.addNode hm
  | @edge e e' he =>
    -- first the ends are mentioned, then the edge is put behind the others
    have htail : Node.Rerooted r t ⟨e.tail, ∅, e.region⟩ ⟨e'.tail, ∅, e'.region⟩ :=
      ⟨he.tail, rfl, he.region⟩
    have hhead : Node.Rerooted r t ⟨e.head, ∅, e.region⟩ ⟨e'.head, ∅, e'.region⟩ :=
      ⟨he.head, rfl, he.region⟩
    have hends := (h.addNode htail).addNode hhead
    exact { hends with edges := List.rel_append h.edges (.cons he .nil) }

/-- A run of steps keeps graphs rerooted. -/
theorem Rerooted.run {g g' : Graph} {as as' : List Step}
    (has : List.Forall₂ (Step.Rerooted r t) as as') (h : Rerooted r t g g') :
    Rerooted r t (g.run as) (g'.run as') := by
  induction has generalizing g g' with
  | nil => exact h
  | cons ha _ ih => exact ih (h.apply ha)

end NetPlot.Graph
