/-
  What holds of a graph after any number of changes in regions that are there.

  1. **Rules** — a step is made in one region (`Step.place`).  A list of steps is `Valid` if each
     of them is made in a region that was there from the start or has been opened before.

  2. **Invariant** — a graph is `Sound` if its regions are inside of earlier ones, its nodes and
     edges are in regions that are there, no two nodes have the same name, and every edge has its
     ends among the nodes.

  3. **Steps and runs** — each of the three changes keeps a graph sound (`Sound.addRegion`,
     `Sound.addNode`, `Sound.addEdge`), so valid steps do (`Sound.run`).
-/
import NetPlot.Proofs.Graph.Step

namespace NetPlot.Graph

/-! ## Rules -/

/-- The region that a step is made in. -/
def Step.place : Step → RegionId
  | region parent _ _ => parent
  | node n => n.region
  | edge e => e.region

/-- Every step is made in a region that is there, when there are `n` regions at first. -/
def Valid : Nat → List Step → Prop
  | _, [] => True
  | n, s :: ss => s.place < n ∧ Valid (n + s.regions.length) ss

instance decidableValid : (n : Nat) → (ss : List Step) → Decidable (Valid n ss)
  | _, [] => inferInstanceAs (Decidable True)
  | n, s :: ss =>
    have := decidableValid (n + s.regions.length) ss
    inferInstanceAs (Decidable (_ ∧ _))

/-! ## Invariant

The numbers do the work: a region is given the next number, so whatever it is put into has a smaller
one, and a walk upwards ends at the root. -/

/-- Regions are inside of earlier ones, everything else is in a region that is there, and edges
lead from node to node. -/
structure Sound (g : Graph) : Prop where
  root : g.root.parent = none
  parent : ∀ {i : Nat} {x : Region}, g.region? i = some x → i ≠ 0 →
    ∃ p : Nat, x.parent = some p ∧ p < i
  nodes : ∀ n ∈ g.nodes, n.region < g.nextRegion
  edges : ∀ e ∈ g.edges, e.region < g.nextRegion
  names : (g.nodes.map (·.name)).Nodup
  ends : ∀ e ∈ g.edges, e.tail ∈ g.nodes.map (·.name) ∧ e.head ∈ g.nodes.map (·.name)

/-- What holds of all nodes holds after one more mention, if it holds of a new node and stays when
attributes are merged. -/
theorem forall_mem_mention {P : Node → Prop} {region : RegionId} {name : String} {a : Attributes}
    {ns : List Node} (hns : ∀ n ∈ ns, P n) (hnew : P ⟨name, a, region⟩)
    (hmerge : ∀ n, P n → P { n with attributes := n.attributes.merge a }) :
    ∀ n ∈ mention region name a ns, P n := by
  induction ns with
  | nil =>
    intro n hn
    exact List.mem_singleton.mp hn ▸ hnew
  | cons k ns ih =>
    have hk := hns k List.mem_cons_self
    have hns := fun n hn => hns n (List.mem_cons_of_mem k hn)
    intro n hn
    -- the node is merged into where its name is met first, and put at the end otherwise
    rw [mention] at hn
    split at hn
    · rcases List.mem_cons.mp hn with rfl | hn
      · exact hmerge k hk
      · exact hns n hn
    · rcases List.mem_cons.mp hn with rfl | hn
      · exact hk
      · exact ih hns n hn

namespace Sound

/-! ## Steps

One lemma for each kind of change, from which the step lemma follows by its constructors. -/

/-- The root alone: nothing else is there to be out of place. -/
theorem new (name : String) (strict : Bool) (a : Attributes) : Sound (.new name strict a) where
  root := rfl
  parent := by
    intro i x hx hi
    have hl : i < 1 := (List.getElem?_eq_some_iff.mp hx).1
    omega
  nodes n hn := absurd hn List.not_mem_nil
  edges e he := absurd he List.not_mem_nil
  names := List.nodup_nil
  ends e he := absurd he List.not_mem_nil

variable {g : Graph} {region : RegionId}

/-- A region is opened inside of one that is there, so inside of an earlier one. -/
theorem addRegion (h : g.Sound) {parent : RegionId} (hp : parent < g.nextRegion) (name : String)
    (a : Attributes) : (g.addRegion parent name a).Sound where
  root := h.root
  parent := by
    intro i x hx hi
    have hx : (g.regions ++ [⟨name, a, some parent⟩])[i]? = some x := hx
    rw [List.getElem?_append] at hx
    split at hx
    · exact h.parent hx hi
    next hl =>
      -- the number of the new region is larger than that of any other
      obtain ⟨-, rfl⟩ := List.getElem?_eq_some_iff.mp hx
      rw [List.getElem_singleton]
      exact ⟨parent, rfl, Nat.lt_of_lt_of_le hp (Nat.not_lt.mp hl)⟩
  nodes n hn := by
    rw [nextRegion_addRegion]
    exact Nat.lt_succ_of_lt (h.nodes n hn)
  edges e he := by
    rw [nextRegion_addRegion]
    exact Nat.lt_succ_of_lt (h.edges e he)
  names := h.names
  ends := h.ends

/-- A node is put where it is first mentioned; a second one of the name is not made. -/
theorem addNode (h : g.Sound) (hr : region < g.nextRegion) (name : String) (a : Attributes) :
    (g.addNode region name a).Sound where
  root := h.root
  parent := h.parent
  nodes := forall_mem_mention h.nodes hr fun n hn => hn
  edges := h.edges
  names := names_mention_nodup (m := ⟨name, a, region⟩) h.names
  ends e he := by
    have hmem : ∀ x, x ∈ g.nodes.map (·.name) → x ∈ (g.addNode region name a).nodes.map (·.name) :=
      fun x hx => mem_names_mention (m := ⟨name, a, region⟩) |>.mpr (Or.inl hx)
    exact ⟨hmem _ (h.ends e he).1, hmem _ (h.ends e he).2⟩

/-- An edge brings in its ends first, so they are there. -/
theorem addEdge (h : g.Sound) (hr : region < g.nextRegion) (tail head : String) (a : Attributes) :
    (g.addEdge region tail head a).Sound := by
  have ht := h.addNode hr tail ∅
  have hh := ht.addNode hr head ∅
  refine ⟨hh.root, hh.parent, hh.nodes, fun e he => ?_, hh.names, fun e he => ?_⟩
  · rcases List.mem_append.mp he with he | he
    · exact hh.edges e he
    · exact List.mem_singleton.mp he ▸ hr
  · rcases List.mem_append.mp he with he | he
    · exact hh.ends e he
    · -- both ends of the new edge have just been mentioned
      obtain rfl := List.mem_singleton.mp he
      exact ⟨mem_names_mention (m := ⟨head, ∅, region⟩) |>.mpr (Or.inl
          (mem_names_mention (m := ⟨tail, ∅, region⟩) |>.mpr (Or.inr rfl))),
        mem_names_mention (m := ⟨head, ∅, region⟩) |>.mpr (Or.inr rfl)⟩

/-! ## Runs -/

/-- One step in a region that is there keeps the graph sound. -/
theorem apply (h : g.Sound) {s : Step} (hs : s.place < g.nextRegion) : (g.apply s).Sound := by
  cases s with
  | region parent name a => exact h.addRegion hs name a
  | node n => exact h.addNode hs n.name n.attributes
  | edge e => exact h.addEdge hs e.tail e.head e.attributes

end Sound

theorem nextRegion_apply (g : Graph) (s : Step) :
    (g.apply s).nextRegion = g.nextRegion + s.regions.length := by
  have h := nextRegion_run g [s]
  rwa [run_cons, run_nil, List.flatMap_singleton] at h

/-- Valid steps keep a graph sound. -/
theorem Sound.run {g : Graph} {ss : List Step} (h : g.Sound) (hv : Valid g.nextRegion ss) :
    (g.run ss).Sound := by
  induction ss generalizing g with
  | nil => exact h
  | cons s ss ih =>
    refine ih (h.apply hv.1) ?_
    rw [nextRegion_apply]
    exact hv.2

end NetPlot.Graph
