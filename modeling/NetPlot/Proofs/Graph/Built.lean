/-
  Graphs that are built, one change at a time.

  1. **Keys** — attributes are `Worded` if their keys are words of ASCII letters, digits and `_`.
     What is put together from worded attributes is worded.

  2. **Rules** — a graph is `Built` if it comes from an empty one by opening regions and adding
     nodes and edges, all in regions that are there, with worded attributes.

  3. **Shape** — a graph that is built is sound (`Built.sound`), and all of its attributes are
     worded.
-/
import NetPlot.Proofs.Graph.Sound

namespace NetPlot.Graph

/-! ## Keys -/

/-- A character of a key. -/
def isKeyChar (c : Char) : Bool := c.isAlphanum || c == '_'

/-- A word of ASCII letters, digits and `_`. -/
def IsWord (s : String) : Prop := s ≠ "" ∧ ∀ c ∈ s.toList, isKeyChar c = true

instance (s : String) : Decidable (IsWord s) :=
  decidable_of_iff (s ≠ "" ∧ s.toList.all isKeyChar = true) (by rw [List.all_eq_true, IsWord])

/-- All keys are words. -/
def Attributes.Worded (a : Attributes) : Prop := ∀ k ∈ Entries.keys a.entries, IsWord k

namespace Attributes.Worded

variable {a b : Attributes} {es : Entries}

theorem empty : (∅ : Attributes).Worded := fun _ hk => absurd hk List.not_mem_nil

theorem insert (ha : a.Worded) {k : String} (hk : IsWord k) (v : String) :
    (a.insert k v).Worded := by
  intro x hx
  have hx : x ∈ Entries.keys (Entries.insert k v a.entries) := hx
  rw [Entries.keys_insert] at hx
  split at hx
  · exact ha x hx
  · rcases List.mem_append.mp hx with hx | hx
    · exact ha x hx
    · exact List.mem_singleton.mp hx ▸ hk

theorem erase (ha : a.Worded) (k : String) : (a.erase k).Worded :=
  fun x hx => ha x ((List.filter_sublist.map _).subset hx)

/-- Changing attributes key by key, as long as the keys are words. -/
theorem foldl {f : Attributes → String × String → Attributes}
    (hf : ∀ {a : Attributes} {e : String × String}, a.Worded → IsWord e.1 → (f a e).Worded)
    (ha : a.Worded) (h : ∀ k ∈ Entries.keys es, IsWord k) : (es.foldl f a).Worded := by
  induction es generalizing a with
  | nil => exact ha
  | cons e es ih =>
    exact ih (hf ha (h _ List.mem_cons_self)) fun k hk => h k (List.mem_cons_of_mem _ hk)

theorem merge (ha : a.Worded) (hb : b.Worded) : (a.merge b).Worded :=
  foldl (fun ha hk => ha.insert hk _) ha hb

/-- Overriding with words for keys keeps all keys words: a key is put in or taken out. -/
theorem override (ha : a.Worded) (h : ∀ k ∈ Entries.keys es, IsWord k) :
    (a.override es).Worded := by
  refine foldl (fun {a e} ha hk => ?_) ha h
  obtain ⟨k, v⟩ := e
  show (if v = "" then a.erase k else a.insert k v).Worded
  split
  · exact ha.erase _
  · exact ha.insert hk _

theorem ofGiven (h : ∀ k ∈ Entries.keys es, IsWord k) : (ofGiven es).Worded :=
  foldl (fun ha hk => ha.insert hk _) empty fun k hk => h k ((List.filter_sublist.map _).subset hk)

end Attributes.Worded

/-! ## Rules

Whatever the input is, a compiler changes its graph by these four rules only.  So an invariant of the
rules is one of every graph that is compiled. -/

/-- Graphs that come from an empty one, each change being in a region that is there. -/
inductive Built : Graph → Prop where
  | new (name : String) (strict : Bool) {a : Attributes} (ha : a.Worded) :
      Built (.new name strict a)
  | region {g : Graph} (hg : Built g) {parent : RegionId} (hp : parent < g.nextRegion)
      (name : String) {a : Attributes} (ha : a.Worded) : Built (g.addRegion parent name a)
  | node {g : Graph} (hg : Built g) {region : RegionId} (hr : region < g.nextRegion)
      (name : String) {a : Attributes} (ha : a.Worded) : Built (g.addNode region name a)
  | edge {g : Graph} (hg : Built g) {region : RegionId} (hr : region < g.nextRegion)
      (tail head : String) {a : Attributes} (ha : a.Worded) :
      Built (g.addEdge region tail head a)

/-! ## Shape -/

namespace Built

variable {g : Graph}

/-- Attributes of regions are those they were opened with. -/
theorem regions_worded (h : Built g) : ∀ x ∈ g.regions, x.attributes.Worded := by
  induction h with
  | new name strict ha => exact fun x hx => List.mem_singleton.mp hx ▸ ha
  | @region g hg parent hp name a ha ih =>
    intro x hx
    have hx : x ∈ g.regions ++ [⟨name, a, some parent⟩] := hx
    rcases List.mem_append.mp hx with hx | hx
    · exact ih x hx
    · exact List.mem_singleton.mp hx ▸ ha
  | node _ _ _ _ ih => exact ih
  | edge _ _ _ _ _ ih => exact ih

/-- Attributes of nodes are put together from those of their mentions. -/
theorem nodes_worded (h : Built g) : ∀ n ∈ g.nodes, n.attributes.Worded := by
  induction h with
  | new => exact fun n hn => absurd hn List.not_mem_nil
  | region _ _ _ _ ih => exact ih
  | node _ _ _ ha ih => exact forall_mem_mention ih ha fun n hn => hn.merge ha
  | edge _ _ _ _ _ ih =>
    have hm : ∀ n : Node, n.attributes.Worded → (n.attributes.merge ∅).Worded := fun n hn =>
      hn.merge .empty
    exact forall_mem_mention (forall_mem_mention ih .empty hm) .empty hm

/-- Attributes of edges are those they were drawn with. -/
theorem edges_worded (h : Built g) : ∀ e ∈ g.edges, e.attributes.Worded := by
  induction h with
  | new => exact fun n hn => absurd hn List.not_mem_nil
  | region _ _ _ _ ih => exact ih
  | node _ _ _ _ ih => exact ih
  | edge _ _ _ _ ha ih =>
    intro e he
    rcases List.mem_append.mp he with he | he
    · exact ih e he
    · exact List.mem_singleton.mp he ▸ ha

/-- By induction on the rules: each of them keeps the graph sound, being used in a region that is
there. -/
theorem sound (h : Built g) : Sound g := by
  induction h with
  | new name strict _ => exact .new name strict _
  | region _ hp name _ ih => exact ih.addRegion hp name _
  | node _ hr name _ ih => exact ih.addNode hr name _
  | edge _ hr tail head _ ih => exact ih.addEdge hr tail head _

end Built

end NetPlot.Graph
