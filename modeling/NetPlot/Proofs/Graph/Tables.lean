/-
  Graphs as tables that refer to each other.

  1. **Program** — `Tables` keep for each region its parent, its children, the names of its nodes
     and the numbers of its edges, next to a map of nodes and a list of edges.  Every operation
     changes each table that it concerns.  `walk?` goes through the regions and `write?` through
     all that they hold, by look-ups alone; a look-up that finds nothing ends them without a result.

  2. **Agreement** — a graph has tables (`Graph.tables`): what its regions hold, read off its
     lists.  The operations on tables do to them what those on graphs do to graphs
     (`tables_addRegion`, `tables_addNode`, `tables_addEdge`, `tables_run`).

  3. **Links** — the tables of a sound graph refer to each other as they should (`Linked`), and a
     walk through them finds everything that it looks for (`walk?_tables`, `write?_tables`).
-/
import NetPlot.Proofs.Answer
import NetPlot.Proofs.Dot.Picture
import Mathlib.Data.List.Nodup

namespace NetPlot.Graph

open NetPlot.Answer

/-! ## Tables

The numbers and names in the tables are references: nothing in the data keeps them from pointing
nowhere.  `Linked` says that none does. -/

/-- A region with all that it holds, by number or by name. -/
structure Entry where
  name : String
  attributes : Attributes
  parent : Option RegionId
  children : List RegionId := []
  nodes : List String := []
  edges : List Nat := []
  deriving DecidableEq

/-- The tables of a graph. -/
structure Tables where
  strict : Bool
  regions : List Entry
  /-- All nodes by name. -/
  nodes : List (String × Node)
  /-- Tail, head and attributes. -/
  edges : List (String × String × Attributes)
  deriving DecidableEq

namespace Tables

/-- Nothing but a root. -/
def new (name : String) (strict : Bool) (a : Attributes) : Tables :=
  ⟨strict, [{ name, attributes := a, parent := none }], [], []⟩

variable (t : Tables)

/-- The names in the map of nodes. -/
def keys : List String := t.nodes.map (·.1)

/-- Changes the entry of one region. -/
def change (r : RegionId) (f : Entry → Entry) : Tables :=
  { t with regions := t.regions.modify r f }

/-- Opens a region and lists it in its parent. -/
def addRegion (parent : RegionId) (name : String) (a : Attributes) : Tables :=
  let new : Entry := { name, attributes := a, parent := some parent }
  change { t with regions := t.regions ++ [new] } parent fun x =>
    { x with children := x.children ++ [t.regions.length] }

/-- Merges attributes into the node of a name, or else adds a node and lists it in its region. -/
def addNode (region : RegionId) (name : String) (a : Attributes) : Tables :=
  if name ∈ t.keys then
    { t with nodes := t.nodes.map fun (k, n) =>
        (k, if k = name then { n with attributes := n.attributes.merge a } else n) }
  else
    { t.change region fun x => { x with nodes := x.nodes ++ [name] } with
      nodes := t.nodes ++ [(name, ⟨name, a, region⟩)] }

/-- Adds a node for an end of an edge, if there is none. -/
def addEnd (region : RegionId) (name : String) : Tables :=
  if name ∈ t.keys then t else t.addNode region name ∅

/-- Adds the missing ends of an edge, and the edge with its number in its region. -/
def addEdge (region : RegionId) (tail head : String) (a : Attributes) : Tables :=
  let t := (t.addEnd region tail).addEnd region head
  { t.change region fun x => { x with edges := x.edges ++ [t.edges.length] } with
    edges := t.edges ++ [(tail, head, a)] }

/-- Tables after one step. -/
def apply : Step → Tables
  | .region parent name a => t.addRegion parent name a
  | .node n => t.addNode n.region n.name n.attributes
  | .edge e => t.addEdge e.region e.tail e.head e.attributes

/-- Tables after steps, one after the other. -/
def run (steps : List Step) : Tables := steps.foldl apply t

/-- The regions that a walk down from region `r` comes through, if it ends within `n` levels. -/
def walk? : Nat → RegionId → Option (List RegionId)
  | 0, _ => none
  | n + 1, r => do
    let x ← t.regions[r]?
    let below ← x.children.mapM (walk? n)
    some (r :: below.flatten)

/-- The block of region `r`, if a walk down from it ends within `n` levels and all that its
entries refer to is there. -/
def write? : Nat → RegionId → Option Dot.Block
  | 0, _ => none
  | n + 1, r => do
    let x ← t.regions[r]?
    let nodes ← x.nodes.mapM fun k => (t.nodes.lookup k).map fun n => (k, n.attributes)
    let blocks ← x.children.mapM (write? n)
    let edges ← x.edges.mapM fun i => t.edges[i]?
    some ⟨x.name, x.attributes, nodes, blocks, edges⟩

/-- All references between the tables are as they should be. -/
structure Linked : Prop where
  /-- The root is in no region. -/
  root : ∃ x, t.regions[0]? = some x ∧ x.parent = none
  /-- Any other region is in an earlier one, which lists it once. -/
  parent : ∀ (i : Nat) (x : Entry), t.regions[i]? = some x → i ≠ 0 →
    ∃ (p : Nat) (y : Entry), x.parent = some p ∧ p < i ∧ t.regions[p]? = some y ∧
      y.children.count i = 1
  /-- A region lists none but those that are in it. -/
  children : ∀ (p : Nat) (y : Entry), t.regions[p]? = some y → ∀ i ∈ y.children,
    ∃ x, t.regions[i]? = some x ∧ x.parent = some p
  /-- Each list of children ascends. -/
  ascending : ∀ x ∈ t.regions, x.children.Pairwise (· < ·)
  /-- Nodes are in the map under their names. -/
  named : ∀ e ∈ t.nodes, e.1 = e.2.name
  keys : t.keys.Nodup
  /-- The nodes of all regions, one after the other, are those of the map. -/
  nodes : (t.regions.flatMap (·.nodes)).Perm t.keys
  /-- A node is listed in its own region. -/
  own : ∀ e ∈ t.nodes, ∃ x, t.regions[e.2.region]? = some x ∧ e.1 ∈ x.nodes
  /-- The edges of all regions, one after the other, are all there are. -/
  edges : (t.regions.flatMap (·.edges)).Perm (List.range t.edges.length)
  /-- Edges lead from node to node. -/
  ends : ∀ e ∈ t.edges, e.1 ∈ t.keys ∧ e.2.1 ∈ t.keys

end Tables

/-- A region with all that a graph has in it. -/
def entry (g : Graph) (r : RegionId) (x : Region) : Entry :=
  ⟨x.name, x.attributes, x.parent, g.children r, (g.nodesIn r).map (·.name), g.edgeIdsIn r⟩

/-- The tables of a graph. -/
def tables (g : Graph) : Tables where
  strict := g.strict
  regions := g.regions.mapIdx g.entry
  nodes := g.nodes.map fun n => (n.name, n)
  edges := g.edges.map fun e => (e.tail, e.head, e.attributes)

/-! ## Agreement

One lemma for each operation.  An operation changes one entry and perhaps adds one; on graphs the
same change is seen when the entries are read off again, since no other region has the thing that is
new.  Soundness of the graph is what makes the new number larger than all others. -/

/-- What is in a list is changed in its place, whatever comes after the list. -/
theorem modify_append {α : Type} (f : α → α) {as : List α} {i : Nat} (h : i < as.length)
    (bs : List α) : (as ++ bs).modify i f = as.modify i f ++ bs := by
  induction as generalizing i with
  | nil => exact absurd h (Nat.not_lt_zero i)
  | cons a as ih =>
    cases i with
    | zero => rfl
    | succ i =>
      rw [List.cons_append, List.modify_succ_cons, List.modify_succ_cons,
        ih (Nat.lt_of_succ_lt_succ h), List.cons_append]

/-- Where names differ, a mention of one of them merges attributes into its node. -/
theorem mention_eq_map {region : RegionId} {name : String} {a : Attributes} {ns : List Node}
    (h : (ns.map (·.name)).Nodup) (hm : name ∈ ns.map (·.name)) :
    mention region name a ns = ns.map fun n =>
      if n.name = name then { n with attributes := n.attributes.merge a } else n := by
  induction ns with
  | nil => exact absurd hm List.not_mem_nil
  | cons n ns ih =>
    rw [List.map_cons, List.nodup_cons] at h
    rw [List.map_cons, List.mem_cons] at hm
    rw [mention, List.map_cons]
    by_cases hn : n.name = name
    · -- no other node has this name
      have hrest : ∀ k ∈ ns, k.name ≠ name := fun k hk e =>
        h.1 (hn.trans e.symm ▸ List.mem_map_of_mem hk)
      rw [if_pos hn, if_pos hn]
      congr 1
      refine (List.map_id' ns).symm.trans (List.map_congr_left fun k hk => ?_)
      exact (if_neg (hrest k hk)).symm
    · rw [if_neg hn, if_neg hn, ih h.2 (hm.resolve_left (Ne.symm hn))]

section Agreement

variable {g : Graph} {region : RegionId}

theorem keys_tables (g : Graph) : g.tables.keys = g.nodes.map (·.name) := by
  simp [tables, Tables.keys]

theorem length_regions_tables (g : Graph) : g.tables.regions.length = g.nextRegion :=
  List.length_mapIdx

theorem getElem?_regions_tables (g : Graph) (r : RegionId) :
    g.tables.regions[r]? = (g.region? r).map (g.entry r) :=
  List.getElem?_mapIdx

/-- A change of one entry, in the tables of a graph. -/
theorem modify_regions_tables {f : Entry → Entry} {k : RegionId → Region → Entry}
    (h : ∀ r x, k r x = if region = r then f (g.entry r x) else g.entry r x) :
    g.tables.regions.modify region f = g.regions.mapIdx k := by
  refine List.ext_getElem? fun r => ?_
  rw [List.getElem?_modify, getElem?_regions_tables, List.getElem?_mapIdx, funext (h r)]
  exact Option.map_map _ _ _

/-- A region that is opened is the last child of its parent, and a child of no other region. -/
theorem children_addRegion {parent : RegionId} (hp : parent < g.nextRegion) (name : String)
    (a : Attributes) (r : RegionId) :
    (g.addRegion parent name a).children r =
      g.children r ++ if parent = r then [g.nextRegion] else [] := by
  -- the regions before the new one are those that were there
  have hold : ∀ i ∈ List.range g.nextRegion,
      (g.addRegion parent name a).region? i = g.region? i := fun i hi =>
    List.getElem?_append_left (List.mem_range.mp hi)
  have hlen : (g.addRegion parent name a).regions.length = g.nextRegion + 1 :=
    nextRegion_addRegion g parent name a
  rw [children, hlen, List.range_succ, List.filter_append]
  congr 1
  · exact List.filter_congr fun i hi => by rw [hold i hi]
  · -- the new region is in `parent`, and has the largest number
    have hnew := region?_addRegion g parent name a
    by_cases h : parent = r
    · subst h
      simp [hnew, hp]
    · simp [hnew, h]

/-- Nothing is in a region that is not there yet. -/
theorem Sound.entry_nextRegion (h : g.Sound) (x : Region) :
    g.entry g.nextRegion x = ⟨x.name, x.attributes, x.parent, [], [], []⟩ := by
  -- all parents, nodes and edges refer to regions that are there
  have hc : g.children g.nextRegion = [] :=
    List.filter_eq_nil_iff.mpr fun i hi => by
      have hi : ¬ g.nextRegion < i := Nat.not_lt.mpr (Nat.le_of_lt (List.mem_range.mp hi))
      simp [hi]
  have hn : g.nodesIn g.nextRegion = [] :=
    List.filter_eq_nil_iff.mpr fun n hn => by simpa using Nat.ne_of_lt (h.nodes n hn)
  have he : g.edgeIdsIn g.nextRegion = [] := by
    rw [edgeIdsIn, List.map_eq_nil_iff, List.filter_eq_nil_iff]
    intro ⟨e, i⟩ hm
    have hm : e ∈ g.edges := List.mem_of_getElem? (List.mem_zipIdx_iff_getElem?.mp hm)
    simpa using Nat.ne_of_lt (h.edges e hm)
  rw [entry, hc, hn, he]
  rfl

/-- Opening a region lists it in its parent. -/
theorem tables_addRegion (h : g.Sound) {parent : RegionId} (hp : parent < g.nextRegion)
    (name : String) (a : Attributes) :
    (g.addRegion parent name a).tables = g.tables.addRegion parent name a := by
  -- the parent has one more child, and every other entry stays
  have hentry : ∀ r x, (g.addRegion parent name a).entry r x =
      if parent = r then
        { g.entry r x with children := g.children r ++ [g.tables.regions.length] }
      else g.entry r x := by
    intro r x
    rw [entry, children_addRegion hp, length_regions_tables]
    split
    · rfl
    · rw [List.append_nil]
      rfl
  have hnew : (g.addRegion parent name a).entry g.nextRegion ⟨name, a, some parent⟩ =
      { name, attributes := a, parent := some parent } := by
    rw [hentry, if_neg (Nat.ne_of_lt hp), h.entry_nextRegion]
  have hregions : (g.addRegion parent name a).regions.mapIdx (g.addRegion parent name a).entry =
      (g.tables.addRegion parent name a).regions := by
    have hl : parent < g.tables.regions.length := by rwa [length_regions_tables]
    refine (List.mapIdx_concat (l := g.regions)).trans ?_
    rw [← modify_regions_tables (f := fun x =>
      { x with children := x.children ++ [g.tables.regions.length] }) hentry]
    refine (congrArg (_ ++ [·]) hnew).trans (modify_append _ hl _).symm
  rw [tables, hregions]
  rfl

/-- A node whose name is there keeps its region; any other is listed in the region where it is
added. -/
theorem tables_addNode (h : g.Sound) (region : RegionId) (name : String) (a : Attributes) :
    (g.addNode region name a).tables = g.tables.addNode region name a := by
  rw [Tables.addNode, keys_tables]
  split
  next hm =>
    have hnodes : (g.addNode region name a).nodes = _ := mention_eq_map h.names hm
    -- every node has the name and the region that it had
    have hentry : (g.addNode region name a).entry = g.entry := by
      funext r x
      have hn : ((g.addNode region name a).nodesIn r).map (·.name) =
          (g.nodesIn r).map (·.name) := by
        rw [nodesIn, hnodes, List.filter_map, List.map_map, nodesIn]
        have hf : ∀ n : Node, (if n.name = name then
            { n with attributes := n.attributes.merge a } else n).region = n.region := by
          intro n
          split <;> rfl
        have hg : ∀ n : Node, (if n.name = name then
            { n with attributes := n.attributes.merge a } else n).name = n.name := by
          intro n
          split <;> rfl
        simp only [Function.comp_def, hf, hg]
      rw [entry, hn]
      rfl
    rw [tables, hentry, hnodes, List.map_map]
    simp only [tables, List.map_map]
    congr 1
    refine List.map_congr_left fun n _ => ?_
    simp only [Function.comp_apply]
    split <;> simp [*]
  next hm =>
    have hnodes : (g.addNode region name a).nodes = g.nodes ++ [⟨name, a, region⟩] :=
      mention_of_not_mem (m := ⟨name, a, region⟩) hm
    have hentry : ∀ r x, (g.addNode region name a).entry r x =
        if region = r then { g.entry r x with nodes := (g.entry r x).nodes ++ [name] }
        else g.entry r x := by
      intro r x
      have hn : ((g.addNode region name a).nodesIn r).map (·.name) =
          (g.nodesIn r).map (·.name) ++ if region = r then [name] else [] := by
        rw [nodesIn, hnodes, List.filter_append, List.map_append]
        by_cases hr : region = r <;> simp [hr, nodesIn]
      rw [entry, hn]
      split
      · rfl
      · rw [List.append_nil]
        rfl
    rw [tables, hnodes, List.map_append, Tables.change,
      modify_regions_tables (f := fun x => { x with nodes := x.nodes ++ [name] }) hentry]
    rfl

/-- An end of an edge that is there already stays as it is. -/
theorem tables_addEnd (h : g.Sound) (region : RegionId) (name : String) :
    (g.addNode region name ∅).tables = g.tables.addEnd region name := by
  rw [Tables.addEnd, keys_tables]
  split
  next hm =>
    rw [addNode, mention_of_mem (m := ⟨name, ∅, region⟩) hm rfl]
  next hm => exact tables_addNode h region name ∅

/-- Both ends are added where they are missing, and then the edge with its number. -/
theorem tables_addEdge (h : g.Sound) (hr : region < g.nextRegion) (tail head : String)
    (a : Attributes) :
    (g.addEdge region tail head a).tables = g.tables.addEdge region tail head a := by
  have hends : ((g.addNode region tail ∅).addNode region head ∅).tables =
      (g.tables.addEnd region tail).addEnd region head := by
    rw [tables_addEnd (h.addNode hr tail ∅), tables_addEnd h]
  rw [Tables.addEdge, ← hends, addEdge]
  -- how the ends came in does not matter for listing the edge
  generalize (g.addNode region tail ∅).addNode region head ∅ = k
  have hentry : ∀ r x, entry { k with edges := k.edges ++ [⟨tail, head, a, region⟩] } r x =
      if region = r then
        { k.entry r x with edges := (k.entry r x).edges ++ [k.tables.edges.length] }
      else k.entry r x := by
    intro r x
    have he : edgeIdsIn { k with edges := k.edges ++ [⟨tail, head, a, region⟩] } r =
        k.edgeIdsIn r ++ if region = r then [k.tables.edges.length] else [] := by
      have hl : k.tables.edges.length = k.edges.length := List.length_map _
      rw [edgeIdsIn, List.zipIdx_append, List.filter_append, List.map_append, hl]
      by_cases hr : region = r <;> simp [hr, edgeIdsIn]
    rw [entry, he]
    split
    · rfl
    · rw [List.append_nil]
      rfl
  rw [tables, List.map_append, Tables.change,
    modify_regions_tables
      (f := fun x => { x with edges := x.edges ++ [k.tables.edges.length] }) hentry]
  rfl

/-- One step does to the tables of a graph what it does to the graph. -/
theorem tables_apply (h : g.Sound) {s : Step} (hs : s.place < g.nextRegion) :
    (g.apply s).tables = g.tables.apply s := by
  cases s with
  | region parent name a => exact tables_addRegion h hs name a
  | node n => exact tables_addNode h n.region n.name n.attributes
  | edge e => exact tables_addEdge h hs e.tail e.head e.attributes

/-- Steps do to the tables of a graph what they do to the graph. -/
theorem tables_run (h : g.Sound) {ss : List Step} (hv : Valid g.nextRegion ss) :
    (g.run ss).tables = g.tables.run ss := by
  induction ss generalizing g with
  | nil => rfl
  | cons s ss ih =>
    have hv' : Valid (g.apply s).nextRegion ss := by
      rw [nextRegion_apply]
      exact hv.2
    rw [run_cons, ih (h.apply hv.1) hv', tables_apply h hv.1]
    rfl

end Agreement

/-! ## Links

Each reference is one that was read off the graph, so it leads to what it was read off. -/

namespace Sound

variable {g : Graph}

/-- Reading off all regions of the tables what does not depend on what they are. -/
theorem map_regions_tables {β : Type} {f : Entry → β} {k : RegionId → β}
    (h : ∀ r x, f (g.entry r x) = k r) :
    g.tables.regions.map f = (List.range g.nextRegion).map k := by
  refine List.ext_getElem? fun r => ?_
  rw [List.getElem?_map, getElem?_regions_tables, List.getElem?_map]
  -- number by number; past the last region both lists have ended
  by_cases hr : r < g.nextRegion
  · have hx : g.region? r = some g.regions[r] := List.getElem?_eq_getElem hr
    rw [hx, List.getElem?_range hr]
    exact congrArg some (h r _)
  · have hx : g.region? r = none := List.getElem?_eq_none (Nat.not_lt.mp hr)
    have hn : (List.range g.nextRegion)[r]? = none := List.getElem?_eq_none (by simpa using hr)
    rw [hx, hn]
    rfl

/-- The tables of a sound graph are linked, field by field of what that means. -/
theorem linked (h : g.Sound) : g.tables.Linked where
  root := by
    refine ⟨g.entry 0 g.root, ?_, h.root⟩
    rw [getElem?_regions_tables]
    rfl
  parent i x hx hi := by
    rw [getElem?_regions_tables, Option.map_eq_some_iff] at hx
    obtain ⟨z, hz, rfl⟩ := hx
    obtain ⟨p, hp, hlt⟩ := h.parent hz hi
    have hl : p < g.nextRegion := Nat.lt_trans hlt (List.getElem?_eq_some_iff.mp hz).1
    have hy : g.region? p = some g.regions[p] := List.getElem?_eq_getElem hl
    refine ⟨p, g.entry p g.regions[p], hp, hlt, by rw [getElem?_regions_tables, hy]; rfl, ?_⟩
    exact List.count_eq_one_of_mem (List.nodup_range.filter _)
      (mem_children_iff.mpr ⟨hlt, z, hz, hp⟩)
  children p y hy i hi := by
    rw [getElem?_regions_tables, Option.map_eq_some_iff] at hy
    obtain ⟨z, hz, rfl⟩ := hy
    obtain ⟨-, x, hx, hp⟩ := mem_children_iff.mp hi
    exact ⟨g.entry i x, by rw [getElem?_regions_tables, hx]; rfl, hp⟩
  ascending x hx := by
    obtain ⟨r, hr, rfl⟩ := List.mem_mapIdx.mp hx
    exact List.pairwise_lt_range.filter _
  named e he := by
    obtain ⟨n, -, rfl⟩ := List.mem_map.mp he
    rfl
  keys := by
    rw [keys_tables]
    exact h.names
  nodes := by
    -- every node is in exactly one of the regions, so together they have them all
    have hall := (flatMap_filter_perm Node.region g.nodes g.nextRegion).map (·.name)
    rw [List.filter_eq_self.mpr fun n hn => decide_eq_true (h.nodes n hn), List.map_flatMap] at hall
    rw [List.flatMap_def, map_regions_tables (f := Entry.nodes) fun _ _ => rfl, keys_tables]
    exact hall
  own e he := by
    obtain ⟨n, hn, rfl⟩ := List.mem_map.mp he
    have hr : n.region < g.nextRegion := h.nodes n hn
    have hx : g.region? n.region = some g.regions[n.region] := List.getElem?_eq_getElem hr
    refine ⟨g.entry n.region _, by rw [getElem?_regions_tables, hx]; rfl, ?_⟩
    exact List.mem_map_of_mem (List.mem_filter.mpr ⟨hn, beq_self_eq_true _⟩)
  edges := by
    have hmem : ∀ x ∈ g.edges.zipIdx, x.1.region < g.nextRegion := fun x hx =>
      h.edges x.1 (List.mem_of_getElem? (List.mem_zipIdx_iff_getElem?.mp hx))
    have hall := (flatMap_filter_perm (fun x : Edge × Nat => x.1.region) g.edges.zipIdx
      g.nextRegion).map (·.2)
    rw [List.filter_eq_self.mpr fun x hx => decide_eq_true (hmem x hx), List.map_flatMap,
      List.zipIdx_map_snd, ← List.range_eq_range'] at hall
    rw [List.flatMap_def, map_regions_tables (f := Entry.edges) fun _ _ => rfl]
    have hl : g.tables.edges.length = g.edges.length := List.length_map _
    rw [hl]
    exact hall
  ends e he := by
    obtain ⟨e, hm, rfl⟩ := List.mem_map.mp he
    rw [keys_tables]
    exact h.ends e hm

/-! ## Walks

A walk goes from a region to its children, which have larger numbers.  There are only so many
numbers, so as many levels are always enough. -/

variable {n : Nat} {r : RegionId}

/-- A walk that goes on in a child has enough levels left. -/
theorem le_add_of_mem_children {i : RegionId} (hi : i ∈ g.children r)
    (hn : g.nextRegion ≤ n + 1 + r) : g.nextRegion ≤ n + i := by
  refine Nat.le_trans hn ?_
  rw [Nat.add_assoc, Nat.add_comm 1 r]
  exact Nat.add_le_add_left (lt_of_mem_children hi).1 n

/-- A walk down the tables comes through the regions inside of the one where it starts. -/
theorem walk?_tables (hr : r < g.nextRegion) (hn : g.nextRegion ≤ n + r) :
    g.tables.walk? n r = some (g.inside r) := by
  -- numbers grow on the way down, so the levels that are left never run out
  induction n generalizing r with
  | zero => exact absurd (Nat.lt_of_lt_of_le hr hn) (by simp)
  | succ n ih =>
    have hx : g.region? r = some g.regions[r] := List.getElem?_eq_getElem hr
    have hc : (g.children r).mapM (g.tables.walk? n) = some ((g.children r).map g.inside) :=
      mapM_eq_some fun i hi => by
        exact ih (lt_of_mem_children hi).2 (le_add_of_mem_children hi hn)
    rw [Tables.walk?, getElem?_regions_tables, hx, inside_eq, List.flatMap_def]
    exact congrArg (Option.bind · _) hc

/-- Where names differ, the map of nodes finds each node by its name. -/
theorem lookup_name {ns : List Node} (h : (ns.map (·.name)).Nodup) {m : Node} (hm : m ∈ ns) :
    (ns.map fun n => (n.name, n)).lookup m.name = some m := by
  induction ns with
  | nil => exact absurd hm List.not_mem_nil
  | cons n ns ih =>
    rw [List.map_cons, List.nodup_cons] at h
    rw [List.map_cons]
    rcases List.mem_cons.mp hm with rfl | hm
    · exact List.lookup_cons_self
    · have hne : m.name ≠ n.name := fun e => h.1 (e ▸ List.mem_map_of_mem hm)
      rw [List.lookup_cons, beq_false_of_ne hne]
      exact ih h.2 hm

/-- Writing from the tables finds all that it needs, and gives the block of the graph. -/
theorem write?_tables (h : g.Sound) (hr : r < g.nextRegion) (hn : g.nextRegion ≤ n + r) :
    g.tables.write? n r = some (g.block r) := by
  induction n generalizing r with
  | zero => exact absurd (Nat.lt_of_lt_of_le hr hn) (by simp)
  | succ n ih =>
    have hx : g.region? r = some g.regions[r] := List.getElem?_eq_getElem hr
    have hnodes : ((g.nodesIn r).map (·.name)).mapM (fun k =>
        (g.tables.nodes.lookup k).map fun n => (k, n.attributes)) =
          some ((g.nodesIn r).map fun n => (n.name, n.attributes)) := by
      rw [List.mapM_map]
      refine mapM_eq_some fun m hm => ?_
      have hl : g.tables.nodes.lookup m.name = some m :=
        lookup_name h.names (List.mem_of_mem_filter hm)
      rw [Function.comp_apply, hl, Option.map_some]
    have hblocks : (g.children r).mapM (g.tables.write? n) = some ((g.children r).map g.block) :=
      mapM_eq_some fun i hi =>
        ih (lt_of_mem_children hi).2 (le_add_of_mem_children hi hn)
    -- the numbers that a region lists are positions in the list of all edges
    have hedges : (g.edgeIdsIn r).mapM (fun i => g.tables.edges[i]?) =
        some ((g.edgesIn r).map fun e => (e.tail, e.head, e.attributes)) := by
      have hin : g.edgesIn r = (g.edges.zipIdx.filter fun x => x.1.region == r).map (·.1) := by
        rw [edgesIn, ← List.zipIdx_map_fst 0 g.edges, List.filter_map, List.zipIdx_map_fst]
        rfl
      rw [edgeIdsIn, hin, List.mapM_map, List.map_map]
      refine mapM_eq_some fun x hx => ?_
      have hx : g.edges[x.2]? = some x.1 :=
        List.mem_zipIdx_iff_getElem?.mp (List.mem_of_mem_filter hx)
      rw [Function.comp_apply, tables, List.getElem?_map, hx]
      rfl
    rw [Tables.write?, getElem?_regions_tables, hx, block_eq, hx]
    simp only [Option.map_some, Option.bind_eq_bind, Option.bind_some, entry, hnodes, hblocks,
      hedges, Option.getD_some]

end Sound

/-- In every graph that comes from an empty one by regions, nodes and edges in regions that are
there, all tables agree.  A walk down from the root comes through each region once.  The graph is
written from them with as many levels as there are regions, and nothing that is looked up is
missing. -/
theorem linked_run (name : String) (strict : Bool) (a : Attributes) {steps : List Step}
    (hv : Valid 1 steps) :
    let g := (new name strict a).run steps
    let t := (Tables.new name strict a).run steps
    t = g.tables ∧ t.Linked ∧
      ∃ walk, walk.Perm (List.range t.regions.length) ∧ ∀ n, t.regions.length ≤ n →
        t.walk? n rootId = some walk ∧
        (t.write? n rootId).map (Dot.render t.strict) = some g.toDot := by
  intro g t
  have h : g.Sound := (Sound.new name strict a).run hv
  have ht : t = g.tables := (tables_run (Sound.new name strict a) hv).symm
  have hroot : rootId < g.nextRegion := Nat.succ_pos _
  rw [ht, length_regions_tables]
  refine ⟨rfl, h.linked, g.inside rootId, h.inside_rootId_perm, fun n hn => ?_⟩
  exact ⟨Sound.walk?_tables hroot hn, by rw [h.write?_tables hroot hn]; rfl⟩

/-- Nested regions, an edge from a node to itself, and one whose tail gets its attributes later. -/
def sampleSteps : List Step :=
  [.region rootId "outer" ∅, .node ⟨"n", .ofGiven [("shape", "box")], 1⟩,
    .edge ⟨"n", "n", ∅, rootId⟩, .region 1 "inner" ∅, .edge ⟨"m", "n", ∅, 2⟩,
    .node ⟨"m", .ofGiven [("shape", "box")], rootId⟩]

/-- Read back, the tables are linked, and the walk finds all three regions. -/
theorem linked_run_sample :
    let t := (Tables.new "g" true ∅).run sampleSteps
    t.Linked ∧ t.regions.map (·.children) = [[1], [2], []] ∧
      t.regions.map (·.nodes) = [[], ["n"], ["m"]] ∧ t.regions.map (·.edges) = [[0], [], [1]] ∧
      t.walk? 3 rootId = some [0, 1, 2] := by
  have hv : Valid 1 sampleSteps := by decide
  exact ⟨(linked_run "g" true ∅ hv).2.1, by decide +kernel⟩

end NetPlot.Graph
