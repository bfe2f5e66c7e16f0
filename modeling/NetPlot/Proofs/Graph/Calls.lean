/-
  Graphs as what their history of calls asks for.

  1. **Attributes** — entries that are put in one after the other leave each key in its first place
     with its last value (`keys_ofEntries`, `get?_ofEntries`), and a merger of many attributes puts
     in all of their entries (`foldl_merge_eq`).

  2. **History** — the calls say which names are mentioned (`firstMentions`), which attributes are
     given to each of them (`given`), and which edges are drawn.

  3. **Nodes** — after any calls the nodes are the first mentions in order, each with all that was
     given to it (`nodes_run_new`).

  4. **Tables** — so all tables are settled by the calls (`records_run`).
-/
import NetPlot.Proofs.FirstSeen
import NetPlot.Proofs.Graph.History
import NetPlot.Proofs.Graph.Tables

namespace NetPlot.Graph

/-! ## Attributes

A map keeps a key in its first place with its last value.  Merging attributes one after the other is
therefore the same as putting all their entries in at once. -/

namespace Attributes

theorem ofEntries_concat (es : Entries) (k v : String) :
    ofEntries (es ++ [(k, v)]) = (ofEntries es).insert k v := by
  rw [ofEntries, List.foldl_append]
  rfl

/-- Every key stands where it came first. -/
theorem keys_ofEntries (es : Entries) :
    Entries.keys (ofEntries es).entries = (Entries.keys es).eraseDups := by
  -- from the last entry back, since whether its key is new depends on those before
  induction es using List.reverseRecOn with
  | nil => rfl
  | append_singleton es e ih =>
    obtain ⟨k, v⟩ := e
    have hkeys : Entries.keys (es ++ [(k, v)]) = Entries.keys es ++ [k] := List.map_append
    have hmem : k ∈ Entries.keys (ofEntries es).entries ↔ k ∈ Entries.keys es := by
      rw [ih, List.mem_eraseDups]
    rw [ofEntries_concat, hkeys]
    show Entries.keys (Entries.insert k v (ofEntries es).entries) = _
    rw [Entries.keys_insert]
    by_cases hk : k ∈ Entries.keys es
    · rw [if_pos (hmem.2 hk), FirstSeen.eraseDups_concat_of_mem hk, ih]
    · rw [if_neg (mt hmem.1 hk), FirstSeen.eraseDups_concat_of_not_mem hk, ih]

/-- Every key has the value that came last. -/
theorem get?_ofEntries (es : Entries) (k : String) :
    (ofEntries es).get? k = es.reverse.lookup k := by
  induction es using List.reverseRecOn with
  | nil => rfl
  | append_singleton es e ih =>
    obtain ⟨k', v⟩ := e
    rw [ofEntries_concat, List.reverse_append, List.reverse_singleton, List.singleton_append]
    by_cases hk : k = k'
    · rw [hk, get?_insert_self, List.lookup_cons_self]
    · rw [get?_insert_of_ne hk, List.lookup_cons, beq_false_of_ne hk, ih]

/-- Merging attributes one after the other puts in all of their entries. -/
theorem foldl_merge_eq (as : List Attributes) :
    as.foldl merge ∅ = ofEntries (as.flatMap (·.entries)) := by
  rw [ofEntries, List.foldl_flatMap]
  rfl

end Attributes

/-! ## History

Three readings of a list of calls, none of which knows of the graph that the calls make.  The
theorem below compares that graph with them. -/

/-- The first mention of each name, in order; an edge mentions its tail and then its head. -/
def firstMentions (steps : List Step) : List Node :=
  let ms := steps.flatMap Step.mentions
  (ms.map (·.name)).eraseDups.filterMap fun x => ms.find? (named x)

/-- The attributes that a step gives to the node of a name; an edge gives none to its ends. -/
def Step.given (x : String) : Step → List Attributes
  | node n => if n.name = x then [n.attributes] else []
  | _ => []

/-- The attributes that steps give to the node of a name, one after the other. -/
def given (x : String) (steps : List Step) : List Attributes := steps.flatMap (Step.given x)

/-! ## Nodes

The induction is from the last call back, since a node depends on whether its name has been
mentioned before. -/

/-- The nodes have the names of the mentions, each once and where it came first. -/
theorem names_mentionAll (ms : List Node) :
    (mentionAll [] ms).map (·.name) = (ms.map (·.name)).eraseDups := by
  -- along the calls from the last one back: only whether its name has been seen matters
  induction ms using List.reverseRecOn with
  | nil => rfl
  | append_singleton ms m ih =>
    have hmem : m.name ∈ (mentionAll [] ms).map (·.name) ↔ m.name ∈ ms.map (·.name) := by
      rw [mem_names_mentionAll, List.nil_append]
    rw [mentionAll_append, List.map_append, List.map_singleton]
    show (mention m.region m.name m.attributes (mentionAll [] ms)).map (·.name) = _
    by_cases hm : m.name ∈ ms.map (·.name)
    · -- merging leaves all names as they are
      rw [mention_eq_map (names_mentionAll_nil_nodup ms) (hmem.2 hm), List.map_map,
        FirstSeen.eraseDups_concat_of_mem hm, ← ih]
      refine List.map_congr_left fun n _ => ?_
      show (if n.name = m.name then _ else n).name = n.name
      split <;> rfl
    · rw [mention_of_not_mem (mt hmem.1 hm), List.map_append,
        FirstSeen.eraseDups_concat_of_not_mem hm, ih]
      rfl

/-- Only nodes that are added give attributes. -/
theorem foldl_merge_mentions (x : String) (steps : List Step) :
    (((steps.flatMap Step.mentions).filter (named x)).map (·.attributes)).foldl
        Attributes.merge ∅ =
      (given x steps).foldl Attributes.merge ∅ := by
  rw [Attributes.foldl_merge_filter, Attributes.foldl_merge_filter (given x steps)]
  -- empty attributes merge to nothing, so only the calls that give some are compared
  congr 1
  induction steps with
  | nil => rfl
  | cons s steps ih =>
    rw [given, List.flatMap_cons, List.flatMap_cons, List.filter_append, List.map_append,
      List.filter_append, List.filter_append, ih, given]
    congr 1
    cases s with
    | region parent name a => rfl
    | node n => by_cases hn : n.name = x <;> simp [Step.mentions, Step.given, hn]
    | edge e =>
      -- an edge mentions its ends and gives them no attributes
      rw [List.filter_eq_nil_iff.2 fun a ha => ?_]
      · rfl
      · obtain ⟨m, hm, rfl⟩ := List.mem_map.1 ha
        simp [Edge.attributes_of_mem_ends (List.mem_of_mem_filter hm)]

/-- The nodes are the first mentions, each with all that is given to it. -/
theorem nodes_run_new (name : String) (strict : Bool) (a : Attributes) (steps : List Step) :
    ((new name strict a).run steps).nodes = (firstMentions steps).map fun m =>
      { m with attributes := (given m.name steps).foldl Attributes.merge ∅ } := by
  rw [nodes_run]
  show mentionAll [] (steps.flatMap Step.mentions) = _
  rw [firstMentions, ← names_mentionAll, List.filterMap_map, List.map_filterMap]
  refine (List.filterMap_some ..).symm.trans (List.filterMap_congr fun n hn => ?_)
  have hfind := find?_named_of_mem (names_mentionAll_nil_nodup _) hn
  -- the first mention has the name and the region of the node
  have hregion := region_find?_mentionAll n.name [] (steps.flatMap Step.mentions)
  rw [hfind, List.nil_append] at hregion
  obtain ⟨m, hm, hmr⟩ := Option.map_eq_some_iff.1 hregion.symm
  have hname : m.name = n.name := named_iff.1 (List.find?_some hm)
  have hattributes := attributesIn_mentionAll n.name [] (steps.flatMap Step.mentions)
  rw [attributesIn, hfind] at hattributes
  have hgiven : n.attributes = (given n.name steps).foldl Attributes.merge ∅ :=
    hattributes.trans (foldl_merge_mentions n.name steps)
  rw [Function.comp_apply, hm, Option.map_some, hname, ← hgiven, hmr]

/-! ## Tables -/

/-- Tables of a graph with a name and attributes as a history of calls asks for them. -/
structure Tables.Records (t : Tables) (name : String) (a : Attributes) (steps : List Step) :
    Prop where
  /-- There is the root, and a region for each call that opens one. -/
  regions : t.regions.map (fun x => (x.name, x.attributes, x.parent)) =
    (name, a, none) ::
      (steps.flatMap Step.regions).map fun x => (x.name, x.attributes, x.parent)
  /-- The nodes are the first mentions, each with all attributes that it is given, merged. -/
  nodes : t.nodes = (firstMentions steps).map fun m =>
    (m.name, { m with attributes := (given m.name steps).foldl Attributes.merge ∅ })
  /-- A key that a node is given again keeps its first place, -/
  keys : ∀ e ∈ t.nodes, Entries.keys e.2.attributes.entries =
    (Entries.keys ((given e.1 steps).flatMap (·.entries))).eraseDups
  /-- and takes its last value. -/
  values : ∀ e ∈ t.nodes, ∀ k, e.2.attributes.get? k =
    ((given e.1 steps).flatMap (·.entries)).reverse.lookup k
  /-- The edges are those that are drawn, each with its own attributes. -/
  edges : t.edges = (steps.flatMap Step.edges).map fun e => (e.tail, e.head, e.attributes)
  /-- A region lists the nodes that are first mentioned in it, -/
  listedNodes : ∀ (r : RegionId) (x : Entry), t.regions[r]? = some x →
    x.nodes = ((firstMentions steps).filter (·.region == r)).map (·.name)
  /-- and the numbers of the edges that are drawn in it. -/
  listedEdges : ∀ (r : RegionId) (x : Entry), t.regions[r]? = some x →
    x.edges = ((steps.flatMap Step.edges).zipIdx.filter fun e => e.1.region == r).map (·.2)

/-- Each table of a run, read off the graph, is what the calls ask for. -/
theorem records_tables (name : String) (strict : Bool) (a : Attributes) (steps : List Step) :
    ((new name strict a).run steps).tables.Records name a steps := by
  have hnodes := nodes_run_new name strict a steps
  have hedges : ((new name strict a).run steps).edges = steps.flatMap Step.edges :=
    edges_run (new name strict a) steps
  -- a node has what all calls under its name have given, merged in their order
  have hmerged : ∀ e ∈ ((new name strict a).run steps).tables.nodes, e.2.attributes =
      Attributes.ofEntries ((given e.1 steps).flatMap (·.entries)) := by
    intro e he
    obtain ⟨n, hn, rfl⟩ := List.mem_map.1 he
    rw [hnodes] at hn
    obtain ⟨m, -, rfl⟩ := List.mem_map.1 hn
    exact Attributes.foldl_merge_eq _
  refine ⟨?_, ?_, ?_, ?_, ?_, ?_, ?_⟩
  -- one part for each table: regions, nodes with their keys and values, edges, members of a region
  · have hregions : ((new name strict a).run steps).regions =
        ⟨name, a, none⟩ :: steps.flatMap Step.regions := regions_run (new name strict a) steps
    rw [← List.map_cons (f := fun x : Region => (x.name, x.attributes, x.parent))
      (a := ⟨name, a, none⟩), ← hregions]
    refine List.ext_getElem? fun r => ?_
    rw [List.getElem?_map, getElem?_regions_tables, List.getElem?_map, Option.map_map]
    rfl
  · rw [tables, hnodes, List.map_map]
    rfl
  · intro e he
    rw [hmerged e he, Attributes.keys_ofEntries]
  · intro e he k
    rw [hmerged e he, Attributes.get?_ofEntries]
  · rw [tables, hedges]
  · intro r x hx
    rw [getElem?_regions_tables, Option.map_eq_some_iff] at hx
    obtain ⟨y, -, rfl⟩ := hx
    show (nodesIn _ r).map (·.name) = _
    rw [nodesIn, hnodes, List.filter_map, List.map_map]
    rfl
  · intro r x hx
    rw [getElem?_regions_tables, Option.map_eq_some_iff] at hx
    obtain ⟨y, -, rfl⟩ := hx
    show edgeIdsIn _ r = _
    rw [edgeIdsIn, hedges]

/-- An edge brings in the ends that are missing, and leaves all nodes that are there alone. -/
theorem Tables.nodes_isPrefix_addEdge (t : Tables) (region : RegionId) (tail head : String)
    (a : Attributes) : t.nodes <+: (t.addEdge region tail head a).nodes := by
  have hend : ∀ (t : Tables) (name : String), t.nodes <+: (t.addEnd region name).nodes := by
    intro t name
    rw [addEnd]
    split
    · exact List.prefix_rfl
    next hn =>
      rw [addNode, if_neg hn]
      exact List.prefix_append _ _
  exact (hend t tail).trans (hend _ head)

/-- **Calls.**  Whatever regions, nodes and edges are asked for in regions that are there, the tables
hold just that: all nodes where and in the order in which they are first mentioned, with all that
they are given merged, and all edges as they are drawn.  One more edge changes no node. -/
theorem records_run (name : String) (strict : Bool) (a : Attributes) {steps : List Step}
    (hv : Valid 1 steps) :
    let g := (new name strict a).run steps
    let t := (Tables.new name strict a).run steps
    g.tables = t ∧ t.Records name a steps ∧
      ∀ e : Edge, e.region < g.nextRegion →
        (g.apply (.edge e)).tables = t.apply (.edge e) ∧ t.nodes <+: (t.apply (.edge e)).nodes := by
  intro g t
  have hg : g.Sound := (Sound.new name strict a).run hv
  have ht : g.tables = t := tables_run (Sound.new name strict a) hv
  refine ⟨ht, ht ▸ records_tables name strict a steps, fun e he => ⟨?_, ?_⟩⟩
  · rw [tables_apply (s := .edge e) hg he, ht]
  · exact t.nodes_isPrefix_addEdge e.region e.tail e.head e.attributes

/-- The ends of an edge that come before their attributes, and keys that are given twice. -/
def sampleCalls : List Step :=
  [.region rootId "inner" ∅, .edge ⟨"b", "a", .ofGiven [("style", "bold")], 1⟩,
    .node ⟨"a", .ofGiven [("shape", "box"), ("label", "x")], rootId⟩,
    .edge ⟨"a", "a", ∅, rootId⟩,
    .node ⟨"a", .ofGiven [("color", "red"), ("shape", "oval")], 1⟩]

/-- The nodes come in the order of their first mention, by an edge; the key given twice has its
first place and its last value. -/
theorem records_run_sample :
    Valid 1 sampleCalls ∧
      let t := (Tables.new "g" true ∅).run sampleCalls
      t.Records "g" ∅ sampleCalls ∧ t.keys = ["b", "a"] ∧
        t.nodes.map (fun e => (e.2.region, e.2.attributes.entries)) =
          [(1, []), (1, [("shape", "oval"), ("label", "x"), ("color", "red")])] ∧
        t.regions.map (fun x => (x.nodes, x.edges)) = [([], [1]), (["b", "a"], [0])] := by
  have hv : Valid 1 sampleCalls := by decide
  exact ⟨hv, (records_run "g" true ∅ hv).2.1, by decide +kernel⟩

end NetPlot.Graph
