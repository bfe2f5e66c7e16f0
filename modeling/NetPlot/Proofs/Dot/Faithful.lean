/-
  DOT texts say what is in the graph, and nothing else.

  The keys of a graph that is built are words, so its text is read back as its picture
  (`Built.read?_toDot`).  `faithful_toDot` adds that nothing is written twice or left out, and that
  the graphs of models are among these graphs.

  **The crux** — names and values are all that a model can put into a text, and they are quoted.
  Where a quoted text ends does not depend on what it says, so nothing in a document can pass for a
  part of the text around it.  The one thing that is lost are carriage returns, which are not
  written.
-/
import NetPlot.Proofs.Dot.Picture
import NetPlot.Proofs.Network.Building
import NetPlot.Proofs.Network.Steps

namespace NetPlot

namespace Graph

open NetPlot.Dot

/-- Nothing but words is written for keys. -/
theorem Built.worded_statements {g : Graph} (h : Built g) (r : RegionId) :
    ∀ s ∈ g.statements r, Worded s := by
  induction r using statements.induct g with
  | case1 r ih =>
    intro s hs
    rw [statements_eq, List.mem_append, List.mem_append, List.mem_append, List.mem_map,
      List.mem_map, List.mem_flatMap, List.mem_map] at hs
    -- one case for each part of a block; only the braces of a region have no keys
    rcases hs with ((⟨e, he, rfl⟩ | ⟨n, hn, rfl⟩) | ⟨i, hi, hs⟩) | ⟨e, he, rfl⟩
    · have ha : (g.block r).attributes.Worded := by
        rw [block_eq]
        cases hr : g.region? r with
        | none => exact .empty
        | some x => exact h.regions_worded x (List.mem_of_getElem? hr)
      exact ha _ (List.mem_map_of_mem he)
    · exact h.nodes_worded n (List.mem_filter.mp hn).1
    · rw [Statement.subgraph, List.mem_append, List.mem_cons, List.mem_singleton] at hs
      rcases hs with (rfl | hs) | rfl
      · trivial
      · exact ih ⟨i, hi⟩ s hs
      · trivial
    · exact h.edges_worded e (List.mem_filter.mp he).1

/-- The text of a graph that is built is read as the picture of the graph. -/
theorem Built.read?_toDot {g : Graph} (h : Built g) :
    read? g.toDot = some (g.strict, g.picture rootId) := by
  have hname : (Picture.blank (legible g.name)).fill (g.picture rootId) = g.picture rootId := by
    rw [picture_eq]
    rfl
  rw [toDot_eq, read?_document _ _ (h.worded_statements rootId), complete?_statements, hname]
  rfl

/-- **Faithfulness.**  Whatever the names and values are, the text of a graph that is built is read
back as the flag and the picture of the graph: all regions in their places with their attributes,
nodes and edges in order, carriage returns left out.  Every region, node and edge is there once.
The graphs of models, of either kind, are built. -/
theorem faithful_toDot :
    (∀ g : Graph, Built g →
      read? g.toDot = some (g.strict, g.picture rootId) ∧
        (g.picture rootId).name = legible g.name ∧
        ((g.picture rootId).all.map fun p => (p.name, p.attributes)).Perm
          (g.regions.map fun x => (legible x.name, legibleEntries x.attributes.entries)) ∧
        ((g.picture rootId).all.flatMap (·.nodes)).Perm (g.nodes.map legibleNode) ∧
        ((g.picture rootId).all.flatMap (·.edges)).Perm (g.edges.map legibleEdge)) ∧
    ∀ mode source s g, (Network.compileAs mode source s).outcome = .ok g → Built g := by
  refine ⟨fun g h => ⟨h.read?_toDot, ?_, h.regions_perm, h.nodes_perm, h.edges_perm⟩,
    fun _ _ _ _ h => Network.built_of_compileAs h⟩
  rw [picture_eq]
  rfl

/-- A graph with two regions whose names and values are full of marks. -/
def markedGraph : Graph :=
  let g := Graph.new "a \"b\" \\" true (.ofGiven [("label", "\n\r\n")])
  (g.addRegion rootId "\x7d" ∅).addEdge 1 "x\";\x7d" "-> [y=\"z\"]"
    (.ofGiven [("label", "\\\"];")])

/-- It is built by the rules, so the theorem applies to it. -/
theorem built_markedGraph : Built markedGraph := by
  have hlabel : ∀ k ∈ ["label"], IsWord k := by decide +kernel
  have hroot : Built (.new "a \"b\" \\" true (.ofGiven [("label", "\n\r\n")])) :=
    .new _ _ (.ofGiven hlabel)
  exact .edge (.region hroot Nat.one_pos "\x7d" .empty) (Nat.lt_succ_self 1) _ _ (.ofGiven hlabel)

/-- It is read back in spite of its marks; and graphs that come out of compiling are built as well.
-/
theorem faithful_toDot_sample :
    (Built markedGraph ∧
      read? markedGraph.toDot = some (true, markedGraph.picture rootId) ∧
      (markedGraph.picture rootId).name = legible markedGraph.name ∧
      ((markedGraph.picture rootId).all.map fun p => (p.name, p.attributes)).Perm
        (markedGraph.regions.map fun x => (legible x.name, legibleEntries x.attributes.entries)) ∧
      ((markedGraph.picture rootId).all.flatMap (·.nodes)).Perm
        (markedGraph.nodes.map legibleNode) ∧
      ((markedGraph.picture rootId).all.flatMap (·.edges)).Perm
        (markedGraph.edges.map legibleEdge)) ∧
    ∃ g, (Network.compileAs .network Network.sampleSource
      Network.sampleSettings).outcome = .ok g ∧ Built g := by
  obtain ⟨g, hg⟩ := Network.compile_ok_iff.mpr Network.sample_visits.1
  have hc := Network.compileAs_network hg
  exact ⟨⟨built_markedGraph, faithful_toDot.1 _ built_markedGraph⟩, g, hc,
    faithful_toDot.2 _ _ _ _ hc⟩

end Graph

end NetPlot
