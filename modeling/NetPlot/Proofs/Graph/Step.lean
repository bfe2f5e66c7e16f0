/-
  Graphs as the outcome of steps: one region, one node or one edge at a time.

  1. **Program** — a `Step` is one change to a graph, `run` makes changes one after the other.

  2. **Reading a run** — regions and edges are listed in the order of their steps (`nested_run`,
     `edges_run`).  Nodes are merged by name, so a run gives them as the *mentions* of all steps,
     one after the other (`nodes_run`); an edge mentions its two ends, without attributes.

  3. **First mentions** — a node is in the region of the first mention of its name
     (`region_find?_mentionAll`).  Where no later mention brings attributes (`Settled`), nothing is
     merged at all: the nodes are exactly the first mentions (`mem_mentionAll_iff`).

  The compilers draw by these steps, so what is shown of a run is shown of every drawing at once.
  Nothing here depends on what the names are.
-/
import NetPlot.Graph.Basic

namespace NetPlot.Graph

/-! ## Steps

A drawing is a run of steps.  What the compilers make is said in terms of the list of steps, and
what a graph is like after a list of steps is said here, once. -/

/-- One change to a graph. -/
inductive Step where
  | region (parent : RegionId) (name : String) (attributes : Attributes)
  | node (n : Node)
  | edge (e : Edge)

/-- The ends of an edge as nodes that it mentions in its region. -/
def Edge.ends (e : Edge) : List Node := [⟨e.tail, ∅, e.region⟩, ⟨e.head, ∅, e.region⟩]

theorem Edge.mem_ends {e : Edge} {m : Node} :
    m ∈ e.ends ↔ m = ⟨e.tail, ∅, e.region⟩ ∨ m = ⟨e.head, ∅, e.region⟩ := by
  simp [ends]

theorem Edge.attributes_of_mem_ends {e : Edge} {m : Node} (h : m ∈ e.ends) :
    m.attributes = ∅ := by
  rcases Edge.mem_ends.mp h with rfl | rfl <;> rfl

namespace Step

/-- The region that a step opens. -/
def regions : Step → List Region
  | region parent name attributes => [⟨name, attributes, some parent⟩]
  | _ => []

/-- The edge that a step draws. -/
def edges : Step → List Edge
  | edge e => [e]
  | _ => []

/-- The nodes that a step mentions. -/
def mentions : Step → List Node
  | region _ _ _ => []
  | node n => [n]
  | edge e => e.ends

end Step

/-- A graph after one step. -/
def apply (g : Graph) : Step → Graph
  | .region parent name attributes => g.addRegion parent name attributes
  | .node n => g.addNode n.region n.name n.attributes
  | .edge e => g.addEdge e.region e.tail e.head e.attributes

/-- A graph after steps, one after the other. -/
def run (g : Graph) (steps : List Step) : Graph := steps.foldl apply g

/-- Nodes after mentions, one after the other. -/
def mentionAll (ns ms : List Node) : List Node :=
  ms.foldl (fun ns m => mention m.region m.name m.attributes ns) ns

@[simp] theorem run_nil (g : Graph) : g.run [] = g := rfl

@[simp] theorem run_cons (g : Graph) (s : Step) (ss : List Step) :
    g.run (s :: ss) = (g.apply s).run ss := rfl

theorem run_append (g : Graph) (ss ts : List Step) : g.run (ss ++ ts) = (g.run ss).run ts :=
  List.foldl_append

theorem mentionAll_append (ns ms ks : List Node) :
    mentionAll ns (ms ++ ks) = mentionAll (mentionAll ns ms) ks :=
  List.foldl_append

/-- A loop that makes some steps for each of its items is one run. -/
theorem foldl_eq_run {α : Type} {f : Graph → α → Graph} {s : α → List Step}
    (h : ∀ g a, f g a = g.run (s a)) (g : Graph) (as : List α) :
    as.foldl f g = g.run (as.flatMap s) := by
  induction as generalizing g with
  | nil => rfl
  | cons a as ih =>
    rw [List.foldl_cons, h, ih, List.flatMap_cons, run_append]

/-- A loop that makes one step for each of its items. -/
theorem foldl_eq_run_map {α : Type} {f : Graph → α → Graph} {s : α → Step}
    (h : ∀ g a, f g a = g.apply (s a)) (g : Graph) (as : List α) :
    as.foldl f g = g.run (as.map s) := by
  rw [run, List.foldl_map]
  exact congrArg (fun f => as.foldl f g) (funext fun g => funext fun a => h g a)

/-! ## Reading a run

Each field of the graph is read off the steps by itself; the induction is on the steps, with the
graph that they start from left open. -/

@[simp] theorem flatMap_none {α β : Type} (as : List α) : as.flatMap (fun _ => ([] : List β)) = [] :=
  List.flatMap_eq_nil_iff.mpr fun _ _ => rfl

theorem root_run (g : Graph) (ss : List Step) : (g.run ss).root = g.root := by
  induction ss generalizing g with
  | nil => rfl
  | cons s ss ih => rw [run_cons, ih]; cases s <;> rfl

theorem strict_run (g : Graph) (ss : List Step) : (g.run ss).strict = g.strict := by
  induction ss generalizing g with
  | nil => rfl
  | cons s ss ih => rw [run_cons, ih]; cases s <;> rfl

/-- A run lists the regions of its steps behind those that were there. -/
theorem nested_run (g : Graph) (ss : List Step) :
    (g.run ss).nested = g.nested ++ ss.flatMap Step.regions := by
  induction ss generalizing g with
  | nil => simp
  | cons s ss ih =>
    rw [run_cons, ih, List.flatMap_cons, ← List.append_assoc]
    cases s <;> simp [apply, addRegion, addNode, addEdge, Step.regions]

/-- A run lists the edges of its steps behind those that were there. -/
theorem edges_run (g : Graph) (ss : List Step) :
    (g.run ss).edges = g.edges ++ ss.flatMap Step.edges := by
  induction ss generalizing g with
  | nil => simp
  | cons s ss ih =>
    rw [run_cons, ih, List.flatMap_cons, ← List.append_assoc]
    cases s <;> simp [apply, addRegion, addNode, addEdge, Step.edges]

/-- Nodes come from the mentions alone. -/
theorem nodes_run (g : Graph) (ss : List Step) :
    (g.run ss).nodes = mentionAll g.nodes (ss.flatMap Step.mentions) := by
  induction ss generalizing g with
  | nil => rfl
  | cons s ss ih =>
    rw [run_cons, ih, List.flatMap_cons, mentionAll_append]
    cases s <;> rfl

/-- All regions of a run: those that were there, then those of the steps. -/
theorem regions_run (g : Graph) (ss : List Step) :
    (g.run ss).regions = g.regions ++ ss.flatMap Step.regions := by
  rw [regions, regions, root_run, nested_run, List.cons_append]

/-- The next number counts the regions that were opened. -/
theorem nextRegion_run (g : Graph) (ss : List Step) :
    (g.run ss).nextRegion = g.nextRegion + (ss.flatMap Step.regions).length := by
  rw [nextRegion, nextRegion, regions_run, List.length_append]

theorem nextRegion_addRegion (g : Graph) (parent : RegionId) (name : String) (a : Attributes) :
    (g.addRegion parent name a).nextRegion = g.nextRegion + 1 := by
  simp [nextRegion, regions, addRegion]

theorem region?_addRegion (g : Graph) (parent : RegionId) (name : String) (a : Attributes) :
    (g.addRegion parent name a).region? g.nextRegion = some ⟨name, a, some parent⟩ := by
  simp [nextRegion, regions, addRegion, region?]

/-! ## First mentions

A node stays where it was first mentioned, and later mentions only bring attributes.  So regions and
names can be read off the mentions without following the merging. -/

/-- The nodes with a given name. -/
def named (x : String) (n : Node) : Bool := n.name == x

@[simp] theorem named_iff {x : String} {n : Node} : named x n = true ↔ n.name = x := beq_iff_eq

theorem Attributes.merge_empty (a : Attributes) : a.merge ∅ = a := rfl

/-- What one more mention does to the node of a name. -/
theorem find?_mention (m : Node) (x : String) (ns : List Node) :
    (mention m.region m.name m.attributes ns).find? (named x) =
      if m.name = x then
        some (((ns.find? (named x)).map
          fun n => { n with attributes := n.attributes.merge m.attributes }).getD m)
      else ns.find? (named x) := by
  induction ns with
  | nil =>
    by_cases h : m.name = x
    · subst h; simp [mention]
    · simp [mention, h]
  | cons n ns ih =>
    rw [mention]
    by_cases hn : n.name = m.name
    · -- the node of that name is met: it is the one that `x` may ask for
      rw [if_pos hn]
      by_cases h : m.name = x
      · simp [named, hn, h]
      · simp [named, hn, h]
    · rw [if_neg hn]
      -- another node is skipped, and answers if it is the one asked for
      by_cases hx : n.name = x
      · have h : m.name ≠ x := fun h => hn (hx.trans h.symm)
        simp [named, hx, h]
      · rw [List.find?_cons_of_neg (by simpa using hx), ih,
          List.find?_cons_of_neg (by simpa using hx)]

/-- A node is in the region of the first mention of its name. -/
theorem region_find?_mentionAll (x : String) (ns ms : List Node) :
    ((mentionAll ns ms).find? (named x)).map (·.region) =
      ((ns ++ ms).find? (named x)).map (·.region) := by
  induction ms generalizing ns with
  | nil => rw [List.append_nil]; rfl
  | cons m ms ih =>
    show ((mentionAll (mention m.region m.name m.attributes ns) ms).find? (named x)).map _ = _
    rw [ih, List.find?_append, List.find?_append, find?_mention]
    by_cases h : m.name = x
    · rw [if_pos h, List.find?_cons_of_pos (by simpa using h)]
      cases ns.find? (named x) <;> rfl
    · rw [if_neg h, List.find?_cons_of_neg (by simpa using h)]

/-- A mention brings its own name and keeps all others. -/
theorem mem_names_mention {m : Node} {ns : List Node} {x : String} :
    x ∈ (mention m.region m.name m.attributes ns).map (·.name) ↔
      x ∈ ns.map (·.name) ∨ x = m.name := by
  induction ns with
  | nil => simp [mention]
  | cons n ns ih =>
    rw [mention]
    by_cases h : n.name = m.name
    · rw [if_pos h]
      simp only [List.map_cons, List.mem_cons, h]
      grind
    · rw [if_neg h, List.map_cons, List.mem_cons, ih, List.map_cons, List.mem_cons, or_assoc]

/-- No mention makes a second node of a name. -/
theorem names_mention_nodup {m : Node} {ns : List Node} (h : (ns.map (·.name)).Nodup) :
    ((mention m.region m.name m.attributes ns).map (·.name)).Nodup := by
  induction ns with
  | nil => simp [mention]
  | cons n ns ih =>
    rw [List.map_cons, List.nodup_cons] at h
    rw [mention]
    -- merging keeps the name, and a mention further on cannot bring a name that is met here
    by_cases hn : n.name = m.name
    · rw [if_pos hn, List.map_cons, List.nodup_cons]
      exact h
    · rw [if_neg hn, List.map_cons, List.nodup_cons]
      refine ⟨fun hm => ?_, ih h.2⟩
      rcases mem_names_mention.mp hm with hm | hm
      · exact h.1 hm
      · exact hn hm

/-- No two nodes have the same name, whatever is mentioned. -/
theorem names_mentionAll_nodup {ns : List Node} (h : (ns.map (·.name)).Nodup) (ms : List Node) :
    ((mentionAll ns ms).map (·.name)).Nodup := by
  induction ms generalizing ns with
  | nil => exact h
  | cons m ms ih => exact ih (names_mention_nodup h)

/-- So it is where there is nothing before. -/
theorem names_mentionAll_nil_nodup (ms : List Node) :
    ((mentionAll [] ms).map (·.name)).Nodup := by
  have hnil : (([] : List Node).map (·.name)).Nodup := List.nodup_nil
  exact names_mentionAll_nodup hnil ms

/-- The nodes have the names of the mentions. -/
theorem mem_names_mentionAll {ns ms : List Node} {x : String} :
    x ∈ (mentionAll ns ms).map (·.name) ↔ x ∈ (ns ++ ms).map (·.name) := by
  induction ms generalizing ns with
  | nil => rw [List.append_nil]; rfl
  | cons m ms ih =>
    show x ∈ (mentionAll (mention m.region m.name m.attributes ns) ms).map (·.name) ↔ _
    rw [ih, List.map_append, List.mem_append, mem_names_mention, List.map_append, List.mem_append,
      List.map_cons, List.mem_cons, or_assoc]

/-- Where names differ, a node is what its name finds. -/
theorem find?_named_of_mem {ns : List Node} (h : (ns.map (·.name)).Nodup) {n : Node}
    (hn : n ∈ ns) : ns.find? (named n.name) = some n := by
  induction ns with
  | nil => exact absurd hn List.not_mem_nil
  | cons m ns ih =>
    rw [List.map_cons, List.nodup_cons] at h
    rcases List.mem_cons.mp hn with rfl | hn
    · exact List.find?_cons_of_pos (by simp)
    · have hm : m.name ≠ n.name := fun e => h.1 (e ▸ List.mem_map_of_mem hn)
      rw [List.find?_cons_of_neg (by simpa using hm)]
      exact ih h.2 hn

/-! ## Mentions that merge nothing

In a drawing, a later mention of a node is the end of an edge, which brings nothing.  Where this is
so, the list of nodes is a sublist of the mentions. -/

/-- No mention but the first one of a name brings attributes. -/
def Settled (ms : List Node) : Prop :=
  ms.Pairwise fun a b => a.name = b.name → b.attributes = ∅

/-- The first mention of a name puts a node at the end. -/
theorem mention_of_not_mem {m : Node} {ns : List Node} (h : m.name ∉ ns.map (·.name)) :
    mention m.region m.name m.attributes ns = ns ++ [m] := by
  induction ns with
  | nil => rfl
  | cons n ns ih =>
    rw [List.map_cons, List.mem_cons, not_or] at h
    rw [mention, if_neg (Ne.symm h.1), ih h.2, List.cons_append]

/-- A later mention without attributes changes nothing. -/
theorem mention_of_mem {m : Node} {ns : List Node} (h : m.name ∈ ns.map (·.name))
    (he : m.attributes = ∅) : mention m.region m.name m.attributes ns = ns := by
  induction ns with
  | nil => exact absurd h List.not_mem_nil
  | cons n ns ih =>
    rw [mention]
    by_cases hn : n.name = m.name
    · rw [if_pos hn, he, Attributes.merge_empty]
    · rw [List.map_cons, List.mem_cons] at h
      rw [if_neg hn, ih (h.resolve_left (Ne.symm hn))]

/-- Nothing is merged: a name finds its first mention, as it was. -/
theorem find?_mentionAll {ns ms : List Node} (h : Settled (ns ++ ms)) (x : String) :
    (mentionAll ns ms).find? (named x) = (ns ++ ms).find? (named x) := by
  induction ms generalizing ns with
  | nil => rw [List.append_nil]; rfl
  | cons m ms ih =>
    show (mentionAll (mention m.region m.name m.attributes ns) ms).find? (named x) = _
    by_cases hm : m.name ∈ ns.map (·.name)
    · -- the name is there already, so the mention brings nothing and finds nothing
      obtain ⟨n, hn, hnm⟩ := List.mem_map.mp hm
      have he : m.attributes = ∅ :=
        (List.pairwise_append.mp h).2.2 n hn m List.mem_cons_self hnm
      have hs : Settled (ns ++ ms) :=
        h.sublist ((List.sublist_cons_self m ms).append_left ns)
      rw [mention_of_mem hm he, ih hs, List.find?_append, List.find?_append]
      by_cases hx : m.name = x
      · have hf : (ns.find? (named x)).isSome :=
          List.find?_isSome.mpr ⟨n, hn, named_iff.mpr (hnm.trans hx)⟩
        rw [Option.or_of_isSome hf, Option.or_of_isSome hf]
      · rw [List.find?_cons_of_neg (by simpa using hx)]
    · rw [mention_of_not_mem hm, ih (by rwa [List.append_assoc]), List.append_assoc]
      rfl

/-- Nothing is merged: the nodes with attributes are the mentions with attributes, in order. -/
theorem filter_mentionAll {ns ms : List Node} (h : Settled (ns ++ ms)) :
    (mentionAll ns ms).filter (·.attributes ≠ ∅) = (ns ++ ms).filter (·.attributes ≠ ∅) := by
  induction ms generalizing ns with
  | nil => rw [List.append_nil]; rfl
  | cons m ms ih =>
    show (mentionAll (mention m.region m.name m.attributes ns) ms).filter _ = _
    by_cases hm : m.name ∈ ns.map (·.name)
    -- a second mention carries no attributes, so the filter drops it on both sides
    · obtain ⟨n, hn, hnm⟩ := List.mem_map.mp hm
      have he : m.attributes = ∅ :=
        (List.pairwise_append.mp h).2.2 n hn m List.mem_cons_self hnm
      have hs : Settled (ns ++ ms) :=
        h.sublist ((List.sublist_cons_self m ms).append_left ns)
      rw [mention_of_mem hm he, ih hs, List.filter_append, List.filter_append,
        List.filter_cons_of_neg (by simp [he])]
    · rw [mention_of_not_mem hm, ih (by rwa [List.append_assoc]), List.append_assoc]
      rfl

/-- The nodes are exactly the first mentions of their names. -/
theorem mem_mentionAll_iff {ms : List Node} (h : Settled ms) {n : Node} :
    n ∈ mentionAll [] ms ↔ ms.find? (named n.name) = some n := by
  have hf := @find?_mentionAll [] ms h n.name
  rw [List.nil_append] at hf
  constructor
  · intro hn
    rw [← hf]
    exact find?_named_of_mem (names_mentionAll_nil_nodup ms) hn
  · intro hn
    rw [← hf] at hn
    exact List.mem_of_find?_eq_some hn

/-- A mention with attributes is the first one of its name. -/
theorem find?_of_settled {ms : List Node} (h : Settled ms) {n : Node} (hn : n ∈ ms)
    (ha : n.attributes ≠ ∅) : ms.find? (named n.name) = some n := by
  induction ms with
  | nil => exact absurd hn List.not_mem_nil
  | cons m ms ih =>
    obtain ⟨hm, hs⟩ := List.pairwise_cons.mp h
    rcases List.mem_cons.mp hn with rfl | hn
    · exact List.find?_cons_of_pos (by simp)
    · have hne : m.name ≠ n.name := fun e => ha (hm n hn e)
      rw [List.find?_cons_of_neg (by simpa using hne)]
      exact ih hs hn

/-- A name that only edges mention is found at the first edge with such an end. -/
theorem find?_mentions_of_edges {ss : List Step} {x : String}
    (h : ∀ n, .node n ∈ ss → n.name ≠ x) :
    (ss.flatMap Step.mentions).find? (named x) =
      ((ss.flatMap Step.edges).find? fun e => e.tail == x || e.head == x).map
        fun e => ⟨x, ∅, e.region⟩ := by
  induction ss with
  | nil => rfl
  | cons s ss ih =>
    have ih := ih fun n hn => h n (List.mem_cons_of_mem s hn)
    rw [List.flatMap_cons, List.flatMap_cons, List.find?_append, List.find?_append, ih]
    cases s with
    | region parent name attributes => rfl
    | node n =>
      have hn : n.name ≠ x := h n List.mem_cons_self
      simp [Step.mentions, Step.edges, hn]
    | edge e =>
      by_cases ht : e.tail = x
      -- the tail is mentioned before the head, so it decides first
      · simp [Step.mentions, Step.edges, Edge.ends, ht]
      · by_cases hh : e.head = x
        · simp [Step.mentions, Step.edges, Edge.ends, ht, hh]
        · simp [Step.mentions, Step.edges, Edge.ends, ht, hh]

end NetPlot.Graph
