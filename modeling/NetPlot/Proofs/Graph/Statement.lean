/-
  The statements of a DOT text, in order.

  1. **Enclosure** — `Encloses a r` says that region `r` is region `a` or somewhere inside of it.
     Two regions side by side enclose nothing in common (`eq_of_encloses`).

  2. **Program** — `statements` lists what is written for a region, one statement after the
     other; `Statement.lines` indents a list of statements by its open braces.  The DOT text of a
     graph is made of these lines (`toDot_eq`).

  3. **Order** — the nodes and edges written for a region are those of all regions that it
     encloses (`mem_statements_iff`).  No edge comes before a node of a region inside of its own
     (`pairwise_statements`), so such a node is declared before the edge is
     (`node_mem_before_edge`).
-/
import NetPlot.Graph.Dot
import Mathlib.Logic.Relation

namespace NetPlot.Graph

/-! ## Enclosure

A region is directly inside of one region only, and that one has a smaller number.  Both facts
together give that two ways up from a region are the same way. -/

/-- Region `r` is region `a` itself or somewhere inside of it. -/
def Encloses (g : Graph) (a r : RegionId) : Prop :=
  Relation.ReflTransGen (fun p i => i ∈ g.children p) a r

/-- A child has a larger number than its parent, and names it. -/
theorem mem_children_iff {g : Graph} {p i : RegionId} :
    i ∈ g.children p ↔ p < i ∧ ∃ x, g.region? i = some x ∧ x.parent = some p := by
  simp only [children, List.mem_filter, List.mem_range, Bool.and_eq_true, decide_eq_true_eq,
    Option.any_eq_true, beq_iff_eq]
  constructor
  · rintro ⟨-, h, x, hx, hp⟩
    exact ⟨h, x, hx, hp⟩
  · rintro ⟨h, x, hx, hp⟩
    exact ⟨(List.getElem?_eq_some_iff.mp hx).1, h, x, hx, hp⟩

/-- What is inside has no smaller number, going inwards child by child. -/
theorem Encloses.le {g : Graph} {a r : RegionId} (h : g.Encloses a r) : a ≤ r := by
  induction h with
  | refl => exact Nat.le_refl a
  | tail _ hc ih => exact Nat.le_trans ih (Nat.le_of_lt (lt_of_mem_children hc).1)

/-- A region is in one other region only. -/
theorem eq_of_mem_children {g : Graph} {p q i : RegionId} (hp : i ∈ g.children p)
    (hq : i ∈ g.children q) : p = q := by
  obtain ⟨-, x, hx, hxp⟩ := mem_children_iff.mp hp
  obtain ⟨-, y, hy, hyq⟩ := mem_children_iff.mp hq
  obtain rfl : x = y := Option.some.inj (hx.symm.trans hy)
  exact Option.some.inj (hxp.symm.trans hyq)

/-- A region inside of `r` does not enclose a region directly inside of `r` but itself. -/
theorem eq_of_encloses_child {g : Graph} {r i j : RegionId} (hi : i ∈ g.children r)
    (hj : j ∈ g.children r) (h : g.Encloses j i) : j = i := by
  rcases Relation.ReflTransGen.cases_tail h with rfl | ⟨p, hp, hc⟩
  · rfl
  · obtain rfl := eq_of_mem_children hc hi
    exact absurd (Encloses.le hp) (Nat.not_le.mpr (lt_of_mem_children hj).1)

/-- Regions side by side enclose nothing in common. -/
theorem eq_of_encloses {g : Graph} {r i j x : RegionId} (hi : i ∈ g.children r)
    (hj : j ∈ g.children r) (hix : g.Encloses i x) (hjx : g.Encloses j x) : i = j := by
  induction hix with
  | refl => exact (eq_of_encloses_child hi hj hjx).symm
  | tail hip hc ih =>
    rcases Relation.ReflTransGen.cases_tail hjx with rfl | ⟨q, hq, hcq⟩
    · exact eq_of_encloses_child hj hi (hip.tail hc)
    · obtain rfl := eq_of_mem_children hc hcq
      exact ih hq

/-! ## Statements

A list of statements is easier to speak about than lines of text: what comes first and what is
inside of what can be said without a look at the indentation. -/

/-- A statement of a DOT text: all of it but the first line and the last one. -/
inductive Statement where
  | attribute (e : String × String)
  | node (n : Node)
  | opening (name : String)
  | closing
  | edge (e : Edge)

/-- A subgraph around statements. -/
def Statement.subgraph (name : String) (inside : List Statement) : List Statement :=
  .opening name :: inside ++ [.closing]

/-- The statements of region `r`: attributes, nodes, subgraphs, edges. -/
def statements (g : Graph) (r : RegionId) : List Statement :=
  (g.block r).attributes.entries.map .attribute
    ++ (g.nodesIn r).map .node
    ++ (g.children r).attach.flatMap (fun i =>
      Statement.subgraph (g.block i.1).name (g.statements i.1))
    ++ (g.edgesIn r).map .edge
termination_by g.regions.length - r
decreasing_by
  have h := lt_of_mem_children i.2
  exact Nat.sub_lt_sub_left (Nat.lt_trans h.1 h.2) h.1

/-- The lines of statements, indented by a level that braces raise and lower. -/
def Statement.lines : Nat → List Statement → List String
  | _, [] => []
  | level, .attribute e :: rest => Dot.indented level (Dot.pair e ++ ";") :: lines level rest
  | level, .node n :: rest =>
    Dot.indented level (Dot.nodeText (n.name, n.attributes)) :: lines level rest
  | level, .opening name :: rest =>
    Dot.indented level ("subgraph " ++ Dot.quote name ++ " \x7b") :: lines (level + 1) rest
  | level, .closing :: rest => Dot.indented (level - 1) "\x7d" :: lines (level - 1) rest
  | level, .edge e :: rest =>
    Dot.indented level (Dot.edgeText (e.tail, e.head, e.attributes)) :: lines level rest

/-- A whole document: its first line, the statements, and the last brace. -/
def Statement.document (strict : Bool) (name : String) (statements : List Statement) : String :=
  let first := (if strict then "strict " else "") ++ "digraph " ++ Dot.quote name ++ " \x7b"
  String.join ((first :: lines 1 statements ++ ["\x7d"]).map (· ++ "\n"))

/-- The equation of the recursion, without the proofs that carry its termination. -/
theorem statements_eq (g : Graph) (r : RegionId) :
    g.statements r = (g.block r).attributes.entries.map .attribute
      ++ (g.nodesIn r).map .node
      ++ (g.children r).flatMap (fun i => Statement.subgraph (g.block i).name (g.statements i))
      ++ (g.edgesIn r).map .edge := by
  rw [statements, List.flatMap_def, List.flatMap_def,
    List.attach_map_val (f := fun i => Statement.subgraph (g.block i).name (g.statements i))]

theorem block_eq (g : Graph) (r : RegionId) :
    g.block r =
      { name := ((g.region? r).map (·.name)).getD ""
        attributes := ((g.region? r).map (·.attributes)).getD ∅
        nodes := (g.nodesIn r).map fun n => (n.name, n.attributes)
        blocks := (g.children r).map g.block
        edges := (g.edgesIn r).map fun e => (e.tail, e.head, e.attributes) } := by
  rw [block]
  congr 1
  exact List.attach_map_val (f := g.block)

/-! ## Text -/

/-- Statements that are one line each, all at the same level. -/
theorem lines_map {α : Type} {f : α → Statement} {text : α → String} {level : Nat}
    (h : ∀ a rest, Statement.lines level (f a :: rest) =
      Dot.indented level (text a) :: Statement.lines level rest)
    (as : List α) (rest : List Statement) :
    Statement.lines level (as.map f ++ rest) =
      as.map (fun a => Dot.indented level (text a)) ++ Statement.lines level rest := by
  induction as with
  | nil => rfl
  | cons a as ih =>
    rw [List.map_cons, List.cons_append, h, ih]
    rfl

/-- The lines of subgraphs, if those of the regions in them are known. -/
theorem lines_subgraphs (g : Graph) (level : Nat) {is : List RegionId}
    (h : ∀ i ∈ is, ∀ rest, Statement.lines (level + 1) (g.statements i ++ rest) =
      Dot.bodyLines (level + 1) (g.block i) ++ Statement.lines (level + 1) rest)
    (rest : List Statement) :
    Statement.lines level
        (is.flatMap (fun i => Statement.subgraph (g.block i).name (g.statements i)) ++ rest) =
      Dot.nestedLines level (is.map g.block) ++ Statement.lines level rest := by
  induction is with
  | nil => rfl
  | cons i is ih =>
    have hi := h i List.mem_cons_self
    have ih := ih fun j hj => h j (List.mem_cons_of_mem i hj)
    rw [List.flatMap_cons, List.map_cons, Dot.nestedLines, Statement.subgraph]
    simp only [List.cons_append, List.append_assoc, List.nil_append, Statement.lines, hi, ih,
      Nat.add_sub_cancel]

/-- The lines of a region are those of its statements. -/
theorem lines_statements (g : Graph) (level : Nat) (r : RegionId) (rest : List Statement) :
    Statement.lines level (g.statements r ++ rest) =
      Dot.bodyLines level (g.block r) ++ Statement.lines level rest := by
  induction r using statements.induct g generalizing level rest with
  | case1 r ih =>
    -- the children are indented by one level more, whatever follows them
    have hc : ∀ i ∈ g.children r, ∀ rest, Statement.lines (level + 1) (g.statements i ++ rest) =
        Dot.bodyLines (level + 1) (g.block i) ++ Statement.lines (level + 1) rest :=
      fun i hi rest => ih ⟨i, hi⟩ (level + 1) rest
    rw [statements_eq, List.append_assoc, List.append_assoc, List.append_assoc,
      lines_map (fun _ _ => rfl), lines_map (fun _ _ => rfl), lines_subgraphs g level hc,
      lines_map (fun _ _ => rfl), block_eq g r, Dot.bodyLines]
    simp only [List.map_map, List.append_assoc]
    rfl

/-- The DOT text of a graph is made of the lines of its statements. -/
theorem toDot_eq (g : Graph) :
    g.toDot = Statement.document g.strict g.name (g.statements rootId) := by
  have hl := lines_statements g 1 rootId []
  rw [List.append_nil, Statement.lines, List.append_nil] at hl
  have hn : (g.block rootId).name = g.name := by
    rw [block_eq]
    rfl
  rw [Statement.document, hl, toDot, Dot.render, hn]

/-! ## Order

Within a region its nodes come first, then its subgraphs and its edges last.  By induction on the
regions, an edge is behind all nodes of the regions that its own region encloses. -/

/-- The nodes and the edges of region `r` itself. -/
def own (g : Graph) (r : RegionId) : List Statement :=
  (g.nodesIn r).map .node ++ (g.edgesIn r).map .edge

/-- The nodes and edges that are written for a region are those of all regions that it
encloses. -/
theorem mem_statements_iff {g : Graph} {a : Statement} (h : (∃ n, a = .node n) ∨ ∃ e, a = .edge e)
    {r : RegionId} : a ∈ g.statements r ↔ ∃ x, g.Encloses r x ∧ a ∈ g.own x := by
  induction r using statements.induct g with
  | case1 r ih =>
    -- attributes and braces are neither nodes nor edges
    have hattribute : a ∉ (g.block r).attributes.entries.map Statement.attribute := by
      rcases h with ⟨n, rfl⟩ | ⟨e, rfl⟩ <;> simp
    have hinside : ∀ i ∈ g.children r, a ∈ Statement.subgraph (g.block i).name (g.statements i) ↔
        ∃ x, g.Encloses i x ∧ a ∈ g.own x := by
      intro i hi
      rw [← ih ⟨i, hi⟩]
      rcases h with ⟨n, rfl⟩ | ⟨e, rfl⟩ <;> simp [Statement.subgraph]
    have hr : a ∈ g.statements r ↔ a ∈ g.own r ∨
        ∃ i ∈ g.children r, a ∈ Statement.subgraph (g.block i).name (g.statements i) := by
      rw [statements_eq, own]
      simp only [List.mem_append, List.mem_flatMap, hattribute, false_or, or_assoc]
      exact or_congr_right or_comm
    rw [hr]
    constructor
    · rintro (ha | ⟨i, hi, ha⟩)
      · exact ⟨r, .refl, ha⟩
      · obtain ⟨x, hx, ha⟩ := (hinside i hi).mp ha
        exact ⟨x, .head hi hx, ha⟩
    · rintro ⟨x, hx, ha⟩
      rcases Relation.ReflTransGen.cases_head hx with rfl | ⟨i, hi, hx⟩
      · exact Or.inl ha
      · exact Or.inr ⟨i, hi, (hinside i hi).mpr ⟨x, hx, ha⟩⟩

/-- The statements of a region declare the nodes that it encloses, and no others. -/
theorem node_mem_statements {g : Graph} {n : Node} {r : RegionId} :
    .node n ∈ g.statements r ↔ n ∈ g.nodes ∧ g.Encloses r n.region := by
  rw [mem_statements_iff (Or.inl ⟨n, rfl⟩)]
  simp only [own, nodesIn, List.mem_append, List.mem_map, List.mem_filter, beq_iff_eq,
    Statement.node.injEq, exists_eq_right, reduceCtorEq, and_false, exists_false, or_false]
  exact ⟨fun ⟨x, hx, hn, he⟩ => ⟨hn, he ▸ hx⟩, fun ⟨hn, hx⟩ => ⟨_, hx, hn, rfl⟩⟩

/-- The statements of a region draw the edges of the regions that it encloses, and no others. -/
theorem edge_mem_statements {g : Graph} {e : Edge} {r : RegionId} :
    .edge e ∈ g.statements r ↔ e ∈ g.edges ∧ g.Encloses r e.region := by
  rw [mem_statements_iff (Or.inr ⟨e, rfl⟩)]
  simp only [own, edgesIn, List.mem_append, List.mem_map, List.mem_filter, beq_iff_eq,
    Statement.edge.injEq, exists_eq_right, reduceCtorEq, and_false, exists_false, false_or]
  exact ⟨fun ⟨x, hx, hn, he⟩ => ⟨hn, he ▸ hx⟩, fun ⟨hn, hx⟩ => ⟨_, hx, hn, rfl⟩⟩

/-- The first statement is no edge above the node that the second one declares. -/
def Statement.Orderly (g : Graph) (a b : Statement) : Prop :=
  ∀ e n, a = .edge e → b = .node n → ¬ g.Encloses e.region n.region

/-- Braces around statements do not change which nodes and edges come first. -/
theorem Statement.orderly_subgraph {g : Graph} {name : String} {l : List Statement}
    (h : l.Pairwise (Orderly g)) : (subgraph name l).Pairwise (Orderly g) := by
  have ho : ∀ b ∈ l, Orderly g (.opening name) b := fun _ _ _ _ ha => nomatch ha
  refine List.pairwise_append.mpr
    ⟨List.pairwise_cons.mpr ⟨ho, h⟩, List.pairwise_singleton _ _, ?_⟩
  intro a _ b hb e n _ hn
  rw [List.mem_singleton.mp hb] at hn
  cases hn

/-- No edge comes before a node of a region inside of its own. -/
theorem pairwise_statements (g : Graph) (r : RegionId) :
    (g.statements r).Pairwise (Statement.Orderly g) := by
  induction r using statements.induct g with
  | case1 r ih =>
    have hopen : ∀ a ∈ (g.block r).attributes.entries.map Statement.attribute
        ++ (g.nodesIn r).map Statement.node, ∀ b, Statement.Orderly g a b := by
      intro a ha b e n he
      subst he
      simp at ha
    have hclose : ∀ a, ∀ b ∈ (g.edgesIn r).map Statement.edge, Statement.Orderly g a b := by
      intro a b hb e n _ hn
      subst hn
      simp at hb
    have hmiddle : ((g.children r).flatMap fun i =>
        Statement.subgraph (g.block i).name (g.statements i)).Pairwise (Statement.Orderly g) := by
      rw [List.pairwise_flatMap]
      refine ⟨fun i hi => Statement.orderly_subgraph (ih ⟨i, hi⟩), ?_⟩
      have hne : (g.children r).Pairwise (· ≠ ·) := List.nodup_range.filter _
      -- subgraphs side by side have no region in common
      refine hne.imp_of_mem fun hi hj hij a ha b hb e n hae hbn he => hij ?_
      subst hae hbn
      have hei := (edge_mem_statements.mp (by simpa [Statement.subgraph] using ha)).2
      have hnj := (node_mem_statements.mp (by simpa [Statement.subgraph] using hb)).2
      exact eq_of_encloses hi hj (hei.trans he) hnj
    rw [statements_eq]
    refine List.pairwise_append.mpr ⟨List.pairwise_append.mpr ⟨?_, hmiddle, ?_⟩, ?_, ?_⟩
    · exact List.pairwise_of_forall_mem_list fun a ha b _ => hopen a ha b
    · exact fun a ha b _ => hopen a ha b
    · exact List.pairwise_of_forall_mem_list fun a _ b hb => hclose a b hb
    · exact fun a _ b hb => hclose a b hb

/-- A node is declared before an edge whose region encloses it, and not after it. -/
theorem node_mem_before_edge {g : Graph} {r : RegionId} {before after : List Statement} {e : Edge}
    (h : g.statements r = before ++ .edge e :: after) {n : Node} (hn : n ∈ g.nodes)
    (he : g.Encloses e.region n.region) : .node n ∈ before ∧ .node n ∉ after := by
  have hp := pairwise_statements g r
  rw [h, List.pairwise_append, List.pairwise_cons] at hp
  -- a node behind the edge would be out of order
  have ha : .node n ∉ after := fun ha => hp.2.1.1 _ ha e n rfl rfl he
  have hr : g.Encloses r e.region := (edge_mem_statements.mp (by rw [h]; simp)).2
  have hm : .node n ∈ g.statements r := node_mem_statements.mpr ⟨hn, hr.trans he⟩
  rw [h, List.mem_append, List.mem_cons] at hm
  rcases hm with hm | hm | hm
  · exact ⟨hm, ha⟩
  · cases hm
  · exact absurd hm ha

end NetPlot.Graph
