/-
  Connections that are drawn between the same two nodes.

  1. **Data** — a `Line` is a wire of a network that is visited.  Each of its ends is at a `Spot`: an
     element of the network that has a node, or the port of a process that has none.

  2. **Nodes** — the node of a spot tells the spot and the process it is in, up to one thing: the
     port `q` of a process `x` without a node is the element `q` of the network of `x`
     (`Spot.node_eq_iff`).

  3. **Specification** — two lines are `Parallel` if they connect the same spots of one network, or
     if one of them connects two ports of a process from outside and the other one the elements of
     these names inside of it.

  4. **Edges** — the graph has one edge for each line, and two of them join the same nodes in the
     same direction if and only if the lines are parallel (`parallel_of_compile`).  Lines that
     differ in nothing but the ports of processes drawn as nodes are
     (`exists_parallel_edges`).

  A strict graph is drawn with one line for all edges from one node to another.  Connections that
  differ may be seen as one line, and the question is for which ones this is so.
-/
import Mathlib.Data.List.Perm.Basic
import NetPlot.Proofs.Dot.Faithful
import NetPlot.Proofs.Network.RegionNames
import NetPlot.Proofs.Network.Wires

namespace NetPlot.Network

open NetPlot.Graph NetPlot.Label NetPlot.Xml

variable {source : Source} {s : Settings} {cfg : Config} {g : Graph}

/-! ## Data -/

/-- What an end of a wire is drawn at. -/
inductive Spot where
  /-- A process or an interface port with a node of its own. -/
  | element (name : String)
  /-- A port of a process that has no node. -/
  | port (process name : String)
  deriving DecidableEq

/-- The spot of a terminal. -/
def Terminal.spot (cfg : Config) (v : Visit) : Terminal → Spot
  | own port => .element port
  | inner process port =>
    if IsShown cfg v.level v.network process then .element process else .port process port

/-- The names that a terminal is given by. -/
def Terminal.names : Terminal → List String
  | own port => [port]
  | inner process port => [process, port]

/-- What a wire connects, in the words of the document. -/
def Wire.binding (w : Wire) : List String × List String := (w.tail.names, w.head.names)

/-- A wire of a network that is visited. -/
structure Line where
  visit : Visit
  wire : Wire

namespace Line

/-- The edge of a line. -/
def edge (cfg : Config) (l : Line) : Edge := l.visit.wireEdge cfg l.wire

/-- Where a line begins. -/
def tail (cfg : Config) (l : Line) : Spot := l.wire.tail.spot cfg l.visit

/-- Where a line ends. -/
def head (cfg : Config) (l : Line) : Spot := l.wire.head.spot cfg l.visit

/-- No name in the binding of a line has an `@`. -/
def Plain (l : Line) : Prop :=
  ∀ x ∈ l.wire.tail.names ++ l.wire.head.names, '@' ∉ x.toList

instance (l : Line) : Decidable l.Plain := inferInstanceAs (Decidable (∀ x ∈ _, _))

end Line

/-- All lines of a model, network by network. -/
def lines (source : Source) (s : Settings) : List Line :=
  (visits source s).flatMap fun v => (v.wires s.config).map (⟨v, ·⟩)

/-! ## Nodes

The node of a spot is the identity of the process with one or two names behind it, all parted by the
same mark.  Names without the mark can be cut off at the end; what is left open is only whether the
last cut leads to a port of a process or to an element inside of it. -/

/-- A text tells what stands before and after its last `@`. -/
theorem Identity.eq_of_append_last {p q : Identity} {x y : String} (hx : '@' ∉ x.toList)
    (hy : '@' ∉ y.toList) (h : p.text ++ "@" ++ x = q.text ++ "@" ++ y) : p = q ∧ x = y := by
  have hl := congrArg (fun t : String => t.toList.reverse) h
  simp only [String.toList_append, List.reverse_append, List.append_assoc] at hl
  have he : x.toList.reverse = y.toList.reverse :=
    eq_of_append_at (by simpa using hx) (by simpa using hy) hl
  obtain rfl := String.toList_inj.mp (List.reverse_injective he)
  obtain ⟨p⟩ := p
  obtain ⟨q⟩ := q
  simpa using h

/-- A process inside of another one has a longer identity. -/
theorem Identity.length_lt_of_child {p q : Identity} {x : String} (h : q = p.child x) :
    p.text.length < q.text.length := by
  subst h
  simp only [child, String.length_append]
  have hat : "@".length = 1 := rfl
  omega

namespace Spot

/-- The node of a spot in the network of a process. -/
def node (p : Identity) : Spot → String
  | element name => p.text ++ "@" ++ name
  | port process name => (p.child process).text ++ "@" ++ name

/-- No name of a spot has an `@`. -/
def Plain : Spot → Prop
  | element name => '@' ∉ name.toList
  | port process name => '@' ∉ process.toList ∧ '@' ∉ name.toList

variable {p q : Identity} {a b : Spot}

/-- Spots with the same node are the same, or one is the port of a process and the other one the
element of its name inside of that process. -/
theorem node_eq_iff (ha : a.Plain) (hb : b.Plain) :
    a.node p = b.node q ↔ (p = q ∧ a = b) ∨
      (∃ x n, q = p.child x ∧ a = .port x n ∧ b = .element n) ∨
      ∃ x n, p = q.child x ∧ a = .element n ∧ b = .port x n := by
  constructor
  · intro h
    -- both nodes are cut at their last mark, and a port of a process once more
    cases a with
    | element n =>
      cases b with
      | element m =>
        obtain ⟨rfl, rfl⟩ := Identity.eq_of_append_last ha hb h
        exact Or.inl ⟨rfl, rfl⟩
      | port y m =>
        obtain ⟨rfl, rfl⟩ := Identity.eq_of_append_last ha hb.2 h
        exact Or.inr (Or.inr ⟨y, n, rfl, rfl, rfl⟩)
    | port x n =>
      cases b with
      | element m =>
        obtain ⟨rfl, rfl⟩ := Identity.eq_of_append_last ha.2 hb h
        exact Or.inr (Or.inl ⟨x, n, rfl, rfl, rfl⟩)
      | port y m =>
        obtain ⟨hid, rfl⟩ := Identity.eq_of_append_last ha.2 hb.2 h
        obtain ⟨rfl, rfl⟩ := Identity.eq_of_append_last ha.1 hb.1 (congrArg Identity.text hid)
        exact Or.inl ⟨rfl, rfl⟩
  · rintro (⟨rfl, rfl⟩ | ⟨x, n, rfl, rfl, rfl⟩ | ⟨x, n, rfl, rfl, rfl⟩) <;> rfl

end Spot

/-- An end is drawn at the node of its spot. -/
theorem Terminal.node_endAt (cfg : Config) (v : Visit) (t : Terminal) :
    (t.endAt cfg v).node = (t.spot cfg v).node v.id := by
  cases t with
  | own port => rfl
  | inner process port =>
    rw [endAt, endOf, spot]
    split <;> rfl

theorem Terminal.plain_spot (cfg : Config) (v : Visit) {t : Terminal}
    (h : ∀ x ∈ t.names, '@' ∉ x.toList) : (t.spot cfg v).Plain := by
  cases t with
  | own port => exact h port List.mem_cons_self
  | inner process port =>
    have hprocess := h process List.mem_cons_self
    rw [spot]
    split
    · exact hprocess
    · exact ⟨hprocess, h port (List.mem_cons_of_mem _ List.mem_cons_self)⟩

/-! ## Parallel lines

Beside the obvious case there are two more, one the mirror of the other: a port of an expanded
process is seen from outside and from inside as one node. -/

namespace Line

variable {a b : Line}

/-- Two lines connect the same places in the same direction. -/
inductive Parallel (cfg : Config) (a b : Line) : Prop where
  /-- They connect the same spots of one network. -/
  | beside (hid : a.visit.id = b.visit.id) (ht : a.tail cfg = b.tail cfg)
      (hh : a.head cfg = b.head cfg)
  /-- The first connects two ports of a process, the second the elements of their names in it. -/
  | around (x q r : String) (hid : b.visit.id = a.visit.id.child x) (ht : a.tail cfg = .port x q)
      (hh : a.head cfg = .port x r) (ht' : b.tail cfg = .element q) (hh' : b.head cfg = .element r)
  /-- The second connects two ports of a process, the first the elements of their names in it. -/
  | inside (x q r : String) (hid : a.visit.id = b.visit.id.child x) (ht : a.tail cfg = .element q)
      (hh : a.head cfg = .element r) (ht' : b.tail cfg = .port x q) (hh' : b.head cfg = .port x r)

/-- The nodes that the edge of a line joins. -/
def nodes (cfg : Config) (l : Line) : String × String := ((l.edge cfg).tail, (l.edge cfg).head)

theorem nodes_eq (cfg : Config) (l : Line) :
    l.nodes cfg = ((l.tail cfg).node l.visit.id, (l.head cfg).node l.visit.id) :=
  Prod.ext (l.wire.tail.node_endAt cfg l.visit) (l.wire.head.node_endAt cfg l.visit)

theorem Plain.spots (h : a.Plain) (cfg : Config) : (a.tail cfg).Plain ∧ (a.head cfg).Plain :=
  ⟨Terminal.plain_spot cfg a.visit fun x hx => h x (List.mem_append_left _ hx),
    Terminal.plain_spot cfg a.visit fun x hx => h x (List.mem_append_right _ hx)⟩

/-- The edges of two lines join the same nodes if and only if the lines are parallel. -/
theorem nodes_eq_nodes_iff (ha : a.Plain) (hb : b.Plain) :
    a.nodes cfg = b.nodes cfg ↔ a.Parallel cfg b := by
  obtain ⟨hat, hah⟩ := ha.spots cfg
  obtain ⟨hbt, hbh⟩ := hb.spots cfg
  rw [nodes_eq, nodes_eq, Prod.mk.injEq, Spot.node_eq_iff hat hbt, Spot.node_eq_iff hah hbh]
  constructor
  · -- both ends tell how the two networks lie to each other, so they tell the same
    rintro ⟨⟨hid, ht⟩ | ⟨x, q, hid, ht, ht'⟩ | ⟨x, q, hid, ht, ht'⟩,
      ⟨hid', hh⟩ | ⟨y, r, hid', hh, hh'⟩ | ⟨y, r, hid', hh, hh'⟩⟩
    -- of the nine pairs of cases, the lengths of the identities leave three
    · exact .beside hid ht hh
    · exact absurd (congrArg (·.text.length) hid) (Nat.ne_of_lt (Identity.length_lt_of_child hid'))
    · exact absurd (congrArg (·.text.length) hid) (Nat.ne_of_gt (Identity.length_lt_of_child hid'))
    · exact absurd (congrArg (·.text.length) hid') (Nat.ne_of_lt (Identity.length_lt_of_child hid))
    · obtain rfl := Identity.child_injective (hid.symm.trans hid')
      exact .around x q r hid ht hh ht' hh'
    · exact absurd (Identity.length_lt_of_child hid) (Nat.lt_asymm (Identity.length_lt_of_child hid'))
    · exact absurd (congrArg (·.text.length) hid') (Nat.ne_of_gt (Identity.length_lt_of_child hid))
    · exact absurd (Identity.length_lt_of_child hid) (Nat.lt_asymm (Identity.length_lt_of_child hid'))
    · obtain rfl := Identity.child_injective (hid.symm.trans hid')
      exact .inside x q r hid ht hh ht' hh'
  · rintro (⟨hid, ht, hh⟩ | ⟨x, q, r, hid, ht, hh, ht', hh'⟩ | ⟨x, q, r, hid, ht, hh, ht', hh'⟩)
    · exact ⟨Or.inl ⟨hid, ht⟩, Or.inl ⟨hid, hh⟩⟩
    · exact ⟨Or.inr (Or.inl ⟨x, q, hid, ht, ht'⟩), Or.inr (Or.inl ⟨x, r, hid, hh, hh'⟩)⟩
    · exact ⟨Or.inr (Or.inr ⟨x, q, hid, ht, ht'⟩), Or.inr (Or.inr ⟨x, r, hid, hh, hh'⟩)⟩

end Line

/-! ## Edges

One edge is added for each line, and the graph does not drop any.  Which of them a reader of the
text joins is decided by the nodes alone, as the graph is strict. -/

/-- The edges of a tour are those of its visits in another order. -/
theorem Tour.edges_perm (cfg : Config) (t : Tour) :
    (t.edges cfg).Perm (t.visits.flatMap (·.edges cfg)) := by
  induction t with
  | done => exact .nil
  | visit site v inner rest ihi ihr =>
    rw [edges, visits, List.flatMap_append, List.flatMap_cons]
    exact ((ihi.append_right _).trans List.perm_append_comm).append ihr

/-- A model that compiles has one edge for each line. -/
theorem edges_perm_of_compile (h : (compile source s).outcome = .ok g) :
    g.edges.Perm ((lines source s).map (·.edge s.config)) := by
  obtain ⟨v, t, hvisits, hd⟩ := exists_drawn_of_compile h
  have hlines : (lines source s).map (·.edge s.config) =
      (visits source s).flatMap (·.edges s.config) := by
    rw [lines, List.map_flatMap]
    refine List.flatMap_congr fun v _ => ?_
    rw [v.edges_eq_map, List.map_map]
    rfl
  rw [hd.edges, hlines, hvisits, List.flatMap_cons]
  exact ((t.edges_perm s.config).append_right _).trans List.perm_append_comm

/-- The graph of a model is strict, so parallel edges are drawn as one. -/
theorem strict_of_compile (h : (compile source s).outcome = .ok g) : g.strict = true := by
  obtain ⟨network, -, -, -, rfl⟩ := compile_eq_ok h
  exact strict_run _ _

/-- The text of a model that compiles is that of a strict graph with one edge for each line. -/
theorem exists_picture_of_compile (h : (compile source s).outcome = .ok g) :
    ∃ p, Dot.read? g.toDot = some (true, p) ∧
      (p.all.flatMap (·.edges)).Perm
        ((lines source s).map fun l => Dot.legibleEdge (l.edge s.config)) := by
  have hbuilt : Built g := built_of_compileAs (compileAs_network h)
  have hedges := (edges_perm_of_compile h).map Dot.legibleEdge
  rw [List.map_map] at hedges
  exact ⟨g.picture rootId, strict_of_compile h ▸ hbuilt.read?_toDot,
    hbuilt.edges_perm.trans hedges⟩

/-- Networks of one identity are one and the same where composites are told apart by their
names. -/
theorem nodup_ids (h : (compile source s).outcome = .ok g)
    (ha : ∀ v ∈ visits source s, Apart (compositesOf v.network)) :
    ((visits source s).map (·.id)).Nodup := by
  obtain ⟨network, hn, -, -, -⟩ := compile_eq_ok h
  have hsub : ((visits source s).map fun v => (⟨v, none⟩ : Place)).Sublist (places source s) := by
    rw [places]
    induction visits source s with
    | nil => exact List.Sublist.refl _
    | cons v vs ih => exact ((List.nil_sublist _).cons_cons _).append ih
  have hframes := List.pairwise_map.mp ((pairwise_places hn ha).sublist hsub)
  rw [List.Nodup, List.pairwise_map]
  refine hframes.imp fun {v w} hagree hid => ?_
  -- two frames do not clash
  have hname : (⟨v, none⟩ : Place).name = (⟨w, none⟩ : Place).name := by
    rw [Place.name, Place.name, hid]
    rfl
  rcases hagree.mp hname with hc | hc <;> cases hc

/-- **Parallel edges.**  Where no name that a signal or an interface port refers to has an `@`, the
graph of a model is strict and has one edge for each of them, and so has its text.  Two of the edges
join the same nodes in the same direction if and only if they are of parallel lines.  The lines of
two networks can be parallel side by side only if two composites of one network share a name, or
have one with `@`. -/
theorem parallel_of_compile (h : (compile source s).outcome = .ok g)
    (hp : ∀ l ∈ lines source s, l.Plain) :
    g.strict = true ∧ g.edges.Perm ((lines source s).map (·.edge s.config)) ∧
      (∃ p, Dot.read? g.toDot = some (true, p) ∧
        (p.all.flatMap (·.edges)).Perm
          ((lines source s).map fun l => Dot.legibleEdge (l.edge s.config))) ∧
      (lines source s).Pairwise (fun a b =>
        a.nodes s.config = b.nodes s.config ↔ a.Parallel s.config b) ∧
      ((g.edges.map fun e => (e.tail, e.head)).Nodup ↔
        (lines source s).Pairwise fun a b => ¬ a.Parallel s.config b) ∧
      ((∀ v ∈ visits source s, Apart (compositesOf v.network)) →
        ((visits source s).map (·.id)).Nodup) := by
  have hperm := edges_perm_of_compile h
  have hiff : (lines source s).Pairwise fun a b =>
      a.nodes s.config = b.nodes s.config ↔ a.Parallel s.config b :=
    List.Pairwise.imp_of_mem (fun ha hb _ => Line.nodes_eq_nodes_iff (hp _ ha) (hp _ hb))
      (List.pairwise_of_forall fun _ _ => trivial)
  refine ⟨strict_of_compile h, hperm, exists_picture_of_compile h, hiff, ?_, nodup_ids h⟩
  rw [(hperm.map fun e => (e.tail, e.head)).nodup_iff, List.map_map, List.Nodup, List.pairwise_map]
  exact ⟨fun hn => (hn.and hiff).imp fun hab hc => hab.1 (hab.2.mpr hc),
    fun hn => (hn.and hiff).imp fun hab he => hab.1 (hab.2.mp he)⟩

/-- Two signals between two leaf processes, from one port to another and from a second one to a
second one. -/
def signalSource : Source
  | ⟨"top.xml"⟩ => .ok ("<process_network><leaf_process name=\"a\"/><leaf_process name=\"b\"/>"
      ++ "<signal source=\"a\" source_port=\"o\" target=\"b\" target_port=\"i\"/>"
      ++ "<signal source=\"a\" source_port=\"p\" target=\"b\" target_port=\"j\"/>"
      ++ "</process_network>")
  | path => .error ⟨["Nothing at " ++ path.text]⟩

/-- The model can be used, its bindings differ and have no mark, and yet both signals join the same
nodes. -/
theorem signal_lines : usable signalSource sampleSettings = true ∧
    (∀ v ∈ visits signalSource sampleSettings,
      ((v.wires sampleSettings.config).map Wire.binding).Nodup) ∧
    (∀ l ∈ lines signalSource sampleSettings, l.Plain) ∧
    (lines signalSource sampleSettings).map (·.nodes sampleSettings.config) =
      [("top@a", "top@b"), ("top@a", "top@b")] := by
  decide +kernel

/-- So the two lines are parallel in the sense of the theorem. -/
theorem parallel_of_compile_signals :
    ∃ g, (compile signalSource sampleSettings).outcome = .ok g ∧
      (∀ l ∈ lines signalSource sampleSettings, l.Plain) ∧ g.strict = true ∧
      g.edges.Perm ((lines signalSource sampleSettings).map (·.edge sampleSettings.config)) ∧
      (lines signalSource sampleSettings).Pairwise fun a b =>
        a.nodes sampleSettings.config = b.nodes sampleSettings.config ↔
          a.Parallel sampleSettings.config b := by
  obtain ⟨husable, -, hplain, -⟩ := signal_lines
  obtain ⟨g, hg⟩ := compile_ok_iff.mpr husable
  obtain ⟨hstrict, hedges, -, hiff, -⟩ := parallel_of_compile hg hplain
  exact ⟨g, hg, hplain, hstrict, hedges, hiff⟩

/-- Two signals from a port of a process, where the mark stands once in the name of the port and
once in that of the process. -/
def markSource : Source
  | ⟨"top.xml"⟩ => .ok ("<process_network><signal source=\"p\" source_port=\"q@r\"/>"
      ++ "<signal source=\"p@q\" source_port=\"r\"/></process_network>")
  | path => .error ⟨["Nothing at " ++ path.text]⟩

/-- With a mark in a name, the cuts can be made in two ways. -/
theorem mark_lines : usable markSource sampleSettings = true ∧
    (∀ v ∈ visits markSource sampleSettings,
      ((v.wires sampleSettings.config).map Wire.binding).Nodup) ∧
    (lines markSource sampleSettings).map (·.nodes sampleSettings.config) =
      [("top@p@q@r", "top@@"), ("top@p@q@r", "top@@")] := by
  decide +kernel

/-- If two lines join the same nodes, the edges do not tell all lines apart. -/
theorem not_nodup_of_nodes (h : (compile source s).outcome = .ok g) {x : String × String}
    (hl : (lines source s).map (·.nodes s.config) = [x, x]) :
    ¬ (g.edges.map fun e => (e.tail, e.head)).Nodup := by
  have hperm := (edges_perm_of_compile h).map fun e => (e.tail, e.head)
  have hnodes : ((lines source s).map (·.edge s.config)).map (fun e => (e.tail, e.head)) =
      [x, x] := by
    rw [← hl, List.map_map]
    rfl
  rw [hperm.nodup_iff, hnodes]
  simp

/-- Different bindings do not keep all edges of the strict graph from joining the same nodes: not
where processes are drawn as nodes, and not where names have an `@`. -/
theorem exists_parallel_edges :
    (∃ g, (compile signalSource sampleSettings).outcome = .ok g ∧ g.strict = true ∧
      (∀ v ∈ visits signalSource sampleSettings,
        ((v.wires sampleSettings.config).map Wire.binding).Nodup) ∧
      ¬ (g.edges.map fun e => (e.tail, e.head)).Nodup) ∧
    ∃ g, (compile markSource sampleSettings).outcome = .ok g ∧ g.strict = true ∧
      (∀ v ∈ visits markSource sampleSettings,
        ((v.wires sampleSettings.config).map Wire.binding).Nodup) ∧
      ¬ (g.edges.map fun e => (e.tail, e.head)).Nodup := by
  obtain ⟨husable, hbindings, -, hnodes⟩ := signal_lines
  obtain ⟨husable', hbindings', hnodes'⟩ := mark_lines
  obtain ⟨g, hg⟩ := compile_ok_iff.mpr husable
  obtain ⟨g', hg'⟩ := compile_ok_iff.mpr husable'
  exact ⟨⟨g, hg, strict_of_compile hg, hbindings, not_nodup_of_nodes hg hnodes⟩,
    g', hg', strict_of_compile hg', hbindings', not_nodup_of_nodes hg' hnodes'⟩

end NetPlot.Network
