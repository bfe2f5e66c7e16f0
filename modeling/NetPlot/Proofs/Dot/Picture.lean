/-
  The picture of a graph, and what is in it.

  1. **Program** — `Graph.picture` is what a reader should find of a region: all that is in the
     graph, with carriage returns left out.  `Graph.inside` lists the regions that a region holds,
     itself first; `Picture.all` does the same for pictures.

  2. **Reading** — the items of a region fill its picture (`complete?_statements`).

  3. **Counting** — in a sound graph, the root holds every region once (`inside_rootId_perm`), so
     the picture of a graph that is built has every region, node and edge once (`regions_perm`,
     `nodes_perm`, `edges_perm`).
-/
import NetPlot.Proofs.Dot.Parsing
import Mathlib.Data.List.Perm.Basic

namespace NetPlot

namespace Dot

open NetPlot.Graph

mutual

/-- A picture and all pictures inside of it, outermost first. -/
def Picture.all : Picture → List Picture
  | ⟨name, attributes, nodes, regions, edges⟩ =>
    ⟨name, attributes, nodes, regions, edges⟩ :: allIn regions

/-- Pictures and all pictures inside of them. -/
def Picture.allIn : List Picture → List Picture
  | [] => []
  | p :: ps => p.all ++ allIn ps

end

/-- A picture with all that another one holds. -/
def Picture.fill (p q : Picture) : Picture :=
  ⟨p.name, p.attributes ++ q.attributes, p.nodes ++ q.nodes, p.regions ++ q.regions,
    p.edges ++ q.edges⟩

/-- A node as it is read back. -/
def legibleNode (n : Node) : String × Entries :=
  (legible n.name, legibleEntries n.attributes.entries)

/-- An edge as it is read back. -/
def legibleEdge (e : Edge) : String × String × Entries :=
  (legible e.tail, legible e.head, legibleEntries e.attributes.entries)

end Dot

namespace Graph

open NetPlot.Dot

/-- What a reader should find of the part of a graph inside region `r`. -/
def picture (g : Graph) (r : RegionId) : Picture :=
  { name := legible (((g.region? r).map (·.name)).getD "")
    attributes := legibleEntries (((g.region? r).map (·.attributes)).getD (∅ : Attributes)).entries
    nodes := (g.nodesIn r).map legibleNode
    regions := (g.children r).attach.map fun i => g.picture i.1
    edges := (g.edgesIn r).map legibleEdge }
termination_by g.regions.length - r
decreasing_by
  have h := lt_of_mem_children i.2
  exact Nat.sub_lt_sub_left (Nat.lt_trans h.1 h.2) h.1

/-- Region `r` and all regions inside of it, outermost first. -/
def inside (g : Graph) (r : RegionId) : List RegionId :=
  r :: (g.children r).attach.flatMap fun i => g.inside i.1
termination_by g.regions.length - r
decreasing_by
  have h := lt_of_mem_children i.2
  exact Nat.sub_lt_sub_left (Nat.lt_trans h.1 h.2) h.1

/-- The equation of the recursion, without the proofs that carry its termination. -/
theorem picture_eq (g : Graph) (r : RegionId) :
    g.picture r =
      { name := legible (((g.region? r).map (·.name)).getD "")
        attributes :=
          legibleEntries (((g.region? r).map (·.attributes)).getD (∅ : Attributes)).entries
        nodes := (g.nodesIn r).map legibleNode
        regions := (g.children r).map g.picture
        edges := (g.edgesIn r).map legibleEdge } := by
  rw [picture]
  congr 1
  exact List.attach_map_val (f := g.picture)

theorem inside_eq (g : Graph) (r : RegionId) :
    g.inside r = r :: (g.children r).flatMap g.inside := by
  rw [inside, List.flatMap_def, List.flatMap_def, List.attach_map_val (f := g.inside)]

end Graph

namespace Dot

open NetPlot.Graph

/-! ## Reading

By induction along the statements of a region: an item of the region itself goes into its picture,
and a block goes in as a picture that has been read before. -/

/-- Items that each put one more entry into a list of a picture. -/
theorem complete?_map {α β : Type} {f : α → Statement} {e : α → β} {q : List β → Picture}
    {outer : List Picture}
    (h : ∀ a bs rest, (q bs).complete? outer (itemOf (f a) :: rest) =
      (q (bs ++ [e a])).complete? outer rest)
    (as : List α) (bs : List β) (rest : List Item) :
    (q bs).complete? outer ((as.map f).map itemOf ++ rest) =
      (q (bs ++ as.map e)).complete? outer rest := by
  induction as generalizing bs with
  | nil => simp
  | cons a as ih =>
    rw [List.map_cons, List.map_cons, List.cons_append, h, ih, List.append_assoc]
    rfl

/-- Subgraphs are read one after the other, if each is read as its picture. -/
theorem complete?_subgraphs (g : Graph) {is : List RegionId}
    (h : ∀ i ∈ is, ∀ (p : Picture) (outer : List Picture) (rest : List Item),
      p.complete? outer ((g.statements i).map itemOf ++ rest) =
        (p.fill (g.picture i)).complete? outer rest)
    (p : Picture) (outer : List Picture) (rest : List Item) :
    p.complete? outer ((is.flatMap fun i =>
        Statement.subgraph (g.block i).name (g.statements i)).map itemOf ++ rest) =
      Picture.complete? { p with regions := p.regions ++ is.map g.picture } outer rest := by
  induction is generalizing p with
  | nil =>
    obtain ⟨name, attributes, nodes, regions, edges⟩ := p
    simp
  | cons i is ih =>
    have hi := h i List.mem_cons_self
    have ih := ih fun j hj => h j (List.mem_cons_of_mem i hj)
    have hname : (Picture.blank (legible (g.block i).name)).fill (g.picture i) = g.picture i := by
      rw [picture_eq, block_eq]
      rfl
    rw [List.flatMap_cons, List.map_append, List.append_assoc, Statement.subgraph,
      List.map_append, List.append_assoc, List.map_cons, List.cons_append]
    -- the subgraph is opened, filled and closed
    show (Picture.blank (legible (g.block i).name)).complete? (p :: outer) _ = _
    rw [hi, hname]
    refine (ih { p with regions := p.regions ++ [g.picture i] }).trans ?_
    rw [List.append_assoc]
    rfl

/-- The items of a region fill a picture with the picture of the region. -/
theorem complete?_statements (g : Graph) (r : RegionId) (p : Picture) (outer : List Picture)
    (rest : List Item) :
    p.complete? outer ((g.statements r).map itemOf ++ rest) =
      (p.fill (g.picture r)).complete? outer rest := by
  induction r using statements.induct g generalizing p outer rest with
  | case1 r ih =>
    have hc : ∀ i ∈ g.children r, ∀ (p : Picture) (outer : List Picture) (rest : List Item),
        p.complete? outer ((g.statements i).map itemOf ++ rest) =
          (p.fill (g.picture i)).complete? outer rest :=
      fun i hi p outer rest => ih ⟨i, hi⟩ p outer rest
    rw [statements_eq, List.map_append, List.map_append, List.map_append, List.append_assoc,
      List.append_assoc, List.append_assoc]
    obtain ⟨name, attributes, nodes, regions, edges⟩ := p
    -- the four parts of a block fill the four fields, one after the other
    refine (complete?_map (f := .attribute) (e := fun e => (e.1, legible e.2))
      (q := (⟨name, ·, nodes, regions, edges⟩)) (fun _ _ _ => rfl) _ attributes _).trans ?_
    refine (complete?_map (f := .node) (e := legibleNode)
      (q := (⟨name, _, ·, regions, edges⟩)) (fun _ _ _ => rfl) _ nodes _).trans ?_
    refine (complete?_subgraphs g hc _ _ _).trans ?_
    refine (complete?_map (f := .edge) (e := legibleEdge)
      (q := (⟨name, _, _, _, ·⟩)) (fun _ _ _ => rfl) _ edges _).trans ?_
    rw [picture_eq, block_eq]
    rfl

end Dot

namespace Graph

open NetPlot.Dot

/-! ## Counting

In a sound graph a region is in one region with a smaller number.  So each is reached from the root
in one way, and nothing is listed twice or left out. -/

/-- The list has just the regions that are enclosed. -/
theorem mem_inside_iff {g : Graph} {r x : RegionId} : x ∈ g.inside r ↔ g.Encloses r x := by
  induction r using statements.induct g with
  | case1 r ih =>
    -- a region inside is the region itself or inside of one of its children
    rw [inside_eq, List.mem_cons, List.mem_flatMap]
    constructor
    · rintro (rfl | ⟨i, hi, hx⟩)
      · exact .refl
      · exact .head hi ((ih ⟨i, hi⟩).mp hx)
    · intro h
      rcases Relation.ReflTransGen.cases_head h with rfl | ⟨i, hi, hx⟩
      · exact Or.inl rfl
      · exact Or.inr ⟨i, hi, (ih ⟨i, hi⟩).mpr hx⟩

/-- No region is listed twice. -/
theorem inside_nodup (g : Graph) (r : RegionId) : (g.inside r).Nodup := by
  induction r using statements.induct g with
  | case1 r ih =>
    rw [inside_eq, List.nodup_cons, List.mem_flatMap]
    refine ⟨?_, ?_⟩
    · rintro ⟨i, hi, hr⟩
      exact absurd (mem_inside_iff.mp hr).le (Nat.not_le.mpr (lt_of_mem_children hi).1)
    · have hne : (g.children r).Pairwise (· ≠ ·) := List.nodup_range.filter _
      rw [List.Nodup, List.pairwise_flatMap]
      refine ⟨fun i hi => ih ⟨i, hi⟩, hne.imp_of_mem fun hi hj hij x hxi y hyj hxy => hij ?_⟩
      subst hxy
      -- two regions side by side hold nothing in common
      exact eq_of_encloses hi hj (mem_inside_iff.mp hxi) (mem_inside_iff.mp hyj)

/-- The root holds every region of a sound graph. -/
theorem Sound.encloses {g : Graph} (h : g.Sound) (i : Nat) (hi : i < g.nextRegion) :
    g.Encloses rootId i := by
  induction i using Nat.strongRecOn with
  | ind i ih =>
    by_cases h0 : i = 0
    · subst h0
      exact .refl
    · have hx : g.region? i = some g.regions[i] := List.getElem?_eq_getElem hi
      -- the region around it has a smaller number, so the root holds that one
      obtain ⟨p, hp, hlt⟩ := h.parent hx h0
      exact (ih p hlt (Nat.lt_trans hlt hi)).tail (mem_children_iff.mpr ⟨hlt, _, hx, hp⟩)

/-- The root holds every region once. -/
theorem Sound.inside_rootId_perm {g : Graph} (h : g.Sound) :
    (g.inside rootId).Perm (List.range g.nextRegion) := by
  refine (List.perm_ext_iff_of_nodup (g.inside_nodup _) List.nodup_range).mpr fun i => ?_
  rw [mem_inside_iff, List.mem_range]
  refine ⟨fun hi => ?_, h.encloses i⟩
  rcases Relation.ReflTransGen.cases_tail hi with rfl | ⟨p, -, hc⟩
  · exact Nat.succ_pos _
  · exact (lt_of_mem_children hc).2

/-- The pictures inside of the picture of a region are those of the regions inside of it. -/
theorem all_picture (g : Graph) (r : RegionId) :
    (g.picture r).all = (g.inside r).map g.picture := by
  induction r using statements.induct g with
  | case1 r ih =>
    -- several regions one after the other, each as the induction on the regions has it
    have hin : ∀ is : List RegionId, (∀ i ∈ is, (g.picture i).all = (g.inside i).map g.picture) →
        Picture.allIn (is.map g.picture) = (is.flatMap g.inside).map g.picture := by
      intro is his
      induction is with
      | nil => rfl
      | cons i is ihs =>
        rw [List.map_cons, Picture.allIn, his i List.mem_cons_self,
          ihs fun j hj => his j (List.mem_cons_of_mem i hj), List.flatMap_cons, List.map_append]
    rw [inside_eq, List.map_cons, ← hin _ fun i hi => ih ⟨i, hi⟩, picture_eq g r, Picture.all]

/-- Things that are sorted by a number are all there, each once. -/
theorem flatMap_filter_perm {α : Type} (key : α → Nat) (as : List α) (n : Nat) :
    ((List.range n).flatMap fun i => as.filter (key · == i)).Perm (as.filter (key · < n)) := by
  induction n with
  | zero => simp
  | succ n ih =>
    have hlt : (as.filter (key · < n + 1)).filter (key · < n) = as.filter (key · < n) := by
      rw [List.filter_filter]
      exact List.filter_congr fun a _ => by grind
    have heq : (as.filter (key · < n + 1)).filter (fun a => !decide (key a < n)) =
        as.filter (key · == n) := by
      rw [List.filter_filter]
      exact List.filter_congr fun a _ => by grind
    -- below `n + 1` there is what is below `n`, and then what is at `n`
    have hsplit := List.filter_append_perm (key · < n) (as.filter (key · < n + 1))
    rw [hlt, heq] at hsplit
    rw [List.range_succ, List.flatMap_append, List.flatMap_singleton]
    exact (ih.append_right _).trans hsplit

/-- What the regions of a sound graph hold, one after the other, is all there is. -/
theorem Sound.flatMap_inside_perm {g : Graph} (h : g.Sound) {α : Type} {k : α → Nat}
    {as : List α} (ha : ∀ a ∈ as, k a < g.nextRegion) :
    ((g.inside rootId).flatMap fun i => as.filter (k · == i)).Perm as := by
  have hall : as.filter (k · < g.nextRegion) = as :=
    List.filter_eq_self.mpr fun a hm => decide_eq_true (ha a hm)
  have hp := flatMap_filter_perm k as g.nextRegion
  rw [hall] at hp
  exact (h.inside_rootId_perm.flatMap_right _).trans hp

/-- The picture of a graph that is built has every region once. -/
theorem Built.regions_perm {g : Graph} (h : Built g) :
    ((g.picture rootId).all.map fun p => (p.name, p.attributes)).Perm
      (g.regions.map fun x => (legible x.name, legibleEntries x.attributes.entries)) := by
  rw [all_picture, List.map_map]
  refine (h.sound.inside_rootId_perm.map _).trans ?_
  refine .of_eq (List.ext_getElem (by simp [nextRegion]) ?_)
  intro i hi hi'
  have hl : i < g.regions.length := by simpa using hi'
  have hx : g.region? i = some g.regions[i] := List.getElem?_eq_getElem hl
  simp [picture_eq, hx]

/-- The picture of a graph that is built has every node once. -/
theorem Built.nodes_perm {g : Graph} (h : Built g) :
    ((g.picture rootId).all.flatMap (·.nodes)).Perm (g.nodes.map legibleNode) := by
  have hp := (h.sound.flatMap_inside_perm (k := Node.region) h.sound.nodes).map legibleNode
  rw [List.map_flatMap] at hp
  rw [all_picture, List.flatMap_map]
  refine (List.Perm.of_eq ?_).trans hp
  exact List.flatMap_congr fun i _ => by rw [picture_eq, nodesIn]

/-- The picture of a graph that is built has every edge once. -/
theorem Built.edges_perm {g : Graph} (h : Built g) :
    ((g.picture rootId).all.flatMap (·.edges)).Perm (g.edges.map legibleEdge) := by
  have hp := (h.sound.flatMap_inside_perm (k := Edge.region) h.sound.edges).map legibleEdge
  rw [List.map_flatMap] at hp
  rw [all_picture, List.flatMap_map]
  refine (List.Perm.of_eq ?_).trans hp
  exact List.flatMap_congr fun i _ => by rw [picture_eq, edgesIn]

end Graph

end NetPlot
