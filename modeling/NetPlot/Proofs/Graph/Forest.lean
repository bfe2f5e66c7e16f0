/-
  The regions of a graph as a forest.

  1. **Data** — a `Forest` is an ordered forest of regions, each with its name, its fill and the
     forest inside of it; `listed` numbers it, a region before what is inside of it.

  2. **Program** — `Graph.forest` reads the forest inside of a region off the graph, through
     `children`.

  3. **Reading back** — regions that were created in the order of `listed` are read back as the
     forest that they came from (`forest_eq_of_listed`).
-/
import NetPlot.Graph.Basic

namespace NetPlot.Graph

/-- Regions in order, each with its name, its fill and the regions inside of it. -/
inductive Forest where
  | empty
  | region (name : String) (fill : Option String) (inside after : Forest)

/-- A region as it is shown: its name, its fill and the region around it. -/
abbrev Shown := String × Option String × Option RegionId

/-- What is shown of a region. -/
def Region.shown (r : Region) : Shown := (r.name, r.attributes.get? "fillcolor", r.parent)

namespace Forest

/-- The number of regions. -/
def size : Forest → Nat
  | empty => 0
  | region _ _ inside after => 1 + inside.size + after.size

/-- The regions of a forest inside `parent`, numbered from `n` on. -/
def listed (parent n : Nat) : Forest → List Shown
  | empty => []
  | region name fill inside after =>
    (name, fill, some parent) :: inside.listed n (n + 1)
      ++ after.listed parent (n + 1 + inside.size)

/-- The forest of regions given with what is inside of each. -/
def ofList : List ((String × Option String) × Forest) → Forest
  | [] => empty
  | ((name, fill), inside) :: rest => region name fill inside (ofList rest)

theorem length_listed (parent n : Nat) (f : Forest) : (f.listed parent n).length = f.size := by
  induction f generalizing parent n with
  | empty => rfl
  | region name fill inside after ihi iha =>
    rw [listed, List.length_append, List.length_cons, ihi, iha, size, Nat.add_comm 1]

/-- A region of a forest is inside of `parent` or of a region of the forest. -/
theorem parent_of_mem_listed {parent n : Nat} {f : Forest} {x : Shown}
    (h : x ∈ f.listed parent n) :
    x.2.2 = some parent ∨ ∃ q : Nat, x.2.2 = some q ∧ n ≤ q ∧ q < n + f.size := by
  induction f generalizing parent n with
  | empty => exact absurd h List.not_mem_nil
  | region name fill inside after ihi iha =>
    rw [listed, List.mem_append, List.mem_cons] at h
    rw [size]
    -- the first region, one inside of it, or one that comes after
    rcases h with (rfl | h) | h
    · exact Or.inl rfl
    · rcases ihi h with hq | ⟨q, hq, hl, hu⟩
      · exact Or.inr ⟨n, hq, by omega, by omega⟩
      · exact Or.inr ⟨q, hq, by omega, by omega⟩
    · rcases iha h with hq | ⟨q, hq, hl, hu⟩
      · exact Or.inl hq
      · exact Or.inr ⟨q, hq, by omega, by omega⟩

end Forest

/-! ## Reading a forest

A region has a larger number than the one around it, which is why the recursion ends.  To follow the
list from left to right, `childrenFrom` asks for the children from a number on. -/

/-- What is shown of a region but for the region around it. -/
def nameAndFill (g : Graph) (r : RegionId) : String × Option String :=
  ((g.region? r).map fun x => (x.name, x.attributes.get? "fillcolor")).getD ("", none)

/-- The regions inside region `r`. -/
def forest (g : Graph) (r : RegionId) : Forest :=
  .ofList ((g.children r).attach.map fun i => (g.nameAndFill i.1, g.forest i.1))
termination_by g.regions.length - r
decreasing_by
  have h := lt_of_mem_children i.2
  exact Nat.sub_lt_sub_left (Nat.lt_trans h.1 h.2) h.1

/-- The equation of the recursion, without the proofs that carry its termination. -/
theorem forest_eq (g : Graph) (r : Nat) :
    g.forest r = .ofList ((g.children r).map fun i => (g.nameAndFill i, g.forest i)) := by
  rw [forest]
  exact congrArg Forest.ofList (List.attach_map_val (f := fun i => (g.nameAndFill i, g.forest i)))

/-- The regions directly inside `p` that have at least the number `n`. -/
def childrenFrom (g : Graph) (p n : Nat) : List RegionId :=
  (List.range' n (g.regions.length - n)).filter fun i =>
    (g.region? i).any fun x => x.parent == some p

/-- One number further: the region with this number is a child, or it is passed over. -/
theorem childrenFrom_eq {g : Graph} {n : Nat} {x : Region} (h : g.region? n = some x)
    (p : Nat) :
    g.childrenFrom p n =
      if x.parent = some p then n :: g.childrenFrom p (n + 1) else g.childrenFrom p (n + 1) := by
  have hn : n < g.regions.length := (List.getElem?_eq_some_iff.mp h).1
  have hl : g.regions.length - n = g.regions.length - (n + 1) + 1 := by omega
  rw [childrenFrom, hl, List.range'_succ, List.filter_cons, h, Option.any_some]
  by_cases hp : x.parent = some p
  · simp [hp, childrenFrom]
  · simp [hp, childrenFrom]

/-- Regions that are elsewhere are passed over. -/
theorem childrenFrom_add {g : Graph} {p n k : Nat}
    (h : ∀ i x, n ≤ i → i < n + k → g.region? i = some x → x.parent ≠ some p) :
    g.childrenFrom p n = g.childrenFrom p (n + k) := by
  induction k generalizing n with
  | zero => rfl
  | succ k ih =>
    have hs : g.childrenFrom p (n + 1) = g.childrenFrom p (n + 1 + k) :=
      ih fun i x hl hu => h i x (by omega) (by omega)
    rw [show n + (k + 1) = n + 1 + k by omega, ← hs]
    -- where the numbers have run out both sides are empty
    cases hx : g.region? n with
    | none =>
      have hn : g.regions.length ≤ n := List.getElem?_eq_none_iff.mp hx
      simp [childrenFrom, Nat.sub_eq_zero_of_le hn, Nat.sub_eq_zero_of_le (Nat.le_succ_of_le hn)]
    | some x => rw [childrenFrom_eq hx, if_neg (h n x (Nat.le_refl n) (by omega) hx)]

/-- No region up to `r` is inside of `r`, so its children begin behind it. -/
theorem children_eq_childrenFrom (g : Graph) (r : Nat) :
    g.children r = g.childrenFrom r (r + 1) := by
  -- among the numbers past the region its own test adds nothing
  have hc : ∀ n, r + 1 ≤ n → g.childrenFrom r n =
      (List.range' n (g.regions.length - n)).filter fun i =>
        r < i && (g.region? i).any fun x => x.parent == some r := by
    intro n hn
    refine List.filter_congr fun i hi => ?_
    have hi : r < i := Nat.lt_of_succ_le (Nat.le_trans hn (List.mem_range'_1.mp hi).1)
    simp [hi]
  rw [hc _ (Nat.le_refl _), children, List.range_eq_range']
  by_cases hr : r + 1 ≤ g.regions.length
  · -- the numbers up to `r` are not larger than `r`
    have hs : g.regions.length = (r + 1) + (g.regions.length - (r + 1)) := by omega
    rw [hs, ← List.range'_append_1, List.filter_append, Nat.zero_add, Nat.add_sub_cancel_left]
    refine (congrArg (· ++ _) (List.filter_eq_nil_iff.mpr fun i hi => ?_)).trans
      (List.nil_append _)
    have hi : ¬ r < i := by have := (List.mem_range'_1.mp hi).2; omega
    simp [hi]
  · rw [Nat.sub_eq_zero_of_le (by omega), List.range'_zero, List.filter_nil,
      List.filter_eq_nil_iff]
    intro i hi
    have hi : ¬ r < i := by have := (List.mem_range'_1.mp hi).2; omega
    simp [hi]

/-! ## Reading back

The induction is on the forest, at the place in the list where it begins.  What comes after must not
be inside of any of its regions (`Outside`); this is the condition that is carried along, and what
lies behind the first region and what is inside of it takes the part of the list that follows. -/

/-- A number that falls into a part of the list is that of a region from that part. -/
theorem shown_region? {g : Graph} {before middle after : List Shown}
    (h : g.regions.map Region.shown = before ++ (middle ++ after)) {i : Nat}
    (hl : before.length ≤ i) (hu : i < before.length + middle.length) :
    (g.region? i).map Region.shown = middle[i - before.length]? := by
  rw [region?, ← List.getElem?_map, h, List.getElem?_append_right hl,
    List.getElem?_append_left (by omega)]

/-- A number in the middle part of the list is that of a region shown there. -/
theorem exists_shown_mem {g : Graph} {before middle after : List Shown}
    (h : g.regions.map Region.shown = before ++ (middle ++ after)) {i : Nat}
    (hl : before.length ≤ i) (hu : i < before.length + middle.length) :
    ∃ x, g.region? i = some x ∧ x.shown ∈ middle := by
  have hi := shown_region? h hl hu
  have hlt : i - before.length < middle.length := by omega
  rw [List.getElem?_eq_getElem hlt] at hi
  obtain ⟨x, hx, he⟩ := Option.map_eq_some_iff.mp hi
  exact ⟨x, hx, he ▸ List.getElem_mem hlt⟩

/-- A part of the list without regions directly inside of `p` is passed over. -/
theorem childrenFrom_of_listed {g : Graph} {p n : Nat} {before middle after : List Shown}
    (h : g.regions.map Region.shown = before ++ (middle ++ after)) (hn : before.length = n)
    (hm : ∀ x ∈ middle, x.2.2 ≠ some p) :
    g.childrenFrom p n = g.childrenFrom p (n + middle.length) := by
  refine childrenFrom_add fun i x hl hu hx hp => ?_
  obtain ⟨y, hy, hs⟩ := exists_shown_mem h (hn ▸ hl) (hn ▸ hu)
  obtain rfl : x = y := Option.some.inj (hx.symm.trans hy)
  exact hm _ hs hp

/-- No region of the list is inside of `p` or of one of the `k` regions from `n` on. -/
def Outside (p n k : Nat) (others : List Shown) : Prop :=
  ∀ x ∈ others, ∀ q : Nat, x.2.2 = some q → q ≠ p ∧ ¬ (n ≤ q ∧ q < n + k)

/-- What is listed after the `k` regions inside of region `n` is outside of them. -/
theorem Outside.listed_append {p n k : Nat} {f : Forest} {others : List Shown}
    (h : Outside p n (1 + k + f.size) others) (hp : p < n) :
    Outside n (n + 1) k (f.listed p (n + 1 + k) ++ others) := by
  intro x hx q hq
  rcases List.mem_append.mp hx with hx | hx
  · rcases Forest.parent_of_mem_listed hx with hxp | ⟨r, hxr, hl, _⟩
    · have hqp : q = p := Option.some.inj (hq.symm.trans hxp)
      omega
    · have hqr : q = r := Option.some.inj (hq.symm.trans hxr)
      omega
  · have hx := h x hx q hq
    omega

/-- Where a forest is listed, the regions of its parent from there on are read as that forest. -/
theorem ofList_childrenFrom {g : Graph} {f : Forest} {p n : Nat} {before after : List Shown}
    (h : g.regions.map Region.shown = before ++ (f.listed p n ++ after)) (hn : before.length = n)
    (hp : p < n) (ha : Outside p n f.size after) :
    .ofList ((g.childrenFrom p n).map fun i => (g.nameAndFill i, g.forest i)) = f := by
  induction f generalizing p n before after with
  | empty =>
    -- nothing is left inside of `p`
    rw [Forest.listed, List.nil_append, ← List.append_nil after] at h
    have hl := congrArg List.length h
    rw [List.length_map, List.length_append, List.append_nil, hn] at hl
    rw [childrenFrom_of_listed h hn fun x hx hxp => (ha x hx p hxp).1 rfl, childrenFrom, hl,
      Nat.sub_self]
    rfl
  | region name fill inside rest ihi ihr =>
    rw [Forest.size] at ha
    have hf : g.regions.map Region.shown = before ++ ([(name, fill, some p)] ++
        (inside.listed n (n + 1) ++ (rest.listed p (n + 1 + inside.size) ++ after))) := by
      rw [h, Forest.listed]
      simp
    have hi := hf
    rw [← List.append_assoc] at hi
    have hr := hi
    rw [← List.append_assoc] at hr
    have hni : (before ++ [(name, fill, some p)]).length = n + 1 := by simp [hn]
    -- the first region has the number `n`, and no region inside of it is a child of `p`
    obtain ⟨x, hx, hm⟩ := exists_shown_mem hf (Nat.le_of_eq hn) (hn ▸ Nat.lt_succ_self n)
    have he : x.shown = (name, fill, some p) := List.mem_singleton.mp hm
    have hxp : x.parent = some p := congrArg (fun x : Shown => x.2.2) he
    have hl : g.nameAndFill n = (name, fill) := by
      rw [nameAndFill, hx]
      exact congrArg (fun x : Shown => (x.1, x.2.1)) he
    have hskip : g.childrenFrom p (n + 1) = g.childrenFrom p (n + 1 + inside.size) := by
      rw [childrenFrom_of_listed hi hni, Forest.length_listed]
      intro y hy hyp
      rcases Forest.parent_of_mem_listed hy with hq | ⟨q, hq, hql, _⟩
      · have hpn : p = n := Option.some.inj (hyp.symm.trans hq)
        omega
      · have hpq : p = q := Option.some.inj (hyp.symm.trans hq)
        omega
    have hin : g.forest n = inside := by
      rw [forest_eq, children_eq_childrenFrom]
      exact ihi hi hni (Nat.lt_succ_self n) (ha.listed_append hp)
    have hrest := ihr hr (by rw [List.length_append, hni, Forest.length_listed]) (by omega)
      fun y hy q hq => by have hy := ha y hy q hq; omega
    rw [childrenFrom_eq hx, if_pos hxp, hskip, List.map_cons, hl, hin, Forest.ofList, hrest]

/-- Regions created in the order of a forest are read back as that forest. -/
theorem forest_eq_of_listed {g : Graph} {f : Forest} {x : Shown}
    (h : g.regions.map Region.shown = x :: f.listed rootId 1) : g.forest rootId = f := by
  have hl : g.regions.map Region.shown = [x] ++ (f.listed rootId 1 ++ []) := by
    rw [h, List.append_nil]
    rfl
  rw [forest_eq, children_eq_childrenFrom]
  exact ofList_childrenFrom hl rfl (Nat.lt_succ_self 0) fun _ hy => absurd hy List.not_mem_nil

end NetPlot.Graph
