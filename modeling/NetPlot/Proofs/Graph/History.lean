/-
  What a graph keeps of its mentions.

  1. **Places** — a node is in the region of one of its mentions (`exists_mention_of_mem`).

  2. **Merging** — the attributes of a node are those of all its mentions, merged in order
     (`attributesIn_mentionAll`).  Mentions without attributes do not count
     (`foldl_merge_filter`).

  3. **One source** — where one mention alone brings attributes, the node has exactly these, no
     matter which mentions came before it (`find?_of_filter`).
-/
import NetPlot.Proofs.Graph.Attributes
import NetPlot.Proofs.Graph.Sound

namespace NetPlot.Graph

/-! ## Places -/

/-- A node has the name and the region of one of its mentions. -/
theorem exists_mention_of_mem {ns ms : List Node} {n : Node} (h : n ∈ mentionAll ns ms) :
    ∃ m ∈ ns ++ ms, m.name = n.name ∧ m.region = n.region := by
  induction ms generalizing ns with
  | nil => exact ⟨n, List.mem_append_left _ h, rfl, rfl⟩
  | cons k ms ih =>
    obtain ⟨m, hm, hname, hregion⟩ := ih h
    rcases List.mem_append.mp hm with hm | hm
    · -- it was there before `k`, or is `k` itself; merging moves nothing
      have hall : ∀ m ∈ mention k.region k.name k.attributes ns,
          ∃ j ∈ ns ++ k :: ms, j.name = m.name ∧ j.region = m.region :=
        forall_mem_mention (fun j hj => ⟨j, List.mem_append_left _ hj, rfl, rfl⟩)
          ⟨k, by simp, rfl, rfl⟩ fun _ hj => hj
      obtain ⟨j, hj, hjn, hjr⟩ := hall m hm
      exact ⟨j, hj, hjn.trans hname, hjr.trans hregion⟩
    · exact ⟨m, by simp [hm], hname, hregion⟩

/-! ## Merging

Merging by name is a fold over the mentions of that name.  Mentions of other names, and those that
bring nothing, may be left out of it. -/

namespace Attributes

/-- Merged into nothing, attributes stay as they are, the order of the keys included. -/
theorem empty_merge (a : Attributes) : (∅ : Attributes).merge a = a := by
  have he : ((∅ : Attributes).merge a).entries = a.entries :=
    entries_foldl_insert (a := ∅) a.keys_nodup
  cases h : (∅ : Attributes).merge a with
  | mk es hes =>
    rw [h] at he
    subst he
    rfl

/-- What brings nothing may be left out of a merger. -/
theorem foldl_merge_filter (as : List Attributes) (a : Attributes) :
    as.foldl merge a = (as.filter (· ≠ ∅)).foldl merge a := by
  induction as generalizing a with
  | nil => rfl
  | cons b as ih =>
    by_cases hb : b = ∅
    · rw [List.foldl_cons, hb, merge_empty, List.filter_cons_of_neg (by simp)]
      exact ih a
    · rw [List.foldl_cons, List.filter_cons_of_pos (by simpa using hb), List.foldl_cons]
      exact ih (a.merge b)

end Attributes

/-- The attributes of the node with a name; none if there is no such node. -/
def attributesIn (ns : List Node) (x : String) : Attributes :=
  ((ns.find? (named x)).map (·.attributes)).getD ∅

/-- A mention adds its attributes to the node of its name and leaves the others alone. -/
theorem attributesIn_mention (m : Node) (x : String) (ns : List Node) :
    attributesIn (mention m.region m.name m.attributes ns) x =
      if m.name = x then (attributesIn ns x).merge m.attributes else attributesIn ns x := by
  rw [attributesIn, find?_mention, attributesIn]
  split
  · cases ns.find? (named x) with
    | none => exact (Attributes.empty_merge _).symm
    | some n => rfl
  · rfl

/-- The attributes of a node are those of its mentions, merged in order. -/
theorem attributesIn_mentionAll (x : String) (ns ms : List Node) :
    attributesIn (mentionAll ns ms) x =
      ((ms.filter (named x)).map (·.attributes)).foldl Attributes.merge (attributesIn ns x) := by
  induction ms generalizing ns with
  | nil => rfl
  | cons m ms ih =>
    show attributesIn (mentionAll (mention m.region m.name m.attributes ns) ms) x = _
    rw [ih, attributesIn_mention]
    by_cases hm : m.name = x
    · rw [if_pos hm, List.filter_cons_of_pos (by simpa using hm)]
      rfl
    · rw [if_neg hm, List.filter_cons_of_neg (by simpa using hm)]

/-! ## One source

This is how a node gets its attributes in a drawing: the process or port that it is for gives them,
and all other mentions are ends of edges, which bring none. -/

/-- Where one mention alone brings attributes to a name, the node has these. -/
theorem attributesIn_of_filter {ms : List Node} {m : Node} {x : String}
    (h : (ms.filter (·.attributes ≠ ∅)).filter (named x) = [m]) :
    attributesIn (mentionAll [] ms) x = m.attributes := by
  have hswap : (ms.filter (named x)).filter (·.attributes ≠ ∅) = [m] := by
    rw [← h, List.filter_filter, List.filter_filter]
    exact List.filter_congr fun k _ => Bool.and_comm ..
  have hmap : ((ms.filter (named x)).map (·.attributes)).filter (· ≠ ∅) = [m.attributes] := by
    rw [List.filter_map]
    exact congrArg (List.map (·.attributes)) hswap
  rw [attributesIn_mentionAll, Attributes.foldl_merge_filter, hmap]
  exact Attributes.empty_merge _

/-- Such a name has a node, with these attributes. -/
theorem find?_of_filter {ms : List Node} {m : Node} {x : String}
    (h : (ms.filter (·.attributes ≠ ∅)).filter (named x) = [m]) :
    ((mentionAll [] ms).find? (named x)).map (·.attributes) = some m.attributes := by
  have hm : m ∈ (ms.filter (·.attributes ≠ ∅)).filter (named x) := by
    rw [h]
    exact List.mem_singleton_self m
  obtain ⟨hm, hx⟩ := List.mem_filter.mp hm
  -- the mention that brings attributes makes sure that there is a node
  have hname : x ∈ (mentionAll [] ms).map (·.name) :=
    mem_names_mentionAll.mpr (List.mem_map.mpr ⟨m, (List.mem_filter.mp hm).1, named_iff.mp hx⟩)
  obtain ⟨n, hn, rfl⟩ := List.mem_map.mp hname
  have hfind := find?_named_of_mem (names_mentionAll_nil_nodup ms) hn
  have hattributes := attributesIn_of_filter h
  rw [attributesIn, hfind] at hattributes
  rw [hfind]
  exact congrArg some hattributes

end NetPlot.Graph
