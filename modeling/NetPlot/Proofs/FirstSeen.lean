/-
  Lists in which everything stands once, where it was first seen.

  1. **Once** — `eraseDups` leaves a sublist (`eraseDups_sublist`) without repetition
     (`nodup_eraseDups`).

  2. **Collecting** — `collect` puts the results for several items one after the other and leaves
     out repetitions.  It may be done in two stages (`collect_collect`).

  3. **Order** — what is collected is in order when the results for each item are, and each result
     met for the first time comes after all those for the items before (`pairwise_collect`).

  The steps of a query drop repetitions in this way, and so does the list of the nodes that calls
  mention.
-/
import Mathlib.Data.List.Basic
import Mathlib.Data.List.Induction

namespace NetPlot.FirstSeen

variable {α β : Type} [BEq α] [LawfulBEq α] [BEq β] [LawfulBEq β]

/-! ## Once

`List.eraseDups` is a recursion over what comes behind an item.  A list that grows at its end needs
the equations from that side: `eraseDups_concat_of_mem` and `eraseDups_concat_of_not_mem`. -/

/-- What is taken away from a list depends only on which items are to go. -/
theorem removeAll_congr {l m m' : List α} (h : ∀ x, x ∈ m ↔ x ∈ m') :
    l.removeAll m = l.removeAll m' := by
  simp only [List.removeAll, List.elem_eq_mem, h]

/-- Nothing is left of a list whose items are all to go. -/
theorem removeAll_eq_nil {l m : List α} (h : ∀ x ∈ l, x ∈ m) : l.removeAll m = [] :=
  List.filter_eq_nil_iff.mpr fun x hx => by simpa using h x hx

/-- An item that was seen before is dropped at the end. -/
theorem eraseDups_concat_of_mem {l : List α} {x : α} (h : x ∈ l) :
    (l ++ [x]).eraseDups = l.eraseDups := by
  rw [List.eraseDups_append, removeAll_eq_nil (by simpa using h), List.eraseDups_nil,
    List.append_nil]

/-- A new item stays at the end. -/
theorem eraseDups_concat_of_not_mem {l : List α} {x : α} (h : x ∉ l) :
    (l ++ [x]).eraseDups = l.eraseDups ++ [x] := by
  rw [List.eraseDups_append]
  simp [List.removeAll, h, List.eraseDups_cons]

/-- What is left stands once.  The induction is from the right, as the list grows: the last item is
either dropped or new. -/
theorem nodup_eraseDups (l : List α) : l.eraseDups.Nodup := by
  induction l using List.reverseRecOn with
  | nil => simp
  | append_singleton l x ih =>
    by_cases h : x ∈ l
    · rwa [eraseDups_concat_of_mem h]
    · rw [eraseDups_concat_of_not_mem h, List.nodup_append]
      refine ⟨ih, by simp, fun y hy z hz => ?_⟩
      rintro rfl
      rw [List.mem_singleton] at hz
      exact h (hz ▸ List.mem_eraseDups.mp hy)

/-- Where everything stands once, nothing is dropped. -/
theorem eraseDups_of_nodup {l : List α} (h : l.Nodup) : l.eraseDups = l := by
  induction l using List.reverseRecOn with
  | nil => rfl
  | append_singleton l x ih =>
    obtain ⟨hl, -, hx⟩ := List.nodup_append.mp h
    have hnot : x ∉ l := fun hm => hx x hm x List.mem_cons_self rfl
    rw [eraseDups_concat_of_not_mem hnot, ih hl]

/-- What is left stands in the order in which it stood before. -/
theorem eraseDups_sublist (l : List α) : l.eraseDups.Sublist l := by
  induction l using List.reverseRecOn with
  | nil => exact List.Sublist.refl _
  | append_singleton l x ih =>
    by_cases h : x ∈ l
    · rw [eraseDups_concat_of_mem h]
      exact ih.trans (List.sublist_append_left l [x])
    · rw [eraseDups_concat_of_not_mem h]
      exact ih.append (List.Sublist.refl [x])

/-- What is mapped to different results stands once where its results do. -/
theorem eraseDups_map {f : α → β} (hf : Function.Injective f) (l : List α) :
    (l.map f).eraseDups = l.eraseDups.map f := by
  induction l using List.reverseRecOn with
  | nil => rfl
  | append_singleton l x ih =>
    rw [List.map_append, List.map_singleton]
    by_cases h : x ∈ l
    · rw [eraseDups_concat_of_mem h, eraseDups_concat_of_mem (List.mem_map_of_mem h), ih]
    · have hnot : f x ∉ l.map f := fun hm => h ((List.mem_map_of_injective hf).mp hm)
      rw [eraseDups_concat_of_not_mem h, eraseDups_concat_of_not_mem hnot, ih, List.map_append,
        List.map_singleton]

/-! ## Collecting

This is how a step of a query goes from its items to the next ones: the results for each item in
turn, and of each result the first occurrence only. -/

/-- The results for all items in turn, each once. -/
def collect (f : α → List β) (l : List α) : List β := (l.flatMap f).eraseDups

section

variable {f : α → List β} {l : List α}

omit [BEq α] [LawfulBEq α] in
/-- A result is collected if and only if some item has it. -/
theorem mem_collect {v : β} : v ∈ collect f l ↔ ∃ x ∈ l, v ∈ f x :=
  List.mem_eraseDups.trans List.mem_flatMap

omit [BEq α] [LawfulBEq α] in
theorem nodup_collect (f : α → List β) (l : List α) : (collect f l).Nodup := nodup_eraseDups _

omit [BEq α] [LawfulBEq α] in
theorem collect_eq_nil (h : ∀ x ∈ l, ∀ v, v ∉ f x) : collect f l = [] :=
  List.eq_nil_iff_forall_not_mem.mpr fun v hv => by
    obtain ⟨x, hx, hv⟩ := mem_collect.mp hv
    exact h x hx v hv

/-- Items that stand once and are their own only results are collected as they are. -/
theorem collect_of_singleton {f : α → List α} (h : ∀ x ∈ l, f x = [x]) (hn : l.Nodup) :
    collect f l = l := by
  rw [collect, List.flatMap_congr h, List.flatMap_singleton']
  exact eraseDups_of_nodup hn

/-- Repetitions of items only make for repetitions of the results. -/
theorem collect_eraseDups (f : α → List β) (l : List α) : collect f l.eraseDups = collect f l := by
  rw [collect, collect]
  induction l using List.reverseRecOn with
  | nil => rfl
  | append_singleton l x ih =>
    by_cases h : x ∈ l
    -- a repeated item has nothing new to add
    · have hx : ∀ y ∈ f x, y ∈ l.flatMap f := fun y hy => List.mem_flatMap.mpr ⟨x, h, hy⟩
      rw [eraseDups_concat_of_mem h, ih, List.flatMap_append, List.flatMap_singleton,
        List.eraseDups_append, removeAll_eq_nil hx, List.eraseDups_nil, List.append_nil]
    -- a new item adds the same whether or not the others have been cleared of repetitions
    · have hmem : ∀ y, y ∈ l.eraseDups.flatMap f ↔ y ∈ l.flatMap f := by simp
      rw [eraseDups_concat_of_not_mem h, List.flatMap_append, List.flatMap_append,
        List.flatMap_singleton, List.eraseDups_append, List.eraseDups_append, ih,
        removeAll_congr hmem]

/-- Collecting in two stages is collecting in one: the repetitions that the first stage drops would
have been dropped by the second. -/
theorem collect_collect {γ : Type} (f : α → List β) (g : γ → List α) (l : List γ) :
    collect f (collect g l) = collect f (l.flatMap g) := collect_eraseDups f _

omit [BEq α] [LawfulBEq α] in
/-- Collected in order: the results for each item are, and what is new comes after the results
    for all items before. -/
theorem pairwise_collect {R : β → β → Prop} (each : ∀ x ∈ l, (f x).Pairwise R)
    (new : ∀ before x after, l = before ++ x :: after → ∀ v ∈ f x, (∀ z ∈ before, v ∉ f z) →
      ∀ y ∈ before, ∀ u ∈ f y, R u v) :
    (collect f l).Pairwise R := by
  rw [collect]
  induction l using List.reverseRecOn with
  | nil => exact List.Pairwise.nil
  | append_singleton l x ih =>
    -- what was collected before, what is new from `x`, and then across the two
    have hl : (l.flatMap f).eraseDups.Pairwise R :=
      ih (fun y hy => each y (List.mem_append_left _ hy)) fun before y after hs =>
        new before y (after ++ [x]) (by rw [hs, List.append_assoc, List.cons_append])
    have hx : ((f x).removeAll (l.flatMap f)).eraseDups.Pairwise R :=
      ((each x (by simp)).filter _).sublist (eraseDups_sublist _)
    rw [List.flatMap_append, List.flatMap_singleton, List.eraseDups_append, List.pairwise_append]
    refine ⟨hl, hx, fun u hu v hv => ?_⟩
    obtain ⟨y, hy, hu⟩ := mem_collect.mp hu
    obtain ⟨hv, hnew⟩ := List.mem_filter.mp (List.mem_eraseDups.mp hv)
    rw [Bool.not_eq_true', List.elem_eq_mem, decide_eq_false_iff_not] at hnew
    exact new l x [] rfl v hv (fun z hz hvz => hnew (List.mem_flatMap.mpr ⟨z, hz, hvz⟩)) y hy u hu

omit [BEq α] [LawfulBEq α] in
/-- Collected in order from items in order: the results for each item are in order, and those for
    one come after those for another as the one comes after the other. -/
theorem pairwise_collect_of_pairwise {R : β → β → Prop} {S : α → α → Prop} (hl : l.Pairwise S)
    (each : ∀ x ∈ l, (f x).Pairwise R)
    (across : ∀ x ∈ l, ∀ y ∈ l, S x y → ∀ u ∈ f x, ∀ v ∈ f y, R u v) :
    (collect f l).Pairwise R :=
  (List.pairwise_flatMap.mpr ⟨each, hl.imp_of_mem fun hx hy h => across _ hx _ hy h⟩).sublist
    (eraseDups_sublist _)

end

end NetPlot.FirstSeen
