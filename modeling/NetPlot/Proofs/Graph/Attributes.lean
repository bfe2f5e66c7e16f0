/-
  Attributes from a list of entries.

  Entries with different keys are kept as they are and in their order (`entries_ofEntries`); of
  entries that may be left empty, those that are given stay (`entries_ofGiven`, `get?_ofGiven`).
  Merging takes the later value of a key (`get?_merge`), and an override leaves the other keys
  alone (`get?_override`).
-/
import NetPlot.Graph.Attributes

namespace NetPlot.Graph

/-- A new key is put behind all others. -/
theorem Entries.insert_of_not_mem {k v : String} {es : Entries} (h : k ∉ keys es) :
    insert k v es = es ++ [(k, v)] := by
  induction es with
  | nil => rfl
  | cons e es ih =>
    obtain ⟨k', v'⟩ := e
    have h : k ≠ k' ∧ k ∉ keys es := by simpa [keys] using h
    rw [insert, if_neg (Ne.symm h.1), ih h.2, List.cons_append]

namespace Attributes

/-- With different keys, entries are put one behind the other. -/
theorem entries_foldl_insert {es : Entries} {a : Attributes}
    (h : (Entries.keys (a.entries ++ es)).Nodup) :
    (es.foldl (fun a (k, v) => a.insert k v) a).entries = a.entries ++ es := by
  induction es generalizing a with
  | nil => simp
  | cons e es ih =>
    obtain ⟨k, v⟩ := e
    -- the first key is new, so it is put at the end, and the rest goes on from there
    have hk : k ∉ Entries.keys a.entries := by
      intro hk
      rw [Entries.keys, List.map_append, List.nodup_append] at h
      exact h.2.2 k hk k (by simp) rfl
    have hi : (a.insert k v).entries = a.entries ++ [(k, v)] := Entries.insert_of_not_mem hk
    show (es.foldl _ (a.insert k v)).entries = _
    rw [ih (by rwa [hi, List.append_assoc]), hi, List.append_assoc, List.singleton_append]

/-- With different keys, a list of entries is what its attributes list. -/
theorem entries_ofEntries {es : Entries} (h : (Entries.keys es).Nodup) :
    (ofEntries es).entries = es :=
  entries_foldl_insert (a := empty) h

/-- Of given entries, the empty ones are left out. -/
theorem entries_ofGiven {es : Entries} (h : (Entries.keys es).Nodup) :
    (ofGiven es).entries = es.filter (·.2 ≠ "") :=
  entries_ofEntries (h.sublist (List.filter_sublist.map _))

/-- What was given for a key is its value, unless it is empty. -/
theorem get?_ofGiven {es : Entries} (h : (Entries.keys es).Nodup) (k : String) :
    (ofGiven es).get? k = (es.lookup k).filter (· ≠ "") := by
  rw [get?, entries_ofGiven h]
  induction es with
  | nil => rfl
  | cons e es ih =>
    obtain ⟨k', v⟩ := e
    have h : k' ∉ Entries.keys es ∧ (Entries.keys es).Nodup := List.nodup_cons.mp h
    by_cases hk : k = k'
    · subst hk
      -- no other entry has the key
      have hn : (es.filter (·.2 ≠ "")).lookup k = none := by
        rw [List.lookup_eq_none_iff]
        intro e he
        have hm : e.1 ∈ Entries.keys es := List.mem_map_of_mem (List.mem_filter.mp he).1
        exact bne_iff_ne.mpr fun hk => h.1 (hk ▸ hm)
      by_cases hv : v = ""
      · rw [List.filter_cons_of_neg (by simp [hv]), hn, List.lookup_cons_self, hv]
        rfl
      · rw [List.filter_cons_of_pos (by simp [hv]), List.lookup_cons_self, List.lookup_cons_self]
        exact (Option.filter_eq_some_iff.mpr ⟨rfl, by simp [hv]⟩).symm
    · have hb : (k == k') = false := beq_false_of_ne hk
      by_cases hv : v = ""
      · simpa [hv, List.lookup_cons, hb] using ih h.2
      · simpa [hv, List.lookup_cons, hb] using ih h.2

/-- The other keys keep their values when one is put in. -/
theorem get?_insert_of_ne {k k' : String} (h : k' ≠ k) (a : Attributes) (v : String) :
    (a.insert k v).get? k' = a.get? k' := by
  show (Entries.insert k v a.entries).lookup k' = a.entries.lookup k'
  have hb : (k' == k) = false := beq_false_of_ne h
  -- putting in goes along the entries up to the key, and the other key is looked up past it
  induction a.entries with
  | nil => rw [Entries.insert, List.lookup_cons, hb]
  | cons e es ih =>
    obtain ⟨k'', v'⟩ := e
    rw [Entries.insert]
    by_cases hk : k'' = k
    · rw [if_pos hk, List.lookup_cons, List.lookup_cons, hk, hb]
    · rw [if_neg hk, List.lookup_cons, List.lookup_cons, ih]

theorem get?_erase_of_ne {k k' : String} (h : k' ≠ k) (a : Attributes) :
    (a.erase k).get? k' = a.get? k' := by
  show (a.entries.filter (·.1 ≠ k)).lookup k' = a.entries.lookup k'
  induction a.entries with
  | nil => rfl
  | cons e es ih =>
    obtain ⟨k'', v'⟩ := e
    by_cases hk : k'' = k
    · have hb : (k' == k'') = false := beq_false_of_ne (hk ▸ h)
      rw [List.filter_cons_of_neg (by simp [hk]), ih, List.lookup_cons, hb]
    · rw [List.filter_cons_of_pos (by simp [hk]), List.lookup_cons, List.lookup_cons, ih]

/-- A key that is put in has the value it was put in with. -/
theorem get?_insert_self (a : Attributes) (k v : String) : (a.insert k v).get? k = some v := by
  show (Entries.insert k v a.entries).lookup k = some v
  induction a.entries with
  | nil => exact List.lookup_cons_self
  | cons e es ih =>
    obtain ⟨k', v'⟩ := e
    rw [Entries.insert]
    by_cases hk : k' = k
    · rw [if_pos hk, List.lookup_cons_self]
    · rw [if_neg hk, List.lookup_cons, beq_false_of_ne (Ne.symm hk), ih]

/-- Of two values of a key, merging keeps the later one. -/
theorem get?_merge (a b : Attributes) (k : String) :
    (a.merge b).get? k = (b.get? k).or (a.get? k) := by
  -- the entries of `b` are put into `a` one by one, so the induction is on them with `a` left open
  have hes : ∀ (es : Entries) (a : Attributes), (Entries.keys es).Nodup →
      (es.foldl (fun a (k, v) => a.insert k v) a).get? k = (es.lookup k).or (a.get? k) := by
    intro es
    induction es with
    | nil => exact fun a _ => rfl
    | cons e es ih =>
      intro a h
      obtain ⟨k', v⟩ := e
      have h : k' ∉ Entries.keys es ∧ (Entries.keys es).Nodup := List.nodup_cons.mp h
      show (es.foldl _ (a.insert k' v)).get? k = _
      rw [ih _ h.2]
      by_cases hk : k = k'
      · -- no other entry has the key
        subst hk
        have hn : es.lookup k = none := List.lookup_eq_none_iff.mpr fun e he =>
          bne_iff_ne.mpr fun hk => h.1 (hk ▸ List.mem_map_of_mem he)
        rw [hn, get?_insert_self, List.lookup_cons_self]
        rfl
      · rw [get?_insert_of_ne hk, List.lookup_cons, beq_false_of_ne hk]
  exact hes b.entries a b.keys_nodup

/-- A key that nothing is given for keeps its value. -/
theorem get?_override {k : String} {es : Entries} (h : k ∉ Entries.keys es) (a : Attributes) :
    (a.override es).get? k = a.get? k := by
  induction es generalizing a with
  | nil => rfl
  | cons e es ih =>
    obtain ⟨k', v⟩ := e
    have h : k ≠ k' ∧ k ∉ Entries.keys es := by simpa [Entries.keys] using h
    show ((if v = "" then a.erase k' else a.insert k' v).override es).get? k = _
    rw [ih h.2]
    split
    · exact get?_erase_of_ne h.1 a
    · exact get?_insert_of_ne h.1 a v

end Attributes

end NetPlot.Graph
