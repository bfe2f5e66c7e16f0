/-
  Names of nodes, and when two of them can be the same.

  1. **Names** — a network of the process `p` names its nodes `p@…` (`Inside`), its hidden node
     aside.  All names that come from a process, from its own network or from one further down,
     are `Owns`.

  2. **Subtrees** — two processes of a network whose names have no `@` own different names
     (`eq_of_owns_of_owns`), and neither owns the hidden node of the network around it.

  3. **Elements** — the node of an element whose name has neither `@` nor `#` is owned by no
     process beside it (`not_owns_of_plain`), and no edge end that stands for the interface of a
     process has its name (`boundary_child_ne`).

  Names are put together from texts of the documents, and these may hold the marks themselves.  So
  what tells two names apart is always a condition on the texts in one of them.
-/
import NetPlot.Network.Binding

namespace NetPlot.Network.Identity

/-- A name of the network of `p`, or of a network further down. -/
def Inside (p : Identity) (x : String) : Prop := ∃ r, x = p.text ++ "@" ++ r

/-- A name that comes from the process `p`: its hidden node or something inside of it. -/
def Owns (p : Identity) (x : String) : Prop := x = p.hidden ∨ p.Inside x

theorem inside_child (p : Identity) (name : String) : p.Inside (p.child name).text := ⟨name, rfl⟩

theorem inside_boundary (p : Identity) (port : String) : p.Inside (p.boundary port) := ⟨port, rfl⟩

theorem child_injective {p : Identity} {a b : String} (h : p.child a = p.child b) : a = b := by
  have h : p.text ++ "@" ++ a = p.text ++ "@" ++ b := congrArg Identity.text h
  simpa using h

theorem inside_boundary_child (p : Identity) (name port : String) :
    p.Inside ((p.child name).boundary port) :=
  ⟨name ++ "@" ++ port, by simp [boundary, child, String.append_assoc]⟩

/-- What a process owns is inside the one around it. -/
theorem inside_of_owns_child {p : Identity} {name x : String} (h : (p.child name).Owns x) :
    p.Inside x := by
  rcases h with rfl | ⟨r, rfl⟩
  · exact ⟨name ++ "#anchor", by simp [hidden, child, String.append_assoc]⟩
  · exact ⟨name ++ "@" ++ r, by simp [child, String.append_assoc]⟩

/-- The hidden node of a process is not inside of it. -/
theorem not_inside_hidden (p : Identity) : ¬ p.Inside p.hidden := by
  rintro ⟨r, h⟩
  have h : p.text ++ "#anchor" = p.text ++ ("@" ++ r) := by rwa [← String.append_assoc]
  have h := congrArg String.toList ((String.append_right_inj _).mp h)
  simp at h

/-! ## Subtrees

The mark ends the name of a process.  If that name has no mark of its own, the first mark behind the
identity of the network tells where it ends. -/

/-- Two texts without `@` agree if they agree up to it. -/
theorem eq_of_append_at {c d r r' : List Char} (hc : '@' ∉ c) (hd : '@' ∉ d)
    (h : c ++ '@' :: r = d ++ '@' :: r') : c = d := by
  -- if one text were longer, the mark behind the other would be in it
  rcases List.append_eq_append_iff.mp h with ⟨as, rfl, has⟩ | ⟨bs, rfl, hbs⟩
  · cases as with
    | nil => simp
    | cons a as =>
      obtain rfl : '@' = a := (List.cons.inj has).1
      exact absurd (by simp) hd
  · cases bs with
    | nil => simp
    | cons b bs =>
      obtain rfl : '@' = b := (List.cons.inj hbs).1
      exact absurd (by simp) hc

/-- The characters of a name inside a child process, after the name of the process around it. -/
theorem toList_of_owns_child {p : Identity} {c r : String}
    (h : (p.child c).Owns (p.text ++ "@" ++ r)) :
    r.toList = c.toList ++ "#anchor".toList ∨ ∃ s, r.toList = c.toList ++ '@' :: s := by
  rcases h with h | ⟨s, h⟩
  · have h : p.text ++ "@" ++ r = p.text ++ "@" ++ (c ++ "#anchor") := by
      simpa [hidden, child, String.append_assoc] using h
    left
    rw [(String.append_right_inj _).mp h, String.toList_append]
  · have h : p.text ++ "@" ++ r = p.text ++ "@" ++ (c ++ ("@" ++ s)) := by
      simpa [child, String.append_assoc] using h
    right
    exact ⟨s.toList, by
      rw [(String.append_right_inj _).mp h, String.toList_append, String.toList_append]; rfl⟩

/-- No name comes from two processes of one network. -/
theorem eq_of_owns_of_owns {p : Identity} {c d x : String} (hc : '@' ∉ c.toList)
    (hd : '@' ∉ d.toList) (hcx : (p.child c).Owns x) (hdx : (p.child d).Owns x) : c = d := by
  obtain ⟨r, rfl⟩ := inside_of_owns_child hcx
  rcases toList_of_owns_child hcx with h | ⟨s, h⟩
  · rcases toList_of_owns_child hdx with h' | ⟨s', h'⟩
    · rw [h] at h'
      exact String.toList_inj.mp (List.append_cancel_right h')
    · -- a hidden node has no `@` behind the name of its process
      have hm : '@' ∈ c.toList ++ "#anchor".toList := by rw [← h, h']; simp
      exact absurd hm (by simp [hc])
  · rcases toList_of_owns_child hdx with h' | ⟨s', h'⟩
    · have hm : '@' ∈ d.toList ++ "#anchor".toList := by rw [← h', h]; simp
      exact absurd hm (by simp [hd])
    · rw [h] at h'
      exact String.toList_inj.mp (eq_of_append_at hc hd h')

/-! ## Elements -/

/-- A process does not own the node of an element beside it. -/
theorem not_owns_of_plain {p : Identity} {c r : String} (ha : '@' ∉ r.toList)
    (hh : '#' ∉ r.toList) : ¬ (p.child c).Owns (p.text ++ "@" ++ r) := by
  intro h
  rcases toList_of_owns_child h with h | ⟨s, h⟩
  · exact hh (by rw [h]; simp)
  · exact ha (by rw [h]; simp)

/-- The node of an interface port is not the node of an element beside its process. -/
theorem boundary_child_ne {p : Identity} {c q r : String} (ha : '@' ∉ r.toList) :
    (p.child c).boundary q ≠ p.text ++ "@" ++ r := by
  intro h
  have h : p.text ++ "@" ++ (c ++ ("@" ++ q)) = p.text ++ "@" ++ r := by
    simpa [boundary, child, String.append_assoc] using h
  exact ha (by rw [← (String.append_right_inj _).mp h]; simp)

end NetPlot.Network.Identity
