/-
  Answers that may be refusals.

  An answer put together from others is given if and only if those are (`bind_eq_ok`); a list of
  answers is given if and only if each of them is (`exists_of_mem_mapM`, `mapM_eq_ok`), and else
  the first refusal stands for it (`mapM_eq_error`).  A list of look-ups finds what each of them
  finds (`mapM_eq_some`).
-/

namespace NetPlot

/-- An answer of which there is a value to take. -/
theorem eq_ok_of_toOption {ε α : Type} {x : Except ε α} {a : α}
    (h : x.toOption = some a) : x = .ok a := by
  cases x with
  | error e => cases h
  | ok b => exact congrArg _ (Option.some.inj h)

namespace Answer

variable {ε α β γ : Type}

/-- An answer that is put together from two steps is given if and only if the first step gives a
value and the second one gives the answer from it. -/
theorem bind_eq_ok {x : Except ε α} {f : α → Except ε β} {b : β} :
    x >>= f = .ok b ↔ ∃ a, x = .ok a ∧ f a = .ok b := by
  cases x with
  | error e => simp [bind, Except.bind]
  | ok a => simp [bind, Except.bind]

/-- Each of the answers in a list that was given. -/
theorem exists_of_mem_mapM {f : α → Except ε β} {as : List α} {bs : List β}
    (h : as.mapM f = .ok bs) : ∀ b ∈ bs, ∃ a ∈ as, f a = .ok b := by
  induction as generalizing bs with
  | nil =>
    rw [List.mapM_nil] at h
    cases h
    exact fun b hb => absurd hb List.not_mem_nil
  | cons a as ih =>
    rw [List.mapM_cons] at h
    -- both the first answer and those behind it must have been given
    obtain ⟨b, hb, hrest⟩ := bind_eq_ok.1 h
    obtain ⟨bs', hbs, he⟩ := bind_eq_ok.1 hrest
    cases he
    rintro c (_ | ⟨_, hc⟩)
    · exact ⟨a, List.mem_cons_self, hb⟩
    · obtain ⟨a', ha', hf⟩ := ih hbs c hc
      exact ⟨a', List.mem_cons_of_mem a ha', hf⟩

/-- Answers that are all given. -/
theorem mapM_eq_ok {f : α → Except ε β} {g : α → β} {as : List α}
    (h : ∀ a ∈ as, f a = .ok (g a)) : as.mapM f = .ok (as.map g) := by
  induction as with
  | nil => rfl
  | cons a as ih =>
    rw [List.mapM_cons, h a List.mem_cons_self, ih fun b hb => h b (List.mem_cons_of_mem a hb)]
    rfl

/-- Answers that undo a function give back what it was applied to. -/
theorem mapM_map_eq_ok {f : β → Except ε α} {g : α → β} {as : List α}
    (h : ∀ a ∈ as, f (g a) = .ok a) : (as.map g).mapM f = .ok as := by
  rw [List.mapM_map, mapM_eq_ok (f := f ∘ g) (g := id) h, List.map_id]

/-- Answers that are given up to one that is not. -/
theorem mapM_eq_error {f : α → Except ε β} {g : α → β} {before : List α} {a : α} {e : ε}
    (hb : ∀ b ∈ before, f b = .ok (g b)) (ha : f a = .error e) (after : List α) :
    (before ++ a :: after).mapM f = .error e := by
  induction before with
  | nil => rw [List.nil_append, List.mapM_cons, ha]; rfl
  | cons b before ih =>
    rw [List.cons_append, List.mapM_cons, hb b List.mem_cons_self,
      ih fun c hc => hb c (List.mem_cons_of_mem b hc)]
    rfl

/-- Look-ups that all find something. -/
theorem mapM_eq_some {f : α → Option β} {k : α → β} {as : List α}
    (h : ∀ a ∈ as, f a = some (k a)) : as.mapM f = some (as.map k) := by
  induction as with
  | nil => rfl
  | cons a as ih =>
    rw [List.mapM_cons, h a List.mem_cons_self, ih fun b hb => h b (List.mem_cons_of_mem a hb)]
    rfl

end Answer

end NetPlot
