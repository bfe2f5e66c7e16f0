/-
  Document order.

  1. **Order** — the addresses of a document increase lexicographically as they are listed
     (`pairwise_addresses`), so one element stands before another exactly if its address is less.

  2. **Subtrees** — an element stands before all below it (`le_of_isPrefix`), and whatever stands
     between an element and something below it is below it too (`prefix_of_between`).

  3. **Grouping** — `Follows k` compares addresses by what is above their last `k` numbers first.
     Children of places in such an order are in the order with one number more
     (`Follows.concat`), parents in that with one less (`Follows.of_concat`); with no number it is
     document order (`follows_zero`), and at one depth all these orders agree
     (`follows_iff_of_length_eq`).
-/
import Mathlib.Data.List.DropRight
import Mathlib.Data.List.Lex
import NetPlot.Proofs.Xml.Places

namespace NetPlot.Xml

namespace Element

mutual

/-- The addresses of an element are listed in increasing order. -/
theorem pairwise_addresses : (e : Element) → e.addresses.Pairwise (· < ·)
  | ⟨_, _, _, children⟩ => by
    rw [addresses, List.pairwise_cons]
    refine ⟨fun a ha => ?_, pairwise_addressesFrom 0 children⟩
    obtain ⟨i, b, c, -, -, rfl⟩ := mem_addressesFrom_iff.mp ha
    exact List.nil_lt_cons _ _

/-- The addresses in later children have a larger first number. -/
theorem pairwise_addressesFrom (i : Nat) :
    (children : List Element) → (addressesFrom i children).Pairwise (· < ·)
  | [] => by
    rw [addressesFrom]
    exact List.Pairwise.nil
  | c :: cs => by
    rw [addressesFrom, List.pairwise_append, List.pairwise_map]
    refine ⟨(pairwise_addresses c).imp fun h => List.cons_lt_cons_iff.mpr (.inr ⟨rfl, h⟩),
      pairwise_addressesFrom (i + 1) cs, fun a ha b hb => ?_⟩
    obtain ⟨a, -, rfl⟩ := List.mem_map.mp ha
    obtain ⟨j, b, d, -, -, rfl⟩ := mem_addressesFrom_iff.mp hb
    exact List.cons_lt_cons_iff.mpr (.inl (by omega))

end

end Element

/-! ## Subtrees

Addresses are compared number by number, and a shorter one comes before those that go on from it.
The addresses below a place are therefore neighbours in the order. -/

section

variable {p q r : List Nat}

/-- What is above stands before. -/
theorem le_of_isPrefix (h : p <+: q) : p ≤ q := by
  obtain ⟨t, rfl⟩ := h
  induction p with
  | nil => exact le_of_not_gt (List.not_lt_nil t)
  | cons i p ih => exact List.cons_le_cons i ih

theorem append_le_append (p : List Nat) (h : q ≤ r) : p ++ q ≤ p ++ r := by
  induction p with
  | nil => exact h
  | cons i p ih => exact List.cons_le_cons i ih

/-- What is less by a number that differs stays less, whatever follows. -/
theorem append_lt_append (h : p < q) (hn : ¬ p <+: q) (s t : List Nat) : p ++ s < q ++ t := by
  induction p generalizing q with
  | nil => exact absurd List.nil_prefix hn
  | cons i p ih =>
    cases q with
    | nil => exact absurd h (List.not_lt_nil _)
    | cons j q =>
      -- the first numbers differ, or they agree and a later one differs
      rcases List.cons_lt_cons_iff.mp h with hij | ⟨rfl, hpq⟩
      · exact List.cons_lt_cons_iff.mpr (.inl hij)
      · have hnpq : ¬ p <+: q := fun hp => hn (List.cons_prefix_cons.mpr ⟨rfl, hp⟩)
        exact List.cons_lt_cons_iff.mpr (.inr ⟨rfl, ih hpq hnpq⟩)

/-- Of two places on one level, the order is that of all below them. -/
theorem append_lt_append_of_length_eq (hl : p.length = q.length) (h : p < q) (s t : List Nat) :
    p ++ s < q ++ t :=
  append_lt_append h (fun hp => h.ne (hp.eq_of_length hl)) s t

/-- Towards a place further down there is a next number. -/
theorem exists_concat_of_isPrefix (h : p <+: q) (hne : p ≠ q) : ∃ n, p ++ [n] <+: q := by
  obtain ⟨t, rfl⟩ := h
  cases t with
  | nil => exact absurd (List.append_nil p).symm hne
  | cons n t => exact ⟨n, t, by simp⟩

/-- Whatever stands between a place and one below it is below it. -/
theorem prefix_of_between (hpq : p ≤ q) (hqr : q ≤ r) (hpr : p <+: r) : p <+: q := by
  by_contra hn
  obtain ⟨s, rfl⟩ := hpr
  have hlt : p < q := lt_of_le_of_ne hpq fun he => hn (he ▸ List.prefix_refl p)
  have hlt : p ++ s < q ++ [] := append_lt_append hlt hn s []
  rw [List.append_nil] at hlt
  exact absurd hqr (not_le_of_gt hlt)

end

/-! ## Grouping -/

/-- Compared by all but the last `k` numbers first, and in document order where these agree. -/
def Follows (k : Nat) (p q : List Nat) : Prop :=
  p.rdrop k < q.rdrop k ∨ p.rdrop k = q.rdrop k ∧ p ≤ q

section

variable {k : Nat} {p q : List Nat}

theorem Follows.refl (k : Nat) (p : List Nat) : Follows k p p := .inr ⟨rfl, le_refl p⟩

/-- With no numbers left out, places are compared in document order. -/
theorem follows_zero : Follows 0 p q ↔ p ≤ q := by
  rw [Follows, List.rdrop_zero, List.rdrop_zero, le_iff_lt_or_eq]
  constructor
  · rintro (h | ⟨h, -⟩)
    · exact .inl h
    · exact .inr h
  · rintro (h | h)
    · exact .inl h
    · exact .inr ⟨h, .inr h⟩

theorem rdrop_length (p : List Nat) : p.rdrop p.length = [] := by
  rw [List.rdrop, Nat.sub_self, List.take_zero]

/-- With all numbers left out, one level is compared in document order. -/
theorem follows_iff_of_length_eq (hp : p.length = k) (hq : q.length = k) :
    Follows k p q ↔ p ≤ q := by
  subst hp
  rw [Follows, rdrop_length, ← hq, rdrop_length]
  simp

/-- Places that agree but for the last `k` numbers are on one level. -/
theorem length_eq_of_rdrop_eq (hp : k ≤ p.length) (hq : k ≤ q.length)
    (h : p.rdrop k = q.rdrop k) : p.length = q.length := by
  have hl := congrArg List.length h
  rw [List.rdrop, List.rdrop, List.length_take, List.length_take] at hl
  omega

/-- Children come by their parents, with one number more. -/
theorem Follows.concat (hp : k ≤ p.length) (hq : k ≤ q.length) (hne : p ≠ q) (h : Follows k p q)
    (i j : Nat) : Follows (k + 1) (p ++ [i]) (q ++ [j]) := by
  rw [Follows, List.rdrop_concat_succ, List.rdrop_concat_succ]
  rcases h with h | ⟨he, hle⟩
  · exact .inl h
  · have hl : p.length = q.length := length_eq_of_rdrop_eq hp hq he
    exact .inr ⟨he, (append_lt_append_of_length_eq hl (lt_of_le_of_ne hle hne) [i] [j]).le⟩

/-- The children of one parent come in document order. -/
theorem follows_children (p : List Nat) {i j : Nat} (h : i ≤ j) :
    Follows (k + 1) (p ++ [i]) (p ++ [j]) := by
  rw [Follows, List.rdrop_concat_succ, List.rdrop_concat_succ]
  refine .inr ⟨rfl, append_le_append p ?_⟩
  rcases Nat.lt_or_eq_of_le h with h | rfl
  · exact (List.cons_lt_cons_iff.mpr (.inl h)).le
  · exact le_refl _

/-- Parents come by their children, with one number less. -/
theorem Follows.of_concat (hp : k ≤ p.length) (hq : k ≤ q.length) {i j : Nat}
    (h : Follows (k + 1) (p ++ [i]) (q ++ [j])) : Follows k p q := by
  rw [Follows, List.rdrop_concat_succ, List.rdrop_concat_succ] at h
  rcases h with h | ⟨he, hle⟩
  · exact .inl h
  · refine .inr ⟨he, le_of_not_gt fun hlt => ?_⟩
    have hl : q.length = p.length := (length_eq_of_rdrop_eq hp hq he).symm
    exact absurd hle (not_le_of_gt (append_lt_append_of_length_eq hl hlt [j] [i]))

end

end NetPlot.Xml
