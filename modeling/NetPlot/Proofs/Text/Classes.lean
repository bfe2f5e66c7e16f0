/-
  Classes of characters that exclude each other.

  Classes are given by ranges of code points, so two of them have no character in common if no
  range of the one meets a range of the other (`not_inRanges_of_apart`).
-/
import NetPlot.Text.Letter

namespace NetPlot.Text

/-- No range of the one list meets a range of the other. -/
def apart (as bs : List (Nat × Nat)) : Bool :=
  as.all fun a => bs.all fun b => a.2 < b.1 || b.2 < a.1

/-- A character in a range of the one list is in none of the other. -/
theorem not_inRanges_of_apart {as bs : List (Nat × Nat)} (h : apart as bs = true) {c : Char}
    (hc : inRanges as c = true) : inRanges bs c = false := by
  obtain ⟨a, ha, hca⟩ := inRanges_iff.1 hc
  rw [Bool.eq_false_iff, ne_eq, inRanges_iff]
  rintro ⟨b, hb, hcb⟩
  have hab := List.all_eq_true.1 (List.all_eq_true.1 h a ha) b hb
  simp only [Bool.or_eq_true, decide_eq_true_eq] at hab
  omega

/-- What holds of the characters of a list one by one holds of them all. -/
theorem forall_mem_of_all {s : List Char} {P : Char → Prop} [DecidablePred P]
    (h : (s.all fun c => decide (P c)) = true) : ∀ c ∈ s, P c := by
  simpa using h

/-- Decimal digits are a class of one range. -/
theorem inRanges_of_isDigit {c : Char} (h : c.isDigit = true) :
    inRanges [('0'.toNat, '9'.toNat)] c = true := by
  rw [Char.isDigit, Bool.and_eq_true, decide_eq_true_eq, decide_eq_true_eq] at h
  exact inRanges_iff.2 ⟨_, List.mem_singleton.2 rfl, h⟩

/-! ## Classes that queries and templates tell apart

Each pair is decided by its ranges. -/

theorem isBlank_of_isDigit {c : Char} (h : c.isDigit = true) : isBlank c = false :=
  not_inRanges_of_apart (by decide) (inRanges_of_isDigit h)

theorem isAlphabetic_of_isDigit {c : Char} (h : c.isDigit = true) : isAlphabetic c = false :=
  not_inRanges_of_apart (by decide +kernel) (inRanges_of_isDigit h)

theorem isAlphabetic_of_isBlank {c : Char} (h : isBlank c = true) : isAlphabetic c = false :=
  not_inRanges_of_apart (by decide +kernel) h

end NetPlot.Text
