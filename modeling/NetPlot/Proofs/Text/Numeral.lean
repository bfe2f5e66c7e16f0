/-
  Written numbers.

  The decimal digits of a number are read back as the number (`numeral_repr`), and as a whole when
  no digit follows (`splitRun_repr`).  Digits that were read as a number are the ones that it is
  written with, but for zeros at the front (`toList_repr_numeral`).
-/
import Mathlib.Data.List.Basic
import NetPlot.Proofs.Text.Classes
import NetPlot.Proofs.Text.Cut
import NetPlot.Text.Numeral

namespace NetPlot.Text

/-- The value of a decimal digit is its distance from `0`. -/
theorem digitValue?_of_isDigit {c : Char} (h : c.isDigit = true) :
    digitValue? c = some (c.toNat - '0'.toNat) := by
  rw [Char.isDigit, Bool.and_eq_true, decide_eq_true_eq, decide_eq_true_eq] at h
  exact if_pos h

/-- A number is written with decimal digits only. -/
theorem isDigit_of_mem_repr {n : Nat} {c : Char} (h : c ∈ n.repr.toList) : c.isDigit = true := by
  rw [Nat.toList_repr] at h
  exact Nat.isDigit_of_mem_toDigits (by omega) (by omega) h

theorem exists_cons_repr (n : Nat) : ∃ d ds, n.repr.toList = d :: ds := by
  rw [Nat.toList_repr]
  exact List.exists_cons_of_ne_nil Nat.toDigits_ne_nil

/-- Digits are read as in core. -/
theorem numeral_eq_ofDigitChars {ds : List Char} (h : ∀ c ∈ ds, c.isDigit = true) :
    numeral 10 ds = Nat.ofDigitChars 10 ds 0 := by
  refine List.foldl_ext _ _ 0 fun n c hc => ?_
  rw [digitValue?_of_isDigit (h c hc), Option.getD_some]

/-- The digits of a number are read as the number. -/
theorem numeral_repr (n : Nat) : numeral 10 n.repr.toList = n := by
  rw [numeral_eq_ofDigitChars fun c => isDigit_of_mem_repr, Nat.toList_repr,
    Nat.ofDigitChars_ten_toDigits]

/-- A digit is the one of its value. -/
theorem digitChar_of_isDigit {c : Char} (h : c.isDigit = true) :
    c.toNat - '0'.toNat < 10 ∧ (c.toNat - '0'.toNat).digitChar = c := by
  rw [Char.isDigit, Bool.and_eq_true, decide_eq_true_eq, decide_eq_true_eq] at h
  have hlow : '0'.toNat ≤ c.toNat := h.1
  have hhigh : c.toNat ≤ '0'.toNat + 9 := h.2
  have hchar : ∀ k < 10, k.digitChar = Char.ofNat ('0'.toNat + k) := by decide
  have hvalue : c.toNat - '0'.toNat < 10 := by omega
  refine ⟨hvalue, ?_⟩
  rw [hchar _ hvalue, Nat.add_sub_cancel' hlow, Char.ofNat_toNat]

/-- Digits that are read behind a number are written behind it. -/
theorem toDigits_ofDigitChars {ds : List Char} (h : ∀ c ∈ ds, c.isDigit = true) {n : Nat}
    (hn : 0 < n) : Nat.toDigits 10 (Nat.ofDigitChars 10 ds n) = Nat.toDigits 10 n ++ ds := by
  induction ds generalizing n with
  | nil => rw [Nat.ofDigitChars_nil, List.append_nil]
  | cons c ds ih =>
    obtain ⟨hc, hds⟩ := List.forall_mem_cons.1 h
    obtain ⟨hvalue, hchar⟩ := digitChar_of_isDigit hc
    rw [Nat.ofDigitChars_cons, ih hds (by omega),
      ← Nat.toDigits_append_toDigits (by omega) hn hvalue, Nat.toDigits_of_lt_base hvalue, hchar,
      List.append_assoc, List.singleton_append]

/-- A positive number is written with the digits it was read from, without zeros at the front. -/
theorem toList_repr_numeral {ds : List Char} (h : ∀ c ∈ ds, c.isDigit = true)
    (hpos : 0 < numeral 10 ds) : (numeral 10 ds).repr.toList = ds.dropWhile (· = '0') := by
  rw [numeral_eq_ofDigitChars h] at hpos ⊢
  rw [Nat.toList_repr]
  induction ds with
  | nil => exact absurd hpos (by simp)
  | cons c ds ih =>
    obtain ⟨hc, hds⟩ := List.forall_mem_cons.1 h
    obtain ⟨hvalue, hchar⟩ := digitChar_of_isDigit hc
    rw [Nat.ofDigitChars_cons, Nat.mul_zero, Nat.zero_add] at hpos ⊢
    -- a leading zero adds nothing to the value; the first other digit leads the numeral
    by_cases hzero : c = '0'
    · subst hzero
      rw [List.dropWhile_cons_of_pos (by simp)]
      exact ih hds hpos
    · have hfirst : 0 < c.toNat - '0'.toNat := by
        refine Nat.pos_of_ne_zero fun hval => hzero ?_
        rw [← hchar, hval]
        rfl
      rw [toDigits_ofDigitChars hds hfirst, Nat.toDigits_of_lt_base hvalue, hchar,
        List.dropWhile_cons_of_neg (by simpa using hzero), List.singleton_append]

/-- The digits of a number are read as a whole when no digit follows. -/
theorem splitRun_repr {n : Nat} {r : List Char} (hr : ∀ c ∈ r.head?, c.isDigit = false) :
    splitRun Char.isDigit (n.repr.toList ++ r) = (n.repr.toList, r) :=
  splitRun_of_run (fun _ => isDigit_of_mem_repr) hr

end NetPlot.Text
