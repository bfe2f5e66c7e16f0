/-
  The default text says what holds anyway.

  The default text is a sheet, each of whose lines is written as one line of the text, so reading it
  gives the entries of the sheet, and from them the default configuration without a warning
  (`read_defaultText`).

  The text is compared with the sheet line by line, and each line is a short text that can be
  evaluated.  To evaluate the reader on the whole text would be one long computation instead.
-/
import NetPlot.Config.DefaultText
import NetPlot.Proofs.Toml.Sheet

namespace NetPlot.Config

open NetPlot.Toml

/-- The default configuration, entry by entry. -/
def defaultSheet : Sheet where
  remarks := 6
  top :=
    [("direction", .quoted "LR"), ("detail_level", .bare "99"), ("format", .quoted "dot"),
     ("prog", .quoted "dot")]
  sections :=
    [("labels",
       [("leaf", .quoted "\x7b @name \x7d"), ("composite", .quoted "\x7b @name \x7d"),
        ("leaf_port", .quoted "\x7b @name \x7d"), ("composite_port", .quoted "\x7b @name \x7d"),
        ("signal", .quoted "")]),
     ("clusters",
       [("input_ports", .bare "true"), ("output_ports", .bare "true"), ("sources", .bare "false"),
        ("sinks", .bare "false"), ("others", .bare "false")]),
     ("colors",
       [("leaf", .quoted "#FCD975"), ("composite_box", .quoted "#79AB78"),
        ("composite_gradient", .row ["11", "16", "21"])])]

theorem distinct_defaultSheet : defaultSheet.Distinct := ⟨by decide, by decide⟩

/-- Each line of the default text is one of the sheet, with a remark behind it or not. -/
theorem isWritten_defaultSheet : ∀ line ∈ defaultSheet.lines.zip defaultLines,
    line.1.WellFormed ∧ line.1.IsWritten line.2 := by
  decide +kernel

theorem parse?_defaultText : parse? defaultText = some defaultSheet.entries :=
  parse?_sheet distinct_defaultSheet (by decide) isWritten_defaultSheet (by decide)

theorem Outcome.eq_of_toOption {o : Outcome} {c : Config}
    (h : o.warnings.isEmpty = true ∧ o.result.toOption = some c) : o = ⟨[], .ok c⟩ := by
  obtain ⟨warnings, result⟩ := o
  obtain ⟨hwarnings, hresult⟩ := h
  cases result with
  | error e => cases hresult
  | ok c' =>
    cases hresult
    obtain rfl : warnings = [] := List.isEmpty_iff.1 hwarnings
    rfl

/-- The default text says what holds anyway. -/
theorem read_defaultText : Config.read defaultText = ⟨[], .ok .default⟩ := by
  rw [read, parse?_defaultText, Option.bind_some, Sheet.entries]
  -- the entries are put in order here, as the kernel does not evaluate `mergeSort`
  simp only [sortEntries, defaultSheet, List.map_cons, List.map_nil, values, List.mergeSort,
    List.length_cons, List.length_nil, Nat.reduceAdd, Nat.reduceDiv,
    List.MergeSort.Internal.splitInTwo_fst, List.take_succ_cons, List.take_zero,
    List.mergeSort_singleton, List.MergeSort.Internal.splitInTwo_snd, List.drop_succ_cons,
    List.drop_zero, String.reduceLE, decide_false, Bool.false_eq_true, not_false_eq_true,
    List.cons_merge_cons_neg, List.merge_right, decide_true, List.cons_merge_cons_pos,
    List.nil_merge, List.cons_append, List.nil_append]
  exact Outcome.eq_of_toOption (by decide +kernel)

end NetPlot.Config
