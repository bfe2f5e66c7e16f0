/-
  Queries as columns of a label.

  1. **Two readers** — a block is cut at its first closing mark and its body at every `&&` before
     any column is read as a query, so what stands in quotes is not spared.

  2. **Columns** — a query without references, whatever blanks stand around it, is a column whose
     text is the query without these blanks (`column_trim`).

  3. **Blocks** — a query alone in a block of either kind is its one column if and only if it holds
     neither the separator nor the closing mark (`parse_around_iff`, `parse_around_query_iff`).
-/
import Mathlib.Data.List.Infix
import NetPlot.Proofs.Label.RoundTrip
import NetPlot.Proofs.Query.Margins

namespace NetPlot.Label

open NetPlot.Text

/-! ## Columns -/

theorem segments_parse_of_plain {text : String} (h : '$' ∉ text.toList) :
    ∀ n, .reference n ∉ (Template.parse text).segments := by
  intro n hn
  rw [Template.parse, Segment.split_plain h] at hn
  split at hn <;> simp at hn

theorem display_parse_of_plain {text : String} (h : '$' ∉ text.toList) :
    (Template.parse text).display = text := by
  rw [← String.toList_inj, Template.toList_display_parse]
  exact Segment.written_eq_self (segments_parse_of_plain h)

theorem not_mem_trim {c : Char} {text : String} (h : c ∉ text.toList) : c ∉ (trim text).toList := by
  rw [trim, String.toList_ofList]
  exact fun hc => h ((isInfix_trimChars _).subset hc)

/-- A query without references is a column, blanks around it aside. -/
theorem column_trim {text : String} {q : Query} (h : Query.parse text = .ok q)
    (hr : '$' ∉ text.toList) : column (trim text) = .ok (Template.parse (trim text)) := by
  have hplain : (Template.parse (trim text)).hasReferences = false := by
    rw [Template.hasReferences, List.any_eq_false]
    rintro (s | n) hs
    · exact Bool.false_ne_true
    · exact absurd hs (segments_parse_of_plain (not_mem_trim hr) n)
  simp only [column, hplain, Query.parse_trim h]
  rfl

/-- No query is blank. -/
theorem trimChars_ne_nil_of_parse {text : String} {q : Query} (h : Query.parse text = .ok q) :
    trimChars text.toList ≠ [] := by
  intro he
  have htrim := Query.parse_eq_ok.1 (Query.parse_trim h)
  rw [trim, he, String.toList_ofList] at htrim
  obtain ⟨v, hv, -⟩ := Answer.bind_eq_ok.1 htrim
  cases Query.Reader.query_nil.symm.trans hv

/-- Without a separator in it, a query that stands between blanks is the one column. -/
theorem columns_spaced {text : String} {q : Query} (h : Query.parse text = .ok q)
    (hr : '$' ∉ text.toList) (hp : ¬ ['&', '&'] <:+: text.toList) :
    columns (' ' :: text.toList ++ [' ']) = .ok [Template.parse (trim text)] := by
  -- the blanks around do not bring in a separator
  have hpieces : pieces '&' ['&'] (' ' :: text.toList ++ [' ']) = [' ' :: text.toList ++ [' ']] := by
    refine pieces_of_not_infix fun hi => hp ?_
    rw [← infix_trimChars_iff (List.cons_ne_nil _ _) (forall_mem_of_all (by decide)),
      trimChars_space] at hi
    exact hi.trans (isInfix_trimChars _)
  have htexts : columnTexts (' ' :: text.toList ++ [' ']) = [trim text] := by
    rw [columnTexts, hpieces, List.map_singleton, trimChars_space, List.filter_cons_of_pos
      (by simpa using trimChars_ne_nil_of_parse h)]
    rfl
  rw [columns, htexts, List.mapM_cons, column_trim h hr]
  rfl

/-! ## Blocks

The condition has two parts since the block is cut twice: for its end, and then for its columns.
Both cuts look for marks alone and do not know about quotes. -/

/-- A text alone in a block, with a blank at each side. -/
def BlockKind.around (kind : BlockKind) (text : String) : String :=
  String.ofList kind.opening ++ " " ++ text ++ " " ++ String.ofList kind.closing

theorem BlockKind.toList_around (kind : BlockKind) (text : String) :
    (kind.around text).toList =
      kind.opening ++ ((' ' :: text.toList ++ [' ']) ++ kind.closing ++ []) := by
  simp [around]

namespace Spec

/-- A text without the closing mark is the body of the block around it. -/
theorem parse_around {kind : BlockKind} {text : String} (h : ¬ kind.closing <:+: text.toList) :
    parse (kind.around text) =
      (columns (' ' :: text.toList ++ [' '])).map fun cols => ofBlocks [⟨kind, cols⟩] := by
  have hskip : skipBlanks (kind.around text).toList = (kind.around text).toList := by
    rw [kind.toList_around]
    exact skipBlanks_of_head (by cases kind <;> simp [BlockKind.opening] <;> rfl)
  have ho : opened? (skipBlanks (kind.around text).toList) =
      some (kind, (' ' :: text.toList ++ [' ']) ++ kind.closing ++ []) := by
    rw [hskip, kind.toList_around]
    exact opened?_append kind _
  rw [parse, blocks_of_opened ho (cutAt_closing_spaced h []), blocks_of_blank rfl]
  cases columns (' ' :: text.toList ++ [' ']) <;> rfl

/-- A query without references is the column of the block around it if and only if it holds neither
the separator of columns nor the mark that closes the block. -/
theorem parse_around_iff {kind : BlockKind} {text : String} {q : Query}
    (h : Query.parse text = .ok q) (hr : '$' ∉ text.toList) :
    parse (kind.around text) = .ok (ofBlocks [⟨kind, [Template.parse (trim text)]⟩]) ↔
      ¬ ['&', '&'] <:+: text.toList ∧ ¬ kind.closing <:+: text.toList := by
  have hclosing : ∀ c ∈ kind.closing, isBlank c = false :=
    forall_mem_of_all (by cases kind <;> decide)
  constructor
  · intro hparse
    -- a block that has been read fits into its quotes, and the text is what it shows
    have hfit : Fits kind (Template.parse (trim text)) := by
      obtain ⟨-, hfits⟩ := fits_of_parse hparse
      cases kind
      · exact hfits ⟨.binding, [_]⟩ (by simp [ofBlocks, toBlocks]) _ List.mem_cons_self
      · exact hfits ⟨.row, [_]⟩ (by simp [ofBlocks, toBlocks]) _ List.mem_cons_self
    have hun := hfit.unparted
    have hcl := hfit.unclosed
    -- blanks around the text make no difference to the marks that it may not hold
    rw [display_parse_of_plain (not_mem_trim hr), trim, String.toList_ofList,
      infix_trimChars_iff (List.cons_ne_nil _ _) (forall_mem_of_all (by decide))] at hun
    rw [display_parse_of_plain (not_mem_trim hr), trim, String.toList_ofList,
      infix_trimChars_iff kind.closing_ne_nil hclosing] at hcl
    exact ⟨hun, hcl⟩
  · rintro ⟨hun, hcl⟩
    rw [parse_around hcl, columns_spaced h hr hun]
    rfl

/-- A query without references, alone in a row or in a binding block, makes the label of that one
column, its text the query without the blanks around it, if and only if it holds no `&&` and no
mark that closes the block; quotes in the query make no difference. -/
theorem parse_around_query_iff {text : String} {q : Query} (h : Query.parse text = .ok q)
    (hr : '$' ∉ text.toList) :
    (Template.parse (trim text)).display = trim text ∧
      (parse ("\x7b " ++ text ++ " \x7d") = .ok (ofQuery (trim text)) ↔
        ¬ "&&".toList <:+: text.toList ∧ '\x7d' ∉ text.toList) ∧
      (parse ("<< " ++ text ++ " >>") = .ok ⟨[Template.parse (trim text)], []⟩ ↔
        ¬ "&&".toList <:+: text.toList ∧ ¬ ">>".toList <:+: text.toList) := by
  have hrow : "\x7b " ++ text ++ " \x7d" = BlockKind.row.around text := by
    rw [← String.toList_inj, BlockKind.toList_around]
    simp [BlockKind.opening, BlockKind.closing]
  have hbinding : "<< " ++ text ++ " >>" = BlockKind.binding.around text := by
    rw [← String.toList_inj, BlockKind.toList_around]
    simp [BlockKind.opening, BlockKind.closing]
  have hmem : ['\x7d'] <:+: text.toList ↔ '\x7d' ∈ text.toList := List.singleton_infix_iff _ _
  rw [hrow, hbinding, ← hmem]
  exact ⟨display_parse_of_plain (not_mem_trim hr), parse_around_iff h hr, parse_around_iff h hr⟩

/-- A predicate on a type name with single marks in it. -/
theorem parse_around_query_iff_vector :
    parse "\x7b  port[@type='vector<int>']/@name \x7d" =
        .ok (ofQuery "port[@type='vector<int>']/@name") ∧
      parse "<<  port[@type='vector<int>']/@name >>" =
        .ok ⟨[Template.parse "port[@type='vector<int>']/@name"], []⟩ := by
  have h : Query.parse " port[@type='vector<int>']/@name" =
      .ok (.union [⟨false, [⟨false, .child (.name "port") [.attrEquals "type" "vector<int>"]⟩,
        ⟨false, .attribute (.name "name")⟩]⟩]) := by decide +kernel
  have htrim : trim " port[@type='vector<int>']/@name" = "port[@type='vector<int>']/@name" := by
    decide +kernel
  obtain ⟨-, hrow, hbinding⟩ := parse_around_query_iff h (by decide)
  rw [htrim] at hrow hbinding
  exact ⟨hrow.2 (by decide +kernel), hbinding.2 (by decide +kernel)⟩

/-- A closing mark in quotes ends the block, so this query cannot be bound. -/
theorem not_parse_around_quoted_closing :
    (∃ q, Query.parse "port[@type='vector<vector<int>>']/@name" = .ok q) ∧
      '$' ∉ "port[@type='vector<vector<int>>']/@name".toList ∧
      ∀ spec, parse "<< port[@type='vector<vector<int>>']/@name >>" ≠ .ok spec := by
  have h : (Query.parse "port[@type='vector<vector<int>>']/@name").toOption.isSome = true ∧
      (parse "<< port[@type='vector<vector<int>>']/@name >>").toOption = none := by
    decide +kernel
  refine ⟨?_, by decide, fun spec hs => ?_⟩
  · cases hq : Query.parse "port[@type='vector<vector<int>>']/@name" with
    | ok q => exact ⟨q, rfl⟩
    | error e =>
      rw [hq] at h
      cases h.1
  · rw [hs] at h
    cases h.2

end Spec

end NetPlot.Label
