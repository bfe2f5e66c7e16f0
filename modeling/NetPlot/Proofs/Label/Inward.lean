/-
  Labels that look at nothing but the element that they are of.

  A column is inward if nothing is put into it and its query, if it is one, is inward.  What a
  label binds is then of no use, and only its rows count: they have the same values at all places
  of an element (`evaluate_congr`).
-/
import NetPlot.Label.Rows
import NetPlot.Proofs.Query.Locality

namespace NetPlot.Label

open NetPlot.Xml

namespace Template

/-- Is a column without references, and inward where it is a query? -/
def isInward (t : Template) : Bool :=
  !t.hasReferences &&
    match Query.parse t.display with
    | .ok q => q.isInward
    | .error _ => true

/-- Nothing is put into a column without references. -/
theorem render_eq_display {t : Template} (h : t.hasReferences = false) (values : List String) :
    t.render values = t.display := by
  have hs : t.segments.map (·.render values) = t.segments.map (·.render []) := by
    refine List.map_congr_left fun segment hm => ?_
    rw [hasReferences, List.any_eq_false] at h
    cases segment with
    | text s => rfl
    | reference n => exact absurd rfl (h _ hm)
  rw [display, render, render, hs]

/-- Two places of one element give an inward column the same values, whatever is bound at each. -/
theorem evaluate_congr {t : Template} (h : t.isInward = true) {c c' : Cursor}
    (hc : c.element = c'.element) (values values' : List String) :
    t.evaluate values c = t.evaluate values' c' := by
  rw [isInward, Bool.and_eq_true, Bool.not_eq_true'] at h
  obtain ⟨hreferences, hquery⟩ := h
  rw [evaluate, evaluate, render_eq_display hreferences, render_eq_display hreferences]
  cases hp : Query.parse t.display with
  | error e => rfl
  | ok q =>
    rw [hp] at hquery
    show q.evaluate c = q.evaluate c'
    rw [Query.evaluate_eq_ofRoot hquery c, Query.evaluate_eq_ofRoot hquery c', hc]

end Template

namespace Spec

/-- Are all the columns that are shown inward? -/
def isInward (spec : Spec) : Bool := spec.rows.all fun row => row.all (·.isInward)

/-- An inward label is the same at all places of an element. -/
theorem evaluate_congr {spec : Spec} (h : spec.isInward = true) {c c' : Cursor}
    (hc : c.element = c'.element) : spec.evaluate c = spec.evaluate c' := by
  rw [isInward, List.all_eq_true] at h
  refine List.map_congr_left fun row hrow => congrArg zipLongest ?_
  exact List.map_congr_left fun t ht =>
    Template.evaluate_congr (List.all_eq_true.mp (h row hrow) t ht) hc _ _

end Spec

end NetPlot.Label
