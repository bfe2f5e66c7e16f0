/-
  Records that can be read in one way only.

  1. **Regions** — a record holds no more closing braces than its three regions need, so whatever is
     taken for them is what was written (`record_eq_regions_iff`).

  2. **Fields** — no field holds a bar or a further bracket, so fields without bars that are written
     like a region are its fields (`portFields_eq_iff`).

  3. **Ports** — so each port of a process is in the record once, among those of its direction
     (`record_decodes`).

  The names and labels of a document stand in a record among the marks that structure it.  That the
  record can be read in one way only means that none of them can pass for a part of the structure.
-/
import Mathlib.Data.List.Basic
import NetPlot.Network.Drawing
import NetPlot.Proofs.Network.Addressing
import NetPlot.Proofs.Text.Classes

namespace NetPlot.Label

open NetPlot.Text NetPlot.Xml

/-! ## Regions -/

/-- Three regions in braces. -/
def regions (inputs body outputs : String) : String :=
  "\x7b \x7b " ++ inputs ++ " \x7d | \x7b " ++ body ++ " \x7d | \x7b " ++ outputs ++ " \x7d \x7d"

/-- What ends at the first mark ends at the same place in the same text. -/
theorem cut_inj {mark a b r t : List Char} {c : Char} (hc : c ∈ mark)
    (ha : c ∉ a ++ mark.dropLast) (hb : c ∉ b ++ mark.dropLast)
    (h : a ++ mark ++ r = b ++ mark ++ t) : a = b ∧ r = t := by
  have hcut := cutAt_of_not_mem hc ha r
  rw [h, cutAt_of_not_mem hc hb t, Option.some.injEq, Prod.mk.injEq] at hcut
  exact ⟨hcut.1.symm, hcut.2.symm⟩

/-- The closing braces of three regions, and what is written between them. -/
theorem toList_regions (i b o : String) : (regions i b o).toList =
    "\x7b \x7b ".toList ++ (i.toList ++ [' ', '\x7d'] ++ (" | \x7b ".toList ++
      (b.toList ++ [' ', '\x7d'] ++ (" | \x7b ".toList ++
        (o.toList ++ [' ', '\x7d'] ++ [' ', '\x7d']))))) := by
  simp [regions]

/-- Regions without closing braces can be told from the text around them. -/
theorem regions_inj {i b o i' b' o' : String} (hi : '\x7d' ∉ i.toList) (hb : '\x7d' ∉ b.toList)
    (ho : '\x7d' ∉ o.toList) (h : regions i b o = regions i' b' o') :
    i = i' ∧ b = b' ∧ o = o' := by
  have hlist := congrArg String.toList h
  rw [toList_regions, toList_regions] at hlist
  -- there are as many closing braces in the text as there are around the regions
  have hcount := congrArg (List.count '\x7d') hlist
  simp only [List.count_append, List.count_eq_zero_of_not_mem hi, List.count_eq_zero_of_not_mem hb,
    List.count_eq_zero_of_not_mem ho] at hcount
  have hnone : i'.toList.count '\x7d' = 0 ∧ b'.toList.count '\x7d' = 0 ∧
      o'.toList.count '\x7d' = 0 := by omega
  simp only [List.count_eq_zero] at hnone
  obtain ⟨hi', hb', ho'⟩ := hnone
  have hbrace : '\x7d' ∈ [' ', '\x7d'] := by decide
  have hbefore {s : List Char} (hs : '\x7d' ∉ s) : '\x7d' ∉ s ++ [' ', '\x7d'].dropLast := by
    simpa using hs
  obtain ⟨hi, hlist⟩ := cut_inj hbrace (hbefore hi) (hbefore hi') (List.append_cancel_left hlist)
  obtain ⟨hb, hlist⟩ := cut_inj hbrace (hbefore hb) (hbefore hb') (List.append_cancel_left hlist)
  obtain ⟨ho, -⟩ := cut_inj hbrace (hbefore ho) (hbefore ho') (List.append_cancel_left hlist)
  exact ⟨String.toList_inj.1 hi, String.toList_inj.1 hb, String.toList_inj.1 ho⟩

/-- A record is written from its own regions alone. -/
theorem record_eq_regions_iff (process : Rows) (ports : List Port) (i b o : String) :
    record process ports = regions i b o ↔
      i = portFields ports .input ∧ b = pretty process ∧ o = portFields ports .output := by
  have hrecord : record process ports =
      regions (portFields ports .input) (pretty process) (portFields ports .output) := rfl
  rw [hrecord]
  constructor
  · intro h
    obtain ⟨hi, hb, ho⟩ := regions_inj (not_mem_portFields ports .input)
      (not_mem_pretty (by decide) process) (not_mem_portFields ports .output) h
    exact ⟨hi.symm, hb.symm, ho.symm⟩
  · rintro ⟨rfl, rfl, rfl⟩
    rfl

/-! ## Fields -/

/-- A tag with a text behind it. -/
def fieldText (field : String × String) : String := "<" ++ field.1 ++ ">" ++ field.2

/-- Fields with bars between them. -/
def fieldsText (fields : List (String × String)) : String :=
  "|".intercalate (fields.map fieldText)

/-- Characters that structure records, and those that quote. -/
def structural : List Char := ['\x7b', '\x7d', '|', '<', '>', '"', '\'', '\\']

theorem toList_fieldText (field : String × String) :
    (fieldText field).toList = '<' :: (field.1.toList ++ '>' :: field.2.toList) := by
  simp [fieldText]

/-- A field without brackets in its tag and text is the only one that is written so. -/
theorem fieldText_inj {x y : String × String} (h₁ : '>' ∉ x.1.toList) (h₂ : '>' ∉ x.2.toList)
    (h : fieldText x = fieldText y) : x = y := by
  have hlist := congrArg String.toList h
  rw [toList_fieldText, toList_fieldText, List.cons.injEq] at hlist
  obtain ⟨htag, -, htext⟩ := (List.append_cons_inj_of_notMem h₁ h₂).1 hlist.2
  exact Prod.ext (String.toList_inj.1 htag) (String.toList_inj.1 htext)

theorem toList_fieldsText (fields : List (String × String)) :
    (fieldsText fields).toList =
      ['|'].intercalate (fields.map fun x => (fieldText x).toList) := by
  rw [fieldsText, String.toList_intercalate, List.map_map]
  rfl

/-- Fields without bars are the pieces of what they are written as. -/
theorem pieces_fieldsText {fields : List (String × String)} (hne : fields ≠ [])
    (h : ∀ x ∈ fields, '|' ∉ x.1.toList ∧ '|' ∉ x.2.toList) :
    pieces '|' [] (fieldsText fields).toList = fields.map fun x => (fieldText x).toList := by
  rw [toList_fieldsText]
  refine pieces_intercalate (by simpa using hne) fun s hs => ?_
  obtain ⟨x, hx, rfl⟩ := List.mem_map.1 hs
  rw [toList_fieldText]
  simp [h x hx]

/-- A side with a field is not the empty text, which a side without fields is. -/
theorem fieldsText_ne_empty (x : String × String) (fields : List (String × String)) :
    fieldsText (x :: fields) ≠ "" := by
  rw [ne_eq, ← String.toList_inj, toList_fieldsText]
  cases fields <;> simp [toList_fieldText]

/-- Lists are equal if what they are mapped to is, and the members of the first can be told apart by
it. -/
theorem eq_of_map_eq {α β : Type} {f : α → β} {l m : List α}
    (hf : ∀ x ∈ l, ∀ y, f x = f y → x = y) (h : l.map f = m.map f) : l = m := by
  induction l generalizing m with
  | nil => exact (List.map_eq_nil_iff.1 h.symm).symm
  | cons x l ih =>
    obtain ⟨y, m, rfl, hxy, hlm⟩ := List.map_eq_cons_iff.1 h.symm
    rw [hf x List.mem_cons_self y hxy.symm,
      ih (fun z hz => hf z (List.mem_cons_of_mem x hz)) hlm.symm]

/-- Fields without bars and brackets are the only ones without bars that are written so. -/
theorem fieldsText_inj {fields others : List (String × String)}
    (hbar : ∀ x ∈ fields, '|' ∉ x.1.toList ∧ '|' ∉ x.2.toList)
    (hbracket : ∀ x ∈ fields, '>' ∉ x.1.toList ∧ '>' ∉ x.2.toList)
    (hothers : ∀ x ∈ others, '|' ∉ x.1.toList ∧ '|' ∉ x.2.toList)
    (h : fieldsText fields = fieldsText others) : fields = others := by
  cases fields with
  | nil =>
    cases others with
    | nil => rfl
    | cons y others => exact absurd h.symm (fieldsText_ne_empty y others)
  | cons x fields =>
    cases others with
    | nil => exact absurd h (fieldsText_ne_empty x fields)
    | cons y others =>
      -- both are cut at their bars, and the pieces tell the fields
      have hpieces := pieces_fieldsText (List.cons_ne_nil x fields) hbar
      rw [h, pieces_fieldsText (List.cons_ne_nil y others) hothers] at hpieces
      refine eq_of_map_eq (fun z hz w hzw => ?_) hpieces.symm
      exact fieldText_inj (hbracket z hz).1 (hbracket z hz).2 (String.toList_inj.1 hzw)

section

variable {ports : List Port} {d : Direction}

theorem not_mem_of_structural : ∀ c ∈ structural, isTextChar c = false ∧ isFieldChar c = false :=
  forall_mem_of_all (by decide)

/-- Tags and texts are free of structure. -/
theorem not_mem_fieldsOf {x : String × String} (hx : x ∈ fieldsOf ports d) {c : Char}
    (hc : c ∈ structural) : c ∉ x.1.toList ∧ c ∉ x.2.toList := by
  obtain ⟨p, -, rfl⟩ := List.mem_map.1 hx
  obtain ⟨htext, hfield⟩ := not_mem_of_structural c hc
  exact ⟨not_mem_sanitize hfield p.name, not_mem_pretty htext p.label⟩

/-- A region is written from the fields of its own ports alone. -/
theorem portFields_eq_iff {fields : List (String × String)}
    (h : ∀ x ∈ fields, '|' ∉ x.1.toList ∧ '|' ∉ x.2.toList) :
    portFields ports d = fieldsText fields ↔ fields = fieldsOf ports d := by
  have hregion : portFields ports d = fieldsText (fieldsOf ports d) := by
    rw [portFields, fieldsText, fieldsOf, List.map_map]
    rfl
  rw [hregion]
  constructor
  · exact fun heq => (fieldsText_inj (fun x hx => not_mem_fieldsOf hx (by decide))
      (fun x hx => not_mem_fieldsOf hx (by decide)) h heq).symm
  · rintro rfl
    rfl

end

end NetPlot.Label

namespace NetPlot.Network

open NetPlot.Label NetPlot.Xml

/-! ## Ports -/

/-- The fields of a process are those of its ports, told apart by their direction. -/
theorem fieldsOf_portsOf (spec : Spec) (c : Cursor) (d : Direction) :
    fieldsOf (portsOf spec c) d =
      ((c.childrenNamed "port").filter fun p => .ofText (p.element.attr "direction") = d).map
        fun p => (sanitize (p.element.attr "name"), pretty (spec.evaluate p)) := by
  rw [fieldsOf, portsOf, List.filter_map, List.map_map]
  rfl

/-- Records can be read in one way only: whatever three regions a record is written from are its own,
and whatever fields without bars a region is written from are those of the ports of its direction,
each with what is left of the name as its tag and the label as its text.  None of these, and not the
body, holds a character of structure.  So each port of a process is in its record once, in the region
of its own direction, where ports are in the order of the model. -/
theorem record_decodes :
    (∀ (process : Rows) (ports : List Port) (i b o : String),
      record process ports = regions i b o ↔
        i = portFields ports .input ∧ b = pretty process ∧ o = portFields ports .output) ∧
    (∀ (ports : List Port) (d : Direction) (fields : List (String × String)),
      (∀ x ∈ fields, '|' ∉ x.1.toList ∧ '|' ∉ x.2.toList) →
        (portFields ports d = fieldsText fields ↔
          fields = (ports.filter (·.direction = d)).map fun p =>
            (sanitize p.name, pretty p.label))) ∧
    (∀ (process : Rows) (ports : List Port), ∀ c ∈ structural,
      c ∉ (pretty process).toList ∧
        ∀ p ∈ ports, c ∉ (sanitize p.name).toList ∧ c ∉ (pretty p.label).toList) ∧
    ∀ (spec : Spec) (c : Cursor),
      (∀ d, fieldsOf (portsOf spec c) d =
        ((c.childrenNamed "port").filter fun p => .ofText (p.element.attr "direction") = d).map
          fun p => (sanitize (p.element.attr "name"), pretty (spec.evaluate p))) ∧
      (fieldsOf (portsOf spec c) .input ++ fieldsOf (portsOf spec c) .output).Perm
        ((c.childrenNamed "port").map fun p =>
          (sanitize (p.element.attr "name"), pretty (spec.evaluate p))) := by
  refine ⟨record_eq_regions_iff, fun ports d fields h => portFields_eq_iff h, ?_, ?_⟩
  · intro process ports c hc
    obtain ⟨htext, hfield⟩ := not_mem_of_structural c hc
    exact ⟨not_mem_pretty htext process,
      fun p _ => ⟨not_mem_sanitize hfield p.name, not_mem_pretty htext p.label⟩⟩
  · intro spec c
    refine ⟨fieldsOf_portsOf spec c, ?_⟩
    have hperm := fieldsOf_perm (portsOf spec c)
    rwa [portsOf, List.map_map] at hperm

end NetPlot.Network
