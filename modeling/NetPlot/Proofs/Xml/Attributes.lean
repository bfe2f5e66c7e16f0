/-
  Attributes of the elements of a document.

  1. **Everywhere** — a property holds `Everywhere` in an element if it holds of the element and of
     all elements below it; it is checked at the element and in its children (`everywhere_iff`).

  2. **Opened elements** — a start tag with two attributes of one name, both without a qualifier, is
     refused (`plain_of?`).  What comes up to the end tag changes no attribute, and the children that
     are added are complete (`Opened.Sound`).

  3. **Documents** — so plain names tell attributes apart in every element of a document
     (`plain_of_parse?`).
-/
import Mathlib.Data.List.Nodup
import NetPlot.Xml.Document

namespace NetPlot.Xml

/-! ## Everywhere -/

namespace Element

/-- The property holds of an element and of all below it. -/
def Everywhere (P : Element → Prop) (e : Element) : Prop := ∀ a f, e.at? a = some f → P f

/-- Below an element are its children and what is below them. -/
theorem everywhere_iff {P : Element → Prop} {e : Element} :
    e.Everywhere P ↔ P e ∧ ∀ c ∈ e.children, c.Everywhere P := by
  constructor
  · intro h
    refine ⟨h [] e rfl, fun c hc a f hf => ?_⟩
    obtain ⟨i, hi⟩ := List.mem_iff_getElem?.1 hc
    exact h (i :: a) f (by rw [at?, hi, Option.bind_some, hf])
  · rintro ⟨hself, hchildren⟩ a f hf
    -- an address leads to the element itself or into one of its children
    cases a with
    | nil => exact Option.some.inj hf ▸ hself
    | cons i a =>
      obtain ⟨c, hc, hf⟩ := Option.bind_eq_some_iff.1 hf
      exact hchildren c (List.mem_of_getElem? hc) a f hf

end Element

/-- No two attributes that are written without a qualifier have one name. -/
def Plain (attributes : List Attribute) : Prop :=
  ((attributes.filter fun a => !a.qualified).map (·.name)).Nodup

/-! ## Opened elements

A token that is read changes the innermost open element or closes it.  Each of these changes keeps
it sound, and an element that is closed has the property everywhere. -/

namespace Opened

/-- Plain names tell the attributes apart, here and everywhere in the children so far. -/
structure Sound (o : Opened) : Prop where
  own : Plain o.attributes
  children : ∀ c ∈ o.children, c.Everywhere fun e => Plain e.attributes

/-- The attribute that a name and a value make. -/
def attributeOf (x : QName × String) : Attribute := ⟨x.1.qualifier != "", x.1.name, x.2⟩

/-- The names of plain attributes are among those with vocabularies: their vocabulary is none. -/
theorem plain_sublist {scope : Scope} {own : List (QName × String)}
    {names : List (Option String × String)}
    (hnames : own.mapM (fun x => (vocabulary? scope x.1).map (·, x.1.name)) = some names) :
    (((own.map attributeOf).filter fun a => !a.qualified).map fun a =>
      ((none : Option String), a.name)).Sublist names := by
  induction own generalizing names with
  | nil => exact List.nil_sublist names
  | cons x own ih =>
    rw [List.mapM_cons] at hnames
    obtain ⟨name, hname, hrest⟩ := Option.bind_eq_some_iff.1 hnames
    obtain ⟨names', hnames', hcons⟩ := Option.bind_eq_some_iff.1 hrest
    cases hcons
    -- an unprefixed name belongs to no vocabulary, so it is checked under its own name
    by_cases hq : x.1.qualifier = ""
    · have hnone : vocabulary? scope x.1 = some none := if_pos hq
      have hplain : (none, x.1.name) = name := by
        rw [hnone] at hname
        exact Option.some.inj hname
      rw [List.map_cons, List.filter_cons_of_pos (by simp [attributeOf, hq]), List.map_cons,
        ← hplain]
      exact (ih hnames').cons_cons _
    · rw [List.map_cons, List.filter_cons_of_neg (by simp [attributeOf, hq])]
      exact (ih hnames').cons _

/-- A start tag that is accepted has different plain names, since their pairs with vocabularies
differ. -/
theorem sound_of? {scope : Scope} {tag : QName} {written : List (QName × List Char)} {o : Opened}
    (h : of? scope tag written = some o) : o.Sound := by
  simp only [of?, Option.bind_eq_bind, Option.bind_eq_some_iff, Option.ite_none_right_eq_some,
    Option.some.injEq] at h
  obtain ⟨roles, -, names, hnames, ⟨-, hnodup, -⟩, rfl⟩ := h
  have hpairs := (plain_sublist hnames).nodup hnodup
  rw [← Function.comp_def, ← List.map_map] at hpairs
  exact ⟨List.Nodup.of_map _ hpairs, fun c hc => absurd hc List.not_mem_nil⟩

variable {o : Opened}

theorem Sound.close (h : o.Sound) : o.close.Everywhere fun e => Plain e.attributes :=
  Element.everywhere_iff.2 ⟨h.own, fun c hc => h.children c (List.mem_reverse.1 hc)⟩

theorem Sound.addText (h : o.Sound) (t : List Char) : (o.addText t).Sound := by
  rw [Opened.addText]
  split
  · exact ⟨h.own, h.children⟩
  · exact h

theorem Sound.interrupt (h : o.Sound) : o.interrupt.Sound := ⟨h.own, h.children⟩

theorem Sound.addChild (h : o.Sound) {e : Element}
    (he : e.Everywhere fun e => Plain e.attributes) : (o.addChild e).Sound :=
  ⟨h.own, List.forall_mem_cons.2 ⟨he, h.children⟩⟩

end Opened

/-! ## Documents -/

/-- The elements that are open stay sound up to the end of the outermost one. -/
theorem plain_of_grow? {top : Opened} {outer : List Opened} {ts rest : List Token} {e : Element}
    (htop : top.Sound) (houter : ∀ o ∈ outer, o.Sound) (h : grow? top outer ts = some (e, rest)) :
    e.Everywhere fun e => Plain e.attributes := by
  -- every element still open is sound, token by token, so it is sound when it closes
  fun_induction grow? top outer ts with
  | case1 => cases h
  | case2 top outer ts ih => exact ih htop.interrupt houter h
  | case3 top outer ts ih => exact ih htop.interrupt houter h
  | case4 top outer raw ts t ht ih => exact ih (htop.addText t) houter h
  | case5 => cases h
  | case6 top outer raw ts ih => exact ih (htop.addText _) houter h
  | case7 top outer tag attributes ts o ho ih =>
    exact ih (htop.addChild (Opened.sound_of? ho).close) houter h
  | case8 top outer tag attributes closed ts o ho hclosed ih =>
    exact ih (Opened.sound_of? ho) (List.forall_mem_cons.2 ⟨htop, houter⟩) h
  | case9 => cases h
  | case10 top ts =>
    cases h
    exact htop.close
  | case11 top ts o outer ih =>
    obtain ⟨ho, houter⟩ := List.forall_mem_cons.1 houter
    exact ih (ho.addChild htop.close) houter h
  | case12 => cases h

theorem plain_of_document? {ts : List Token} {root : Element} (h : document? ts = some root) :
    root.Everywhere fun e => Plain e.attributes := by
  rw [document?] at h
  split at h
  next tag attributes closed rest _ =>
    obtain ⟨o, ho, h⟩ := Option.bind_eq_some_iff.1 h
    have hsound := Opened.sound_of? ho
    -- what may follow the root does not change it
    have hlast : ∀ {e : Element} {r : List Token},
        (if r.all Token.isMisc then some e else none) = some root → e = root := fun h =>
      Option.some.inj (Option.ite_none_right_eq_some.1 h).2
    split at h
    · obtain ⟨⟨e, r⟩, he, hend⟩ := Option.bind_eq_some_iff.1 h
      cases he
      exact hlast hend ▸ hsound.close
    · obtain ⟨⟨e, r⟩, hgrow, hend⟩ := Option.bind_eq_some_iff.1 h
      exact hlast hend ▸ plain_of_grow? hsound (List.forall_mem_nil _) hgrow
  next => cases h

/-- In every element of a document, plain names tell attributes apart. -/
theorem plain_of_parse? {text : String} {root : Element} (h : parse? text = some root) :
    root.Everywhere fun e => Plain e.attributes := by
  rw [parse?] at h
  split at h
  · obtain ⟨s, -, h⟩ := Option.bind_eq_some_iff.1 h
    obtain ⟨ts, -, h⟩ := Option.bind_eq_some_iff.1 h
    exact plain_of_document? h
  · cases h

end NetPlot.Xml
