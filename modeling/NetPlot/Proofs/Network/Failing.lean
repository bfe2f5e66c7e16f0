/-
  When a model cannot be compiled, and what is said about it.

  1. **Specification** — `demands` lists the documents that a model needs, a document before those
     of the composites in it: the input, and from each network above the detail level the document
     of each composite, whether other documents can be used or not.  `Demand.Fails` says in which
     three ways a document cannot be used, and how that is put into words.

  2. **Readings** — a reading `Reports` on demands if it opens them one after the other, up to the
     first that fails, and blames that one.  Reports are put together like readings
     (`Reports.bind`, `Reports.inside`).

  3. **Expanding** — the expansion of composites reports on what they demand (`reports_expand`).

  4. **Failure** — a model fails to compile if and only if one of its demands fails, and the first
     of them is what the failure is about (`failure_of_compile`).
-/
import NetPlot.Proofs.Network.Steps
import NetPlot.Proofs.Xml.Places

namespace NetPlot.Network

open NetPlot.Xml

/-! ## Specification

The demands are all documents that would be needed if none failed.  A run goes through them in this
order and stops at the first that fails, so the list does not depend on where that is. -/

/-- A document that a model needs. -/
structure Demand where
  path : Path
  /-- The process that it is the document of. -/
  owner : Identity
  /-- The composites on the way to it, outermost first. -/
  within : List Identity
  deriving DecidableEq, Repr

/-- The document cannot be used, for the reason given, outermost message first. -/
inductive Demand.Fails (source : Source) (d : Demand) : List String → Prop where
  /-- It cannot be read. -/
  | unreadable {cause : Unreadable} (h : source d.path = .error cause) :
      Fails source d (("Failed to load the model of <" ++ d.owner.text ++ ">") :: cause.messages)
  /-- It is not well-formed. -/
  | malformed {text : String} (h : source d.path = .ok text) (hx : parse? text = none) :
      Fails source d ["Failed to parse XML " ++ d.path.text]
  /-- No element at any place of it is a network. -/
  | lacking {text : String} {root : Element} (h : source d.path = .ok text)
      (hx : parse? text = some root)
      (hn : ∀ address e, root.at? address = some e → e.name ≠ "process_network") :
      Fails source d ["No <process_network> element in " ++ d.path.text]

/-- The documents that composites of the network of a process demand at a level, each before those
that the composites in it demand. -/
def demandsAlong (source : Source) (s : Settings) (level : Nat) (within : List Identity)
    (parent : Identity) (sites : List Cursor) : List Demand :=
  if level < s.config.maxLevel then
    sites.flatMap fun site =>
      let id := identityAt parent site
      let path := componentFile s.inDir (site.element.attr "component_name")
      ⟨path, id, within ++ [id]⟩ ::
        match networkOf? source s.inDir site with
        | none => []
        | some network =>
          demandsAlong source s (level + 1) (within ++ [id]) id (compositesOf network)
  else []
termination_by s.config.maxLevel - level

/-- All documents that a model needs: the input and what the composites in it demand. -/
def demands (source : Source) (s : Settings) : List Demand :=
  ⟨s.input, ⟨s.rootName⟩, []⟩ ::
    match rootNetwork? source s with
    | none => []
    | some network =>
      demandsAlong source s firstLevel [] ⟨s.rootName⟩ (compositesOf network)

section

variable {source : Source} {s : Settings} {level : Nat} {within : List Identity}
  {parent : Identity}

theorem demandsAlong_nil : demandsAlong source s level within parent [] = [] := by
  rw [demandsAlong]
  split <;> rfl

theorem demandsAlong_of_le (h : s.config.maxLevel ≤ level) (sites : List Cursor) :
    demandsAlong source s level within parent sites = [] := by
  rw [demandsAlong, if_neg (Nat.not_lt.mpr h)]

/-- A composite demands its own document, then what is in it, and then come the other composites. -/
theorem demandsAlong_cons (h : level < s.config.maxLevel) (site : Cursor) (sites : List Cursor) :
    demandsAlong source s level within parent (site :: sites) =
      (⟨componentFile s.inDir (site.element.attr "component_name"), identityAt parent site,
          within ++ [identityAt parent site]⟩ ::
        match networkOf? source s.inDir site with
        | none => []
        | some network => demandsAlong source s (level + 1) (within ++ [identityAt parent site])
            (identityAt parent site) (compositesOf network))
      ++ demandsAlong source s level within parent sites := by
  rw [demandsAlong, if_pos h, List.flatMap_cons]
  refine congrArg (_ ++ ·) ?_
  rw [demandsAlong, if_pos h]

end

/-! ## Documents

A document can be used, or it fails in exactly one of three ways.  That these are all there are is
what makes the failure an equivalence and not just an implication. -/

/-- The document can be used. -/
def Demand.Opens (source : Source) (d : Demand) : Prop :=
  ∃ network, openDocument source "process_network" d.path = .ok network

/-- What is said about a failure begins with the composites around it. -/
theorem Failure.messages_eq (f : Failure) :
    f.messages = f.within.map (fun id => "Failed to expand composite process <" ++ id.text ++ ">")
      ++ (⟨[], f.owner, f.fault⟩ : Failure).messages := by
  cases hf : f.fault <;> simp [messages, hf]

/-- In which way an element cannot be had from a document. -/
inductive Unusable (source : Source) (name : String) (path : Path) : Fault → Prop where
  | unreadable {cause : Unreadable} (h : source path = .error cause) :
      Unusable source name path (.unreadable cause)
  | malformed {text : String} (h : source path = .ok text) (hx : parse? text = none) :
      Unusable source name path (.malformed path)
  /-- No element at any place has the name. -/
  | lacking {text : String} {root : Element} (h : source path = .ok text)
      (hx : parse? text = some root)
      (hn : ∀ address e, root.at? address = some e → e.name ≠ name) :
      Unusable source name path (.lacking name path)

/-- Opening a document fails in just the ways in which it cannot be used. -/
theorem openDocument_eq_error_iff {source : Source} {name : String} {path : Path} {f : Fault} :
    openDocument source name path = .error f ↔ Unusable source name path f := by
  constructor
  · intro hf
    rw [openDocument] at hf
    -- reading, parsing and looking for the network are tried in this order
    split at hf
    next h =>
      obtain rfl := Except.error.inj hf
      exact .unreadable h
    next h =>
      split at hf
      next hx =>
        obtain rfl := Except.error.inj hf
        exact .malformed h hx
      next hx =>
        split at hf
        next hn =>
          obtain rfl := Except.error.inj hf
          exact .lacking h hx (Cursor.firstNamed?_eq_none_iff.mp hn)
        next => cases hf
  · rintro (h | ⟨h, hx⟩ | ⟨h, hx, hn⟩)
    · rw [openDocument, h]
    · rw [openDocument, h]
      simp only [hx]
    · rw [openDocument, h]
      simp only [hx, Cursor.firstNamed?_eq_none_iff.mpr hn]

/-- A document fails with the messages of its fault, and with no others. -/
theorem Demand.fails_iff {source : Source} {d : Demand} {messages : List String} :
    d.Fails source messages ↔ ∃ fault, openDocument source "process_network" d.path = .error fault ∧
      messages = (⟨[], d.owner, fault⟩ : Failure).messages := by
  constructor
  · rintro (h | ⟨h, hx⟩ | ⟨h, hx, hn⟩)
    · exact ⟨_, openDocument_eq_error_iff.mpr (.unreadable h), rfl⟩
    · exact ⟨_, openDocument_eq_error_iff.mpr (.malformed h hx), rfl⟩
    · exact ⟨_, openDocument_eq_error_iff.mpr (.lacking h hx hn), rfl⟩
  · rintro ⟨fault, hf, rfl⟩
    -- the three ways match one by one
    cases openDocument_eq_error_iff.mp hf with
    | unreadable h => exact .unreadable h
    | malformed h hx => exact .malformed h hx
    | lacking h hx hn => exact .lacking h hx hn

/-- A document can be used or fails, not both. -/
theorem Demand.opens_iff {source : Source} {d : Demand} :
    d.Opens source ↔ ∀ messages, ¬ d.Fails source messages := by
  constructor
  · rintro ⟨network, ho⟩ messages hf
    obtain ⟨fault, hf, -⟩ := fails_iff.mp hf
    rw [ho] at hf
    cases hf
  · intro h
    cases ho : openDocument source "process_network" d.path with
    | ok network => exact ⟨network, ho⟩
    | error fault => exact absurd (fails_iff.mpr ⟨fault, ho, rfl⟩) (h _)

/-! ## Readings

A report keeps what a run has opened beside what was demanded of it.  Reports are put together in
the same way as readings, so the proof follows the program without opening it. -/

/-- A reading that succeeds has opened what was demanded, all of which can be used.  One that fails
has opened it up to the first document that cannot be used, and tells the composites on the way to
that one, from `within` on. -/
def Reports {α : Type} (source : Source) (within : List Identity) (ds : List Demand)
    (x : Reading Failure α) : Prop :=
  match x.outcome with
  | .ok _ => x.opened = ds.map (·.path) ∧ ∀ d ∈ ds, d.Opens source
  | .error f => ∃ before d after, ds = before ++ d :: after ∧ (∀ b ∈ before, b.Opens source) ∧
      openDocument source "process_network" d.path = .error f.fault ∧ d.owner = f.owner ∧
      d.within = within ++ f.within ∧ x.opened = before.map (·.path) ++ [d.path]

namespace Reports

variable {α β : Type} {source : Source} {within : List Identity} {ds es : List Demand}

theorem of_pure (a : α) : Reports source within [] (.pure a) :=
  ⟨rfl, fun _ hd => absurd hd List.not_mem_nil⟩

theorem of_open (id : Identity) (path : Path) :
    Reports source within [⟨path, id, within⟩] (openNetwork source id path) := by
  -- a single demand: it is met, or it is the first that fails
  cases ho : openDocument source "process_network" path with
  | ok network =>
    have hx : openNetwork source id path = ⟨[path], .ok network⟩ := by
      rw [openNetwork, Reading.open?, ho]
      rfl
    rw [hx]
    exact ⟨rfl, fun d hd => ⟨network, List.mem_singleton.mp hd ▸ ho⟩⟩
  | error fault =>
    have hx : openNetwork source id path = ⟨[path], .error ⟨[], id, fault⟩⟩ := by
      rw [openNetwork, Reading.open?, ho]
      rfl
    rw [hx]
    exact ⟨[], ⟨path, id, within⟩, [], rfl, fun _ hb => absurd hb List.not_mem_nil, ho, rfl,
      (List.append_nil within).symm, rfl⟩

theorem map {x : Reading Failure α} (h : Reports source within ds x) (f : α → β) :
    Reports source within ds (x.map f) := by
  obtain ⟨opened, outcome⟩ := x
  cases outcome <;> exact h

/-- The second reading matters only if the first one succeeds. -/
theorem bind {x : Reading Failure α} {f : α → Reading Failure β}
    (h : Reports source within ds x)
    (hf : ∀ a, x.outcome = .ok a → Reports source within es (f a)) :
    Reports source within (ds ++ es) (x.bind f) := by
  obtain ⟨opened, outcome⟩ := x
  cases outcome with
  | error failure =>
    -- what would have come next is not opened, and stands behind the document that failed
    obtain ⟨before, d, after, rfl, hb, ho, hown, hw, hp⟩ := h
    exact ⟨before, d, after ++ es, by simp, hb, ho, hown, hw, hp⟩
  | ok a =>
    obtain ⟨rfl, hds⟩ := h
    have hfa := hf a rfl
    have hx : Reading.bind ⟨ds.map (·.path), .ok a⟩ f =
        ⟨ds.map (·.path) ++ (f a).opened, (f a).outcome⟩ := rfl
    rw [hx]
    revert hfa
    obtain ⟨opened, outcome⟩ := f a
    cases outcome with
    | ok b =>
      rintro ⟨rfl, hes⟩
      exact ⟨List.map_append.symm, fun d hd => (List.mem_append.mp hd).elim (hds d) (hes d)⟩
    | error failure =>
      rintro ⟨before, d, after, rfl, hb, ho, hown, hw, rfl⟩
      exact ⟨ds ++ before, d, after, by simp,
        fun b hm => (List.mem_append.mp hm).elim (hds b) (hb b), ho, hown, hw, by simp⟩

/-- A failure inside of a composite tells of that composite first. -/
theorem inside {x : Reading Failure α} {id : Identity}
    (h : Reports source (within ++ [id]) ds x) :
    Reports source within ds (x.mapError (Failure.inside id)) := by
  obtain ⟨opened, outcome⟩ := x
  cases outcome with
  | ok a => exact h
  | error failure =>
    obtain ⟨before, d, after, hd, hb, ho, hown, hw, hp⟩ := h
    exact ⟨before, d, after, hd, hb, ho, hown, by rw [hw, List.append_assoc]; rfl, hp⟩

end Reports

/-! ## Expanding -/

/-- A network that was opened is the one in the document. -/
theorem toOption_of_open {source : Source} {id : Identity} {path : Path} {network : Cursor}
    (h : (openNetwork source id path).outcome = .ok network) :
    (openDocument source "process_network" path).toOption = some network := by
  have ho : openNetwork source id path = ⟨(openNetwork source id path).opened, .ok network⟩ := by
    rw [← h]
  exact (openNetwork_eq_ok.mp ho).2

/-- Expanding composites reports on what they demand. -/
theorem reports_expand (source : Source) (s : Settings) (level : Nat) (parent : Identity)
    (sites : List Cursor) (within : List Identity) :
    Reports source within (demandsAlong source s level within parent sites)
      (expand source s.inDir s.config.maxLevel level parent sites) := by
  fun_induction expand source s.inDir s.config.maxLevel level parent sites generalizing within with
  | case1 =>
    rw [demandsAlong_nil]
    exact Reports.of_pure _
  | case2 level parent site rest hl ih =>
    have hr := ih within
    rw [demandsAlong_of_le hl] at hr ⊢
    exact hr.map _
  | case3 level parent site rest hl =>
    rename_i _ _ ihi ihr
    rw [demandsAlong_cons (Nat.lt_of_not_le hl)]
    -- the document of the composite, then what is demanded in it, then the other composites
    refine Reports.bind (Reports.inside ?_) fun _ _ => (ihr within).map _
    refine Reports.bind (Reports.of_open _ _) fun network hn => ?_
    rw [networkOf?, toOption_of_open hn]
    exact (ihi network _).map _

/-- Loading a model reports on all that it demands. -/
theorem reports_load (source : Source) (s : Settings) :
    Reports source [] (demands source s) (Model.load source s) := by
  rw [demands, ← List.singleton_append]
  refine Reports.bind (Reports.of_open _ _) fun network hn => ?_
  rw [rootNetwork?, toOption_of_open hn]
  exact (reports_expand source s firstLevel ⟨s.rootName⟩ (compositesOf network) []).map _

/-! ## Failure -/

/-- **Failure.**  A model fails to compile if and only if one of the documents that it demands
cannot be read, is not well-formed or has no network.  The first of them is the last document that
is opened, after those in front of it; the failure names the composites on the way to it, from the
outside, and then says what is wrong with it.  Where none fails, all are opened. -/
theorem failure_of_compile (source : Source) (s : Settings) :
    ((∃ f, (compile source s).outcome = .error f) ↔
      ∃ d ∈ demands source s, ∃ messages, d.Fails source messages) ∧
    (∀ f, (compile source s).outcome = .error f →
      ∃ before d after messages, demands source s = before ++ d :: after ∧
        (∀ b ∈ before, ∀ messages, ¬ b.Fails source messages) ∧ d.Fails source messages ∧
        (compile source s).opened = before.map (·.path) ++ [d.path] ∧
        f.messages = d.within.map (fun id =>
          "Failed to expand composite process <" ++ id.text ++ ">") ++ messages) ∧
    ∀ g, (compile source s).outcome = .ok g →
      (compile source s).opened = (demands source s).map (·.path) := by
  have hr : Reports source [] (demands source s) (compile source s) :=
    (reports_load source s).map _
  revert hr
  obtain ⟨opened, outcome⟩ := compile source s
  -- the report of the run tells which demands were met, so each case reads it off
  cases outcome with
  | ok g =>
    rintro ⟨ho, hd⟩
    refine ⟨⟨fun ⟨f, hf⟩ => (by cases hf), fun ⟨d, hm, messages, hf⟩ => ?_⟩,
      fun f hf => (by cases hf), fun _ _ => ho⟩
    exact absurd hf (Demand.opens_iff.mp (hd d hm) messages)
  | error f =>
    rintro ⟨before, d, after, hd, hb, ho, hown, hw, hp⟩
    have hf : d.Fails source (⟨[], d.owner, f.fault⟩ : Failure).messages :=
      Demand.fails_iff.mpr ⟨f.fault, ho, rfl⟩
    refine ⟨⟨fun _ => ⟨d, by simp [hd], _, hf⟩, fun _ => ⟨f, rfl⟩⟩, ?_, fun g hg => (by cases hg)⟩
    intro f' hf'
    obtain rfl : f = f' := Except.error.inj hf'
    refine ⟨before, d, after, _, hd, fun b hm => Demand.opens_iff.mp (hb b hm), hf, hp, ?_⟩
    rw [f.messages_eq, hw, hown, List.nil_append]

/-- Settings under which the small model needs a third document, which is not there. -/
def deepSettings : Settings :=
  { sampleSettings with config := { Config.default with maxLevel := 4 } }

/-- The third document is not there, and the failure names both composites on the way to it. -/
theorem failure_of_compile_sample :
    ∃ f, (compile sampleSource deepSettings).outcome = .error f ∧
      ∃ before d after messages, demands sampleSource deepSettings = before ++ d :: after ∧
        (∀ b ∈ before, ∀ messages, ¬ b.Fails sampleSource messages) ∧
        d.Fails sampleSource messages ∧
        (compile sampleSource deepSettings).opened = before.map (·.path) ++ [d.path] ∧
        f.messages = d.within.map (fun id =>
          "Failed to expand composite process <" ++ id.text ++ ">") ++ messages := by
  cases hf : (compile sampleSource deepSettings).outcome with
  | ok g =>
    have hu : usable sampleSource deepSettings = false := by decide +kernel
    rw [compile_ok_iff.mp ⟨g, hf⟩] at hu
    cases hu
  | error f => exact ⟨f, rfl, (failure_of_compile sampleSource deepSettings).2.1 f hf⟩

example : (demands sampleSource deepSettings).map (fun d => (d.path.text, d.within.map (·.text))) =
    [("top.xml", []), ("./x.xml", ["top@X"]), ("./.xml", ["top@X", "top@X@B"])] := by
  decide +kernel

end NetPlot.Network
