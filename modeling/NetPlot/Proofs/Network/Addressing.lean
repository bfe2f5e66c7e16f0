/-
  Ports as fields of their own.

  1. **Selection** — an anchor points at the fields with the tag before its colon
     (`Fields.selected`).  What is left of a name holds no colon, so the anchor gives it back
     (`tagOf?_anchor`), and anchors at different tags differ.

  2. **Records** — where something is left of the name of each port and no two ports have the same
     left (`TagsApart`), the tags of the record tell its fields apart, and the anchor at a port
     selects the field of this port alone (`selected_anchor`).

  3. **Networks** — the ends of edges at different ports of such a process are apart, and each of
     them selects one field, in hierarchical networks and in application graphs alike
     (`ports_addressed_of_outcome`).  Different names are not enough: two ports with nothing left of
     their names are met at the same place (`exists_unaddressed_ports`).
-/
import Mathlib.Data.List.Nodup
import NetPlot.Proofs.Network.Anchors

namespace NetPlot.Label

open NetPlot.Text

/-! ## Selection

A reader of the text has only the anchor and the record label.  What an anchor selects is said in
terms of these two, without a look at the process that both were made from. -/

/-- The tag that an anchor points at, if it is not a side alone. -/
def tagOf? (anchor : String) : Option String :=
  (cutAt [':'] anchor.toList).map fun (tag, _) => String.ofList tag

/-- The fields of all ports, inputs first. -/
def Fields.ports (f : Fields) : List (String × String) := f.inputs ++ f.outputs

/-- The fields that an anchor points at. -/
def Fields.selected (f : Fields) (anchor : String) : List (String × String) :=
  f.ports.filter fun field => tagOf? anchor = some field.1

example : (Fields.mk [("i", "int"), ("j", "")] "P" [("o", "")]).selected "j:w" = [("j", "")] := by
  decide +kernel

/-- An anchor at a port points at what is left of its name. -/
theorem tagOf?_anchor {name : String} (h : sanitize name ≠ "") (side : String) :
    tagOf? (anchor (some name) side) = some (sanitize name) := by
  -- the tag ends at the first colon, and sanitised names hold none
  have hc : cutAt [':'] ((sanitize name).toList ++ [':'] ++ side.toList) =
      some ((sanitize name).toList, side.toList) :=
    cutAt_of_not_mem (c := ':') List.mem_cons_self
      (by simpa using not_mem_sanitize (c := ':') (by decide) name) _
  have hl : (anchor (some name) side).toList =
      (sanitize name).toList ++ [':'] ++ side.toList := by
    rw [anchor, if_neg h]
    simp
  rw [tagOf?, hl, hc]
  exact congrArg some String.ofList_toList

/-! ## Records

Sanitising may make names equal that were different, so the condition is about what is left
of them: with two equal tags, or with an empty one, no anchor could tell the field. -/

/-- Something is left of the name of each port, and it tells the ports apart. -/
structure TagsApart (ports : List Port) : Prop where
  ne_empty : ∀ p ∈ ports, sanitize p.name ≠ ""
  nodup : (ports.map fun p => sanitize p.name).Nodup

/-- The condition as a pair of conditions that can be decided. -/
theorem tagsApart_iff {ports : List Port} :
    TagsApart ports ↔ (∀ p ∈ ports, sanitize p.name ≠ "") ∧
      (ports.map fun p => sanitize p.name).Nodup :=
  ⟨fun h => ⟨h.ne_empty, h.nodup⟩, fun h => ⟨h.1, h.2⟩⟩

instance (ports : List Port) : Decidable (TagsApart ports) := decidable_of_iff' _ tagsApart_iff

/-- The field of a port: its tag and its text. -/
def fieldOf (p : Port) : String × String := (sanitize p.name, pretty p.label)

/-- The fields of a record are those of its ports, the inputs before the outputs. -/
theorem fieldsOf_perm (ports : List Port) :
    (fieldsOf ports .input ++ fieldsOf ports .output).Perm (ports.map fieldOf) := by
  have hout : ports.filter (·.direction = .output) =
      ports.filter fun p => !decide (p.direction = .input) := by
    refine List.filter_congr fun p _ => ?_
    cases p.direction <;> rfl
  have hsplit := List.filter_append_perm (fun p : Port => decide (p.direction = .input)) ports
  rw [← hout] at hsplit
  have hfields := hsplit.map fieldOf
  rwa [List.map_append] at hfields

variable {process : Rows} {ports : List Port} {p q : Port}

/-- Where the keys tell the members of a list apart, each is the only one with its key. -/
theorem filter_key_eq_singleton {α β : Type} [DecidableEq β] {key : α → β} {l : List α}
    (h : (l.map key).Nodup) {a : α} (ha : a ∈ l) : l.filter (fun x => key x = key a) = [a] := by
  induction l with
  | nil => exact absurd ha List.not_mem_nil
  | cons x l ih =>
    obtain ⟨hx, hl⟩ := List.nodup_cons.mp h
    rcases List.mem_cons.mp ha with rfl | ha
    -- behind the first one with the key there is no other
    · have hnone : l.filter (fun x => key x = key a) = [] := by
        rw [List.filter_eq_nil_iff]
        intro y hy he
        exact hx (of_decide_eq_true he ▸ List.mem_map_of_mem hy)
      rw [List.filter_cons_of_pos (by simp), hnone]
    · have hne : key x ≠ key a := fun he => hx (he ▸ List.mem_map_of_mem ha)
      rw [List.filter_cons_of_neg (by simpa using hne), ih hl ha]

theorem TagsApart.nodup_tags (h : TagsApart ports) :
    ((fieldsOf ports .input ++ fieldsOf ports .output).map Prod.fst).Nodup := by
  rw [((fieldsOf_perm ports).map Prod.fst).nodup_iff, List.map_map]
  exact h.nodup

theorem TagsApart.tag_ne_empty (h : TagsApart ports) {field : String × String}
    (hf : field ∈ fieldsOf ports .input ++ fieldsOf ports .output) : field.1 ≠ "" := by
  obtain ⟨p, hp, rfl⟩ := List.mem_map.mp ((fieldsOf_perm ports).mem_iff.mp hf)
  exact h.ne_empty p hp

/-- The anchor at a port selects the field of the port, and no other one. -/
theorem TagsApart.selected_anchor (h : TagsApart ports) (hp : p ∈ ports) (body side : String) :
    (Fields.mk (fieldsOf ports .input) body (fieldsOf ports .output)).selected
      (anchor (some p.name) side) = [fieldOf p] := by
  have hm : fieldOf p ∈ fieldsOf ports .input ++ fieldsOf ports .output :=
    (fieldsOf_perm ports).mem_iff.mpr (List.mem_map_of_mem hp)
  rw [← filter_key_eq_singleton h.nodup_tags hm, Fields.selected, Fields.ports]
  refine List.filter_congr fun field _ => ?_
  rw [tagOf?_anchor (h.ne_empty p hp), decide_eq_decide, Option.some.injEq]
  exact eq_comm

/-- Anchors at different ports differ, on whatever sides they are. -/
theorem TagsApart.anchor_ne (h : TagsApart ports) (hp : p ∈ ports) (hq : q ∈ ports) (hne : p ≠ q)
    (side side' : String) : anchor (some p.name) side ≠ anchor (some q.name) side' := by
  intro he
  have htag := congrArg tagOf? he
  rw [tagOf?_anchor (h.ne_empty p hp), tagOf?_anchor (h.ne_empty q hq), Option.some.injEq] at htag
  exact hne (List.inj_on_of_nodup_map h.nodup hp hq htag)

end NetPlot.Label

namespace NetPlot.Network

open NetPlot.Graph NetPlot.Label NetPlot.Xml

/-! ## Networks -/

/-- The wires of a visit with the edges that they are drawn as. -/
def Visit.connections (cfg : Config) (v : Visit) : List (Wire × Edge) :=
  (v.wires cfg).map fun w => (w, v.wireEdge cfg w)

/-- The channels of an application graph with the edges that they are drawn as. -/
def connectionsOf (cfg : Config) (app : Cursor) : List (Wire × Edge) :=
  (channelsOf app).map fun x => (channelWire cfg x, channelEdge cfg 1 x)

/-- The edge of a wire has an end at a place that belongs to the port `q` of a process. -/
inductive Recorded.MetAt (r : Recorded) (q : String) : Wire × Edge → String × Option String → Prop
  | tail {w : Wire} (e : Edge) : w.tail = .inner r.process q → MetAt r q (w, e) (tailEnd e)
  | head {w : Wire} (e : Edge) : w.head = .inner r.process q → MetAt r q (w, e) (headEnd e)

/-- The ports of a process can be told apart in its label and by the ends of the edges. -/
structure Recorded.Addressed (r : Recorded) (net : List (Wire × Edge)) : Prop where
  /-- The label has different tags, and an end at a port selects the field of this port. -/
  selected : ∃ (label : String) (fields : Fields), r.node.attributes.get? "label" = some label ∧
    readRecord? label = some fields ∧
      (fields.ports.map Prod.fst).Nodup ∧ (∀ field ∈ fields.ports, field.1 ≠ "") ∧
      ∀ c ∈ net, ∀ p ∈ r.ports, ∀ place, r.MetAt p.name c place →
        ∃ a, place = (r.node.name, some a) ∧ fields.selected a = [fieldOf p]
  /-- Ends at different ports are at different anchors. -/
  apart : ∀ c ∈ net, ∀ d ∈ net, ∀ p ∈ r.ports, ∀ q ∈ r.ports, p ≠ q →
    ∀ a b, r.MetAt p.name c a → r.MetAt q.name d b → a.2 ≠ b.2

/-- A process with a label has its ports addressed by ends that are anchored at their names. -/
theorem Recorded.IsLabelled.addressed {r : Recorded} {net : List (Wire × Edge)} (h : r.IsLabelled)
    (ht : TagsApart r.ports)
    (hmet : ∀ c ∈ net, ∀ q place, r.MetAt q c place →
      ∃ side, place = (r.node.name, some (anchor (some q) side))) : r.Addressed net where
  selected := by
    obtain ⟨process, hl⟩ := h
    refine ⟨_, _, hl, readRecord?_record process r.ports, ht.nodup_tags,
      fun field hf => ht.tag_ne_empty hf, fun c hc p hp place hm => ?_⟩
    -- each place is the node of the process with an anchor at the port
    obtain ⟨side, rfl⟩ := hmet c hc p.name place hm
    exact ⟨_, rfl, ht.selected_anchor hp _ side⟩
  apart := by
    intro c hc d hd p hp q hq hne a b ha hb he
    obtain ⟨side, rfl⟩ := hmet c hc p.name a ha
    obtain ⟨side', rfl⟩ := hmet d hd q.name b hb
    exact ht.anchor_ne hp hq hne side side' (Option.some.inj he)

variable {cfg : Config} {v : Visit} {r : Recorded}

/-- In a network, the end of a wire at a port of a recorded process is anchored at the port. -/
theorem Visit.place_of_metAt (h : r ∈ v.recorded cfg) {c : Wire × Edge}
    (hc : c ∈ v.connections cfg) {q : String} {place : String × Option String}
    (hm : r.MetAt q c place) : ∃ side, place = (r.node.name, some (anchor (some q) side)) := by
  obtain ⟨w, -, rfl⟩ := List.mem_map.mp hc
  cases hm with
  | tail _ ht => exact ⟨_, by rw [tailEnd_wireEdge, ht, Terminal.endAt, v.onSide_endOf h]⟩
  | head _ hh => exact ⟨_, by rw [headEnd_wireEdge, hh, Terminal.endAt, v.onSide_endOf h]⟩

/-- In an application graph, the end of a channel at a port of an actor is anchored at the port. -/
theorem place_of_metAt_actor {app actor : Cursor} {c : Wire × Edge}
    (hc : c ∈ connectionsOf cfg app) {q : String} {place : String × Option String}
    (hm : (recordedActor cfg actor).MetAt q c place) :
    ∃ side, place = ((recordedActor cfg actor).node.name, some (anchor (some q) side)) := by
  obtain ⟨x, -, rfl⟩ := List.mem_map.mp hc
  cases hm with
  | tail _ ht =>
    obtain ⟨hx, hq⟩ := Terminal.inner.inj ht
    exact ⟨_, by rw [tailEnd_channelEdge, hx, hq]; rfl⟩
  | head _ hh =>
    obtain ⟨hx, hq⟩ := Terminal.inner.inj hh
    exact ⟨_, by rw [headEnd_channelEdge, hx, hq]; rfl⟩

/-- **Addresses.**  If the names of the ports of a leaf process, a box or an actor are different and
not empty with all but ASCII letters, digits, `_` and `-` left out of them, so are the tags of the
fields in its label.  The ends of edges at two of its ports are then at different anchors, and each
selects the field of its port and no other one. -/
theorem ports_addressed_of_outcome (source : Source) (s : Settings) :
    (∀ g, (compile source s).outcome = .ok g → ∀ v ∈ visits source s,
      g.edgesIn v.container = (v.connections s.config).map Prod.snd ∧
        ∀ r ∈ v.recorded s.config, TagsApart r.ports → r.Addressed (v.connections s.config)) ∧
    ∀ g, (compileApplication source s).outcome = .ok g →
      ∃ app, openDocument source "applicationGraph" s.input = .ok app ∧
        g.edges = (connectionsOf s.config app).map Prod.snd ∧
          ∀ actor ∈ actorsOf app, let r := recordedActor s.config actor
            TagsApart r.ports → r.Addressed (connectionsOf s.config app) := by
  refine ⟨fun g h v hv => ⟨?_, fun r hr ht => ?_⟩, fun g h => ?_⟩
  · rw [edgesIn_container_of_compile h hv, Visit.connections, List.map_map]
    rfl
  · exact (Visit.mem_recorded hr).2.2.2.addressed ht fun c hc q place hm => v.place_of_metAt hr hc hm
  · obtain ⟨app, ha, rfl⟩ := compileApplication_eq_ok.mp h
    refine ⟨app, ha, ?_, fun actor _ ht => ?_⟩
    · rw [edges_drawApplication, connectionsOf, List.map_map]
      rfl
    · have hl : (recordedActor s.config actor).IsLabelled := ⟨_, get?_recordAttributes ..⟩
      exact hl.addressed ht fun c hc q place hm => place_of_metAt_actor hc hm

/-- Two processes with two ports each; nothing is left of the names of the ports of the second. -/
def portSource : Source
  | ⟨"top.xml"⟩ => .ok ("<process_network><leaf_process name=\"a\"><port name=\"i.\"/>"
      ++ "<port name=\"j.\"/></leaf_process><leaf_process name=\"b\"><port name=\".\"/>"
      ++ "<port name=\"+\"/></leaf_process>"
      ++ "<signal source=\"b\" source_port=\".\" target=\"a\" target_port=\"i.\"/>"
      ++ "<signal source=\"b\" source_port=\"+\"/></process_network>")
  | path => .error ⟨["Nothing at " ++ path.text]⟩

/-- The first process has ports that can be told apart.  Of the second, both fields have the empty
tag and both edges begin at the side alone. -/
theorem port_records : usable portSource sampleSettings = true ∧
    ∃ v ∈ visits portSource sampleSettings,
      (∃ r ∈ v.recorded sampleSettings.config,
        r.ports.map (·.name) = ["i.", "j."] ∧ TagsApart r.ports) ∧
      ∃ r ∈ v.recorded sampleSettings.config,
        r.ports.map (·.name) = [".", "+"] ∧
        (r.node.attributes.get? "label").bind readRecord? =
          some ⟨[], "b", [("", ""), ("", "")]⟩ ∧
        (v.connections sampleSettings.config).map (fun c => tailEnd c.2) =
          [(r.node.name, some "e"), (r.node.name, some "e")] := by
  decide +kernel

/-- A process of a network and an actor of an application graph, each with ports that can be told
apart. -/
theorem ports_addressed_of_outcome_sample :
    (∃ g, (compile portSource sampleSettings).outcome = .ok g ∧
      ∃ v ∈ visits portSource sampleSettings, ∃ r ∈ v.recorded sampleSettings.config,
        r.ports.map (·.name) = ["i.", "j."] ∧ TagsApart r.ports ∧
          r.Addressed (v.connections sampleSettings.config)) ∧
    ∃ g app, (compileApplication sampleApplication sampleSettings).outcome = .ok g ∧
      openDocument sampleApplication "applicationGraph" sampleSettings.input = .ok app ∧
      ∃ actor ∈ actorsOf app, let r := recordedActor sampleSettings.config actor
        r.ports.map (·.name) = ["o.1"] ∧ TagsApart r.ports ∧
          r.Addressed (connectionsOf sampleSettings.config app) := by
  have happ : ∃ app ∈ (openDocument sampleApplication "applicationGraph"
      sampleSettings.input).toOption, ∃ actor ∈ actorsOf app,
        (recordedActor sampleSettings.config actor).ports.map (·.name) = ["o.1"] ∧
          TagsApart (recordedActor sampleSettings.config actor).ports := by
    decide +kernel
  -- once for a model, whose ports need respelling, and once for an application
  obtain ⟨husable, v, hv, ⟨r, hr, hnames, ht⟩, -⟩ := port_records
  obtain ⟨app, happ, actor, hactor, hports, ht'⟩ := happ
  obtain ⟨g, hg⟩ := compile_ok_iff.mpr husable
  have hg' : (compileApplication sampleApplication sampleSettings).outcome =
      .ok (drawApplication sampleSettings app) :=
    compileApplication_eq_ok.mpr ⟨app, eq_ok_of_toOption happ, rfl⟩
  obtain ⟨app', happ', -, ha⟩ :=
    (ports_addressed_of_outcome sampleApplication sampleSettings).2 _ hg'
  obtain rfl := Except.ok.inj ((eq_ok_of_toOption happ).symm.trans happ')
  exact ⟨⟨g, hg, v, hv, r, hr, hnames, ht,
      ((ports_addressed_of_outcome portSource sampleSettings).1 g hg v hv).2 r hr ht⟩,
    _, app, hg', happ', actor, hactor, hports, ht', ha actor hactor ht'⟩

/-- Different names that are not empty do not make ports addressed: of these two nothing is left for
a tag, so the signals that lead from them begin at one place, which is at no field. -/
theorem exists_unaddressed_ports :
    ∃ g, (compile portSource sampleSettings).outcome = .ok g ∧
      ∃ v ∈ visits portSource sampleSettings, ∃ r ∈ v.recorded sampleSettings.config,
        r.ports.map (·.name) = [".", "+"] ∧
        (r.node.attributes.get? "label").bind readRecord? =
          some ⟨[], "b", [("", ""), ("", "")]⟩ ∧
        (v.connections sampleSettings.config).map (fun c => tailEnd c.2) =
          [(r.node.name, some "e"), (r.node.name, some "e")] ∧
        ¬ r.Addressed (v.connections sampleSettings.config) := by
  obtain ⟨husable, v, hv, -, r, hr, hnames, hread, hends⟩ := port_records
  obtain ⟨g, hg⟩ := compile_ok_iff.mpr husable
  refine ⟨g, hg, v, hv, r, hr, hnames, hread, hends, fun ha => ?_⟩
  obtain ⟨label, fields, hl, hf, -, hne, -⟩ := ha.selected
  rw [hl, Option.bind_some, hf, Option.some.injEq] at hread
  subst hread
  exact hne ("", "") (by simp [Fields.ports]) rfl

end NetPlot.Network
