/-
  How deep a model is read.

  Documents may refer to each other in a circle, and nothing looks out for that.  What ends the
  reading is the level alone, which grows with every document inside a document.

  1. **Chains** — a chain of local names leads to a document (`Leads`); a process is known by its
     chain, and a node by the process that it belongs to (`NodeOf`).  `Fits` is the invariant of
     the reading: the level is that of the chain, and is within the limit.

  2. **Program** — `read?` reads a model with levels of 32 bits, and with a budget of documents that
     may be open inside one another.  It recurses on the budget and on the composites alone, and
     gives nothing if a level does not fit or the budget is used up.

  3. **Readings** — with the budget `nesting`, this comes to an end and reads what the model reads,
     whatever the documents say; every call fits (`completes_read`).

  4. **Depth** — so the processes in a graph have short chains (`depth_of_compile`).

  **The crux** — a level can be told from the chain of names that leads to a document, and it is
  bounded.  So the chains are, and with them everything that is named after a chain.
-/
import NetPlot.Proofs.Network.Failing
import NetPlot.Proofs.Network.Openings
import NetPlot.Proofs.Network.RegionNames

namespace NetPlot.Network

open NetPlot.Graph NetPlot.Xml

/-! ## Chains -/

/-- The process at the end of a chain of local names. -/
def Identity.descend (p : Identity) (names : List String) : Identity := names.foldl child p

theorem Identity.descend_concat (p : Identity) (names : List String) (x : String) :
    p.descend (names ++ [x]) = (p.descend names).child x := by
  simp [descend]

/-- The document that a chain of local names leads to from the root, each of them the name of a
composite in the network before. -/
inductive Leads (source : Source) (s : Settings) : List String → Path → Prop where
  | root : Leads source s [] s.input
  | inside {names : List String} {path : Path} {network site : Cursor}
      (h : Leads source s names path)
      (ho : openDocument source "process_network" path = .ok network)
      (hs : site ∈ compositesOf network) :
      Leads source s (names ++ [site.element.attr "name"])
        (componentFile s.inDir (site.element.attr "component_name"))

/-- The processes and ports that ports and signals of a network name. -/
def namedEnds (network : Cursor) : List (String × String) :=
  (network.childrenNamed "port").map
      (fun p => (p.element.attr "bound_process", p.element.attr "bound_port"))
    ++ (network.childrenNamed "signal").flatMap fun p =>
      [(p.element.attr "source", p.element.attr "source_port"),
        (p.element.attr "target", p.element.attr "target_port")]

/-- The text is the name of a node of the process with a chain of local names. -/
inductive NodeOf (source : Source) (s : Settings) : List String → String → Prop where
  | hidden {names : List String} {path : Path} (h : Leads source s names path) :
      NodeOf source s names ((Identity.mk s.rootName).descend names).hidden
  | process {names : List String} {path : Path} {network site : Cursor}
      (h : Leads source s names path)
      (ho : openDocument source "process_network" path = .ok network)
      (hs : site ∈ compositesOf network ++ leaves network) :
      NodeOf source s (names ++ [site.element.attr "name"])
        ((Identity.mk s.rootName).descend (names ++ [site.element.attr "name"])).text
  /-- An interface port of its own network. -/
  | port {names : List String} {path : Path} {network port : Cursor}
      (h : Leads source s names path)
      (ho : openDocument source "process_network" path = .ok network)
      (hp : port ∈ network.childrenNamed "port") :
      NodeOf source s names
        (((Identity.mk s.rootName).descend names).boundary (port.element.attr "name"))
  /-- An interface port that the network around it names. -/
  | outer {names : List String} {path : Path} {network : Cursor} {x q : String}
      (h : Leads source s names path)
      (ho : openDocument source "process_network" path = .ok network)
      (he : (x, q) ∈ namedEnds network) :
      NodeOf source s (names ++ [x])
        (((Identity.mk s.rootName).descend (names ++ [x])).boundary q)

/-- A document at the end of a chain is read for the process of the chain, at its level, which is
within the limit. -/
structure Fits (source : Source) (s : Settings) (names : List String) (path : Path)
    (id : Identity) (level : Nat) : Prop where
  leads : Leads source s names path
  id : id = (Identity.mk s.rootName).descend names
  depth : level = names.length + firstLevel
  limit : level ≤ max firstLevel s.config.maxLevel

variable {source : Source} {s : Settings} {names : List String} {path : Path} {id : Identity}
  {level : Nat} {network : Cursor}

/-- The reading begins with the input document, at the first level. -/
theorem fits_root (source : Source) (s : Settings) :
    Fits source s [] s.input ⟨s.rootName⟩ firstLevel where
  leads := .root
  id := rfl
  depth := (Nat.zero_add _).symm
  limit := Nat.le_max_left ..

/-- One step down, which is made below the detail level only. -/
theorem Fits.inside (h : Fits source s names path id level)
    (ho : openDocument source "process_network" path = .ok network) {site : Cursor}
    (hs : site ∈ compositesOf network) (hl : level < s.config.maxLevel) :
    Fits source s (names ++ [site.element.attr "name"])
      (componentFile s.inDir (site.element.attr "component_name")) (identityAt id site)
      (level + 1) where
  leads := .inside h.leads ho hs
  id := by rw [identityAt, h.id, Identity.descend_concat]
  depth := by rw [h.depth, List.length_append, List.length_singleton, Nat.add_right_comm]
  limit := Nat.le_trans hl (Nat.le_max_right ..)

/-! ## Program -/

/-- A document is read for a process, at a level. -/
structure Call where
  path : Path
  id : Identity
  level : UInt32

/-- A reading with the calls that it takes; none if it does not come to an end. -/
abbrev Bounded (ε α : Type) : Type := Option (List Call × Reading ε α)

namespace Bounded

variable {ε ε' α β : Type}

/-- One call. -/
def call (c : Call) (x : Reading ε α) : Bounded ε α := some ([c], x)

/-- One after the other; the second one is not done if the first one failed. -/
def bind (x : Bounded ε α) (f : α → Bounded ε β) : Bounded ε β :=
  Option.bind x fun (calls, r) =>
    match r.outcome with
    | .error e => some (calls, ⟨r.opened, .error e⟩)
    | .ok a => Option.map (fun (calls', r') =>
        (calls ++ calls', ⟨r.opened ++ r'.opened, r'.outcome⟩)) (f a)

/-- The same with what it gives changed. -/
def map (f : α → β) (x : Bounded ε α) : Bounded ε β :=
  Option.map (fun (calls, r) => (calls, r.map f)) x

/-- The same with its failure changed. -/
def mapError (f : ε → ε') (x : Bounded ε α) : Bounded ε' α :=
  Option.map (fun (calls, r) => (calls, r.mapError f)) x

end Bounded

/-- The next level, if there is one in 32 bits. -/
def nextLevel? (level : UInt32) : Option UInt32 :=
  if level.toNat + 1 < UInt32.size then some (level + 1) else none

/-- Decides on composites of a network, `below` being how the documents of composites are read. -/
def readAlong? (dir : Path) (limit : UInt32)
    (below : Path → Identity → UInt32 → Bounded Failure Model) (parent : Identity)
    (level : UInt32) : List Cursor → Bounded Failure Expansion
  | [] => some ([], .pure .done)
  | site :: rest =>
    if limit ≤ level then
      (readAlong? dir limit below parent level rest).map (.box site)
    else
      (nextLevel? level).bind fun next =>
        ((below (componentFile dir (site.element.attr "component_name")) (identityAt parent site)
            next).mapError (Failure.inside (identityAt parent site))).bind fun m =>
          (readAlong? dir limit below parent level rest).map (.expand site m.network m.composites)

/-- Reads the document of a process and all inside of it, no more documents than the budget being
open at a time. -/
def read? (source : Source) (dir : Path) (limit : UInt32) :
    Nat → Path → Identity → UInt32 → Bounded Failure Model
  | 0, _, _, _ => none
  | budget + 1, path, id, level =>
    (Bounded.call ⟨path, id, level⟩ (openNetwork source id path)).bind fun network =>
      (readAlong? dir limit (read? source dir limit budget) id level (compositesOf network)).map
        fun e => ⟨network, e⟩

/-- How many documents may be open inside one another. -/
def nesting (s : Settings) : Nat := max 1 (s.config.maxLevel - 1)

/-! ## Readings

`Completes` says that a bounded reading comes to an end, with the same outcome, having opened the
same documents as its calls are for.  It is put together as readings are, so the recursion of
`read?` is followed call by call; the budget is what the induction is on. -/

/-- The reading comes to an end, as `x`, with one call for each document, all of which are `P`. -/
def Bounded.Completes {ε α : Type} (P : Call → Prop) (o : Bounded ε α) (x : Reading ε α) : Prop :=
  ∃ calls : List Call, o = some (calls, x) ∧ calls.map (·.path) = x.opened ∧ ∀ c ∈ calls, P c

namespace Bounded.Completes

variable {ε ε' α β : Type} {P : Call → Prop} {o : Bounded ε α} {x : Reading ε α}

theorem map (h : Completes P o x) (f : α → β) : Completes P (o.map f) (x.map f) := by
  obtain ⟨calls, rfl, hp, hc⟩ := h
  exact ⟨calls, rfl, hp, hc⟩

theorem mapError (h : Completes P o x) (f : ε → ε') :
    Completes P (o.mapError f) (x.mapError f) := by
  obtain ⟨calls, rfl, hp, hc⟩ := h
  exact ⟨calls, rfl, hp, hc⟩

/-- One reading after the other; where the first fails, nothing is asked of the second. -/
theorem bind (h : Completes P o x) {f : α → Bounded ε β} {k : α → Reading ε β}
    (hf : ∀ a, x.outcome = .ok a → Completes P (f a) (k a)) :
    Completes P (o.bind f) (x.bind k) := by
  obtain ⟨calls, rfl, hp, hc⟩ := h
  obtain ⟨opened, outcome⟩ := x
  -- a failure ends both, and its calls are all there are
  cases outcome with
  | error e => exact ⟨calls, rfl, hp, hc⟩
  | ok a =>
    obtain ⟨calls', hfa, hp', hc'⟩ := hf a rfl
    refine ⟨calls ++ calls', ?_, ?_, fun c h => (List.mem_append.mp h).elim (hc c) (hc' c)⟩
    · show Option.map _ (f a) = _
      rw [hfa]
      rfl
    · rw [List.map_append, hp, hp']
      rfl

end Bounded.Completes

/-- A call is for a document at the end of a chain, at its level. -/
def Call.Fitting (source : Source) (s : Settings) (c : Call) : Prop :=
  ∃ names, Fits source s names c.path c.id c.level.toNat

section

variable {limit : UInt32} {level : UInt32}

/-- There is a next level below the limit. -/
theorem nextLevel?_of_lt (h : level.toNat < limit.toNat) :
    ∃ next, nextLevel? level = some next ∧ next.toNat = level.toNat + 1 := by
  have hsize : level.toNat + 1 < UInt32.size := Nat.lt_of_le_of_lt h limit.toNat_lt_size
  refine ⟨level + 1, if_pos hsize, ?_⟩
  rw [UInt32.toNat_add, UInt32.toNat_one]
  exact Nat.mod_eq_of_lt hsize

/-- Deciding on composites comes to an end if reading their documents does. -/
theorem completes_readAlong (hlimit : s.config.maxLevel = limit.toNat)
    (hf : Fits source s names path id level.toNat)
    (ho : openDocument source "process_network" path = .ok network)
    {below : Path → Identity → UInt32 → Bounded Failure Model}
    (hb : ∀ names path id next, Fits source s names path id next.toNat →
      next.toNat = level.toNat + 1 → next.toNat ≤ limit.toNat →
        (below path id next).Completes (Call.Fitting source s)
          (readAt source s path id next.toNat))
    (sites : List Cursor) (hs : ∀ site ∈ sites, site ∈ compositesOf network) :
    (readAlong? s.inDir limit below id level sites).Completes (Call.Fitting source s)
      (expand source s.inDir s.config.maxLevel level.toNat id sites) := by
  induction sites with
  | nil =>
    rw [expand]
    exact ⟨[], rfl, rfl, fun _ hc => absurd hc List.not_mem_nil⟩
  | cons site sites ih =>
    have ih := ih fun x hx => hs x (List.mem_cons_of_mem site hx)
    rw [readAlong?]
    by_cases hl : limit ≤ level
    · have hle : s.config.maxLevel ≤ level.toNat := hlimit ▸ UInt32.le_iff_toNat_le.mp hl
      rw [if_pos hl, expand_cons_of_le hle]
      exact ih.map _
    · have hlt : level.toNat < limit.toNat :=
        Nat.lt_of_not_le fun h => hl (UInt32.le_iff_toNat_le.mpr h)
      -- below the limit the level has a successor, at which the document is read
      obtain ⟨next, hnext, hn⟩ := nextLevel?_of_lt hlt
      have hinside := hf.inside ho (hs site List.mem_cons_self) (hlimit ▸ hlt)
      rw [← hn] at hinside
      have hdoc := hb _ _ _ next hinside hn (hn ▸ hlt)
      rw [if_neg hl, expand_cons_of_lt (hlimit ▸ hlt), hnext, ← hn]
      exact (hdoc.mapError _).bind fun m _ => ih.map _

/-- **Readings end.**  A budget for the levels that are left is enough, whatever the documents say. -/
theorem completes_read (hlimit : s.config.maxLevel = limit.toNat) {budget : Nat}
    (hf : Fits source s names path id level.toNat)
    (hbudget : max 1 (limit.toNat + 1 - level.toNat) ≤ budget) :
    (read? source s.inDir limit budget path id level).Completes (Call.Fitting source s)
      (readAt source s path id level.toNat) := by
  induction budget generalizing names path id level with
  | zero => exact absurd (Nat.le_trans (Nat.le_max_left ..) hbudget) (Nat.not_succ_le_zero 0)
  | succ budget ih =>
    have hcall : (Bounded.call ⟨path, id, level⟩ (openNetwork source id path)).Completes
        (Call.Fitting source s) (openNetwork source id path) := by
      refine ⟨_, rfl, rfl, fun c hc => ?_⟩
      obtain rfl := List.mem_singleton.mp hc
      exact ⟨names, hf⟩
    refine hcall.bind fun network hn => ?_
    have ho := eq_ok_of_toOption (toOption_of_open hn)
    refine (completes_readAlong hlimit hf ho ?_ _ fun _ h => h).map _
    intro names path id next hfits hnext hle
    -- one level further down one document less may be opened
    exact ih hfits (by omega)

end

/-! ## Nodes -/

/-- The network of a visit is in the document at the end of a chain. -/
def Visit.Fitting (source : Source) (s : Settings) (v : Visit) : Prop :=
  ∃ names path, Fits source s names path v.id v.level ∧
    openDocument source "process_network" path = .ok v.network

/-- Along the sites of a visit, all visits fit if those below the next level do. -/
theorem fitting_tourAlong {v : Visit} (hv : v.Fitting source s)
    (h : v.level < s.config.maxLevel → ∀ w : Visit, w.level = v.level + 1 →
      w.Fitting source s → ∀ u ∈ (tourBelow source s w).visits, u.Fitting source s)
    (next : RegionId) (sites : List Cursor) (hs : ∀ site ∈ sites, site ∈ compositesOf v.network) :
    ∀ u ∈ (tourAlong source s v next sites).visits, u.Fitting source s := by
  -- at the last level nothing is visited; above it, a site is passed over unless its document opens
  by_cases hl : v.level < s.config.maxLevel
  · induction sites generalizing next with
    | nil =>
      rw [tourAlong_nil]
      exact fun u hu => absurd hu List.not_mem_nil
    | cons site sites ih =>
      have hrest : ∀ x ∈ sites, x ∈ compositesOf v.network :=
        fun x hx => hs x (List.mem_cons_of_mem site hx)
      cases hn : networkOf? source s.inDir site with
      | none =>
        rw [tourAlong_cons_none hn]
        exact ih next hrest
      | some network =>
        let w : Visit := ⟨network, identityAt v.id site, v.level + 1, next⟩
        have hw : w.Fitting source s := by
          obtain ⟨names, path, hf, ho⟩ := hv
          exact ⟨_, _, hf.inside ho (hs site List.mem_cons_self) hl, eq_ok_of_toOption hn⟩
        rw [tourAlong_cons_some hl hn]
        intro u hu
        rcases Tour.mem_visits.mp hu with rfl | hu | hu
        · exact hw
        · exact h hl w rfl hw u hu
        · exact ih _ hrest u hu
  · rw [tourAlong_of_le (Nat.not_lt.mp hl)]
    exact fun u hu => absurd hu List.not_mem_nil

/-- And so they fit below every visit that fits, by the recursion of the tour. -/
theorem fitting_tourBelow {v : Visit} (hv : v.Fitting source s) :
    ∀ u ∈ (tourBelow source s v).visits, u.Fitting source s := by
  fun_induction tourBelow source s v with
  | case1 v hl ih =>
    have h := fitting_tourAlong hv (fun _ w hw hfit => ih w hw hfit)
      (v.container + width s.config.clusters) (compositesOf v.network) fun _ h => h
    rw [tourAlong, if_pos hl] at h
    exact h
  | case2 => exact fun u hu => absurd hu List.not_mem_nil

/-- Every network that a model leads to is in a document at the end of a chain. -/
theorem fitting_of_mem_visits {v : Visit} (h : v ∈ visits source s) : v.Fitting source s := by
  cases hn : rootNetwork? source s with
  | none =>
    rw [visits, hn] at h
    exact absurd h List.not_mem_nil
  | some network =>
    have hroot : (rootVisit s network).Fitting source s :=
      ⟨[], s.input, fits_root source s, eq_ok_of_toOption hn⟩
    rw [visits_eq hn, List.mem_cons] at h
    rcases h with rfl | h
    · exact hroot
    · exact fitting_tourBelow hroot v h

/-- The text is the name of a node of a process with a short chain. -/
def Shallow (source : Source) (s : Settings) (x : String) : Prop :=
  ∃ names, NodeOf source s names x ∧ names.length ≤ nesting s

/-- There is room for one more name behind the chain of a document. -/
theorem Fits.length_lt (h : Fits source s names path id level) : names.length < nesting s := by
  have hl := h.limit
  rw [h.depth, firstLevel] at hl
  rw [nesting]
  omega

section

variable {cfg : Config} {v : Visit} {m : Node}

/-- The node of a process in the network of a visit has a chain with one name more. -/
theorem Visit.Fitting.shallow_process (h : v.Fitting source s) {site : Cursor}
    (hs : site ∈ compositesOf v.network ++ leaves v.network) :
    Shallow source s (identityAt v.id site).text := by
  obtain ⟨names, path, hf, ho⟩ := h
  have hid : identityAt v.id site =
      (Identity.mk s.rootName).descend (names ++ [site.element.attr "name"]) := by
    rw [identityAt, hf.id, Identity.descend_concat]
  rw [hid]
  refine ⟨_, .process hf.leads ho hs, ?_⟩
  rw [List.length_append]
  exact hf.length_lt

theorem Visit.mem_boxes_or_leaves {site : Cursor} (h : site ∈ v.boxes cfg ++ leaves v.network) :
    site ∈ compositesOf v.network ++ leaves v.network := by
  refine List.mem_append.mpr ((List.mem_append.mp h).imp_left fun h => ?_)
  rw [boxes] at h
  split at h
  · exact absurd h List.not_mem_nil
  · exact h

/-- An end that the network names is at a node of a process in it. -/
theorem Visit.Fitting.shallow_resolve (h : v.Fitting source s) {x q : String}
    (he : (x, q) ∈ namedEnds v.network) :
    Shallow source s (resolve (v.drawn cfg) (v.id.child x) q).node := by
  rw [resolve]
  split
  next hd =>
    obtain ⟨site, hs, hsite⟩ := List.mem_map.mp hd
    rw [← hsite]
    exact h.shallow_process (mem_boxes_or_leaves hs)
  next =>
    -- an end that is not drawn here lies one step further down, which the visit has left
    obtain ⟨names, path, hf, ho⟩ := h
    have hid : v.id.child x = (Identity.mk s.rootName).descend (names ++ [x]) := by
      rw [hf.id, Identity.descend_concat]
    rw [hid]
    refine ⟨_, .outer hf.leads ho he, ?_⟩
    rw [List.length_append]
    exact hf.length_lt

theorem Visit.Fitting.shallow_port (h : v.Fitting source s) {site : Cursor} (hs : site ∈ v.ports) :
    Shallow source s (v.id.boundary (site.element.attr "name")) := by
  obtain ⟨names, path, hf, ho⟩ := h
  rw [hf.id]
  exact ⟨names, .port hf.leads ho hs, Nat.le_of_lt hf.length_lt⟩

/-- The ends of an edge are ports, or named by the network as ends of a port or a signal. -/
theorem Visit.Fitting.shallow_edge (h : v.Fitting source s) {e : Edge} (he : e ∈ v.edges cfg) :
    Shallow source s e.tail ∧ Shallow source s e.head := by
  -- an interface edge joins a port of the visit and the end it is bound to, a signal two ends
  rcases List.mem_append.mp he with he | he
  · obtain ⟨site, hs, rfl⟩ := List.mem_map.mp he
    have hport := h.shallow_port hs
    have hend : Shallow source s (resolve (v.drawn cfg)
        (v.id.child (site.element.attr "bound_process")) (site.element.attr "bound_port")).node :=
      h.shallow_resolve (List.mem_append_left _ (List.mem_map_of_mem hs))
    show Shallow source s (portEnds (v.drawn cfg) (.ofElement v.id site.element)).1.node ∧
      Shallow source s (portEnds (v.drawn cfg) (.ofElement v.id site.element)).2.node
    rw [portEnds]
    cases (PortBinding.ofElement v.id site.element).direction with
    | input => exact ⟨hport, hend⟩
    | output => exact ⟨hend, hport⟩
  · obtain ⟨site, hs, rfl⟩ := List.mem_map.mp he
    have hends : ∀ named ∈ [(site.element.attr "source", site.element.attr "source_port"),
        (site.element.attr "target", site.element.attr "target_port")],
        named ∈ namedEnds v.network :=
      fun named h => List.mem_append_right _ (List.mem_flatMap.mpr ⟨site, hs, h⟩)
    exact ⟨h.shallow_resolve (hends _ List.mem_cons_self),
      h.shallow_resolve (hends _ (List.mem_cons_of_mem _ List.mem_cons_self))⟩

/-- What a visit mentions belongs to processes with short chains. -/
theorem Visit.Fitting.shallow_mention (h : v.Fitting source s) {inner : List Node}
    (hm : m ∈ v.mentions cfg inner) : m ∈ inner ∨ Shallow source s m.name := by
  rw [mentions, List.mem_append, List.mem_append, List.mem_cons] at hm
  -- the hidden node, a box, a node of a visit inside, or something of the closing part
  rcases hm with ((rfl | hm) | hm) | hm
  · obtain ⟨names, path, hf, ho⟩ := h
    refine Or.inr ⟨names, ?_, Nat.le_of_lt hf.length_lt⟩
    have hn : v.hiddenNode.name = ((Identity.mk s.rootName).descend names).hidden := by
      rw [← hf.id]
      rfl
    rw [hn]
    exact .hidden hf.leads
  · obtain ⟨site, hs, rfl⟩ := List.mem_map.mp hm
    exact Or.inr (h.shallow_process (mem_boxes_or_leaves (List.mem_append_left _ hs)))
  · exact Or.inl hm
  · refine Or.inr ?_
    rcases mem_closingMentions_iff.mp hm with ⟨site, hs, rfl⟩ | ⟨site, hs, rfl⟩ | ⟨e, he, hm⟩
    · exact h.shallow_process (List.mem_append_right _ hs)
    · exact h.shallow_port hs
    · have hends := h.shallow_edge he
      rcases Edge.mem_ends.mp hm with rfl | rfl
      · exact hends.1
      · exact hends.2

/-- What a tour mentions belongs to processes with short chains, by induction on the tour. -/
theorem Tour.shallow_mention {t : Tour} (h : ∀ v ∈ t.visits, v.Fitting source s)
    (hm : m ∈ t.mentions cfg) : Shallow source s m.name := by
  induction t with
  | done => exact absurd hm List.not_mem_nil
  | visit site v inner rest ihi ihr =>
    rcases List.mem_append.mp hm with hm | hm
    · rcases (h v List.mem_cons_self).shallow_mention hm with hm | hm
      · exact ihi (fun w hw => h w (Tour.mem_visits.mpr (Or.inr (Or.inl hw)))) hm
      · exact hm
    · exact ihr (fun w hw => h w (Tour.mem_visits.mpr (Or.inr (Or.inr hw)))) hm

end

/-! ## Depth -/

/-- The budget is enough for a whole model. -/
theorem completes_load (source : Source) (s : Settings) (hsize : s.config.maxLevel < UInt32.size) :
    (read? source s.inDir (.ofNat s.config.maxLevel) (nesting s) s.input ⟨s.rootName⟩ 2).Completes
      (Call.Fitting source s) (Model.load source s) := by
  have hlimit : s.config.maxLevel = (UInt32.ofNat s.config.maxLevel).toNat :=
    (UInt32.toNat_ofNat_of_lt hsize).symm
  have hbudget : max 1 ((UInt32.ofNat s.config.maxLevel).toNat + 1 - (2 : UInt32).toNat) ≤
      nesting s := by
    rw [← hlimit]
    exact Nat.le_refl _
  have hroot : Fits source s [] s.input ⟨s.rootName⟩ (2 : UInt32).toNat := fits_root source s
  exact completes_read hlimit hroot hbudget

section

variable {g : Graph} (h : (compile source s).outcome = .ok g)
include h

/-- All nodes of a graph belong to processes with short chains. -/
theorem shallow_nodes : ∀ n ∈ g.nodes, Shallow source s n.name := by
  obtain ⟨v, t, hvisits, hd⟩ := exists_drawn_of_compile h
  have hfit : ∀ w ∈ v :: t.visits, w.Fitting source s :=
    fun w hw => fitting_of_mem_visits (hvisits ▸ hw)
  intro n hn
  rw [hd.nodes] at hn
  -- a node has the name of something that was mentioned
  have hname := mem_names_mentionAll.mp (List.mem_map_of_mem (f := (·.name)) hn)
  obtain ⟨m, hm, hmn⟩ := List.mem_map.mp hname
  rw [← hmn]
  rcases (hfit v List.mem_cons_self).shallow_mention hm with hm | hm
  · exact Tour.shallow_mention (fun w hw => hfit w (List.mem_cons_of_mem v hw)) hm
  · exact hm

/-- So do the ends of all edges, each being at some node. -/
theorem shallow_edges : ∀ e ∈ g.edges, Shallow source s e.tail ∧ Shallow source s e.head := by
  obtain ⟨v, t, hvisits, hd⟩ := exists_drawn_of_compile h
  have hfit : ∀ w ∈ v :: t.visits, w.Fitting source s :=
    fun w hw => fitting_of_mem_visits (hvisits ▸ hw)
  intro e he
  rw [hd.edges, List.mem_append] at he
  rcases he with he | he
  · obtain ⟨w, hw, he⟩ := Tour.mem_edges_iff.mp he
    exact (hfit w (List.mem_cons_of_mem v hw)).shallow_edge he
  · exact (hfit v List.mem_cons_self).shallow_edge he

/-- A region is named after a process with a document of its own. -/
theorem leads_regions : ∀ r ∈ g.nested, ∃ names path, Leads source s names path ∧
    names.length < nesting s ∧ ∃ role : Option Role, r.name = "cluster_" ++
      ((Identity.mk s.rootName).descend names).text ++ (role.map Role.key).getD "" := by
  intro r hr
  have hnames := names_regions_of_compile h
  rw [Graph.regions, List.map_cons, List.cons.injEq] at hnames
  have hr : r.name ∈ (places source s).map Place.name := hnames.2 ▸ List.mem_map_of_mem hr
  obtain ⟨p, hp, hname⟩ := List.mem_map.mp hr
  obtain ⟨w, hw, hp⟩ := List.mem_flatMap.mp hp
  obtain ⟨names, path, hf, -⟩ := fitting_of_mem_visits hw
  refine ⟨names, path, hf.leads, hf.length_lt, p.role, ?_⟩
  rw [← hname, Place.name, (Visit.mem_places hp).1, hf.id]
  rfl

end

/-- **Depth.**  Reading a model comes to an end, also where documents refer to each other in a
circle.  No more than `nesting` documents are open inside one another, and each is read at a level
from 2 to the detail level, which fits into 32 bits with every step.  The processes that nodes and
regions of the graph belong to have chains of at most `nesting` local names behind the root. -/
theorem depth_of_compile (source : Source) (s : Settings)
    (hsize : s.config.maxLevel < UInt32.size) :
    (∃ calls, read? source s.inDir (.ofNat s.config.maxLevel) (nesting s) s.input ⟨s.rootName⟩ 2 =
        some (calls, Model.load source s) ∧
      calls.map (·.path) = (compile source s).opened ∧
      ∀ c ∈ calls, 2 ≤ c.level.toNat ∧ c.level.toNat ≤ max 2 s.config.maxLevel ∧
        ∃ names, Leads source s names c.path ∧
          c.id = (Identity.mk s.rootName).descend names ∧ c.level.toNat = names.length + 2 ∧
          names.length < nesting s) ∧
    ∀ g, (compile source s).outcome = .ok g →
      (∀ n ∈ g.nodes, Shallow source s n.name) ∧
      (∀ e ∈ g.edges, Shallow source s e.tail ∧ Shallow source s e.head) ∧
      ∀ r ∈ g.nested, ∃ names path, Leads source s names path ∧ names.length < nesting s ∧
        ∃ role : Option Role, r.name = "cluster_" ++
          ((Identity.mk s.rootName).descend names).text ++ (role.map Role.key).getD "" := by
  refine ⟨?_, fun g h => ⟨shallow_nodes h, shallow_edges h, leads_regions h⟩⟩
  obtain ⟨calls, hcalls, hpaths, hfit⟩ := completes_load source s hsize
  refine ⟨calls, hcalls, hpaths, fun c hc => ?_⟩
  obtain ⟨names, hf⟩ := hfit c hc
  have hlevel : c.level.toNat = names.length + 2 := hf.depth
  exact ⟨hlevel ▸ Nat.le_add_left .., hf.limit, names, hf.leads, hf.id, hlevel, hf.length_lt⟩

/-- A document that refers to itself. -/
def circularSource : Source
  | ⟨"./top.xml"⟩ => .ok ("<process_network>"
      ++ "<composite_process name=\"x\" component_name=\"top\"/></process_network>")
  | path => .error ⟨["Nothing at " ++ path.text]⟩

/-- Settings with a detail level for the document that refers to itself. -/
def circularSettings (m : Nat) : Settings :=
  ⟨⟨"./top.xml"⟩, ⟨"."⟩, "top", ⟨"."⟩, { Config.default with maxLevel := m }⟩

/-- A document that refers to itself is read three times at the level 4; at the largest level of 32
bits, the reading comes to an end as well. -/
theorem depth_of_compile_circular :
    (∃ calls g, read? circularSource ⟨"."⟩ 4 3 ⟨"./top.xml"⟩ ⟨"top"⟩ 2 =
        some (calls, Model.load circularSource (circularSettings 4)) ∧
      calls.map (·.path.text) = ["./top.xml", "./top.xml", "./top.xml"] ∧
      (compile circularSource (circularSettings 4)).outcome = .ok g ∧
      ∀ n ∈ g.nodes, Shallow circularSource (circularSettings 4) n.name) ∧
    ∃ calls, read? circularSource ⟨"."⟩ 4294967295 4294967294 ⟨"./top.xml"⟩ ⟨"top"⟩ 2 =
      some (calls, Model.load circularSource (circularSettings 4294967295)) := by
  have hsmall := depth_of_compile circularSource (circularSettings 4) (by decide)
  have hlarge := depth_of_compile circularSource (circularSettings 4294967295) (by decide)
  have husable : usable circularSource (circularSettings 4) = true := by decide +kernel
  obtain ⟨g, hg⟩ := compile_ok_iff.mpr husable
  obtain ⟨calls, hcalls, hpaths, -⟩ := hsmall.1
  obtain ⟨calls', hcalls', -⟩ := hlarge.1
  refine ⟨⟨calls, g, hcalls, ?_, hg, (hsmall.2 g hg).1⟩, calls', hcalls'⟩
  -- the document is opened once for each of the levels two to four
  have hopened : (openings circularSource (circularSettings 4)).map (·.path.text) =
      ["./top.xml", "./top.xml", "./top.xml"] := by decide +kernel
  rw [opened_of_compile hg] at hpaths
  have htexts := congrArg (List.map Path.text) hpaths
  rw [List.map_map, List.map_map] at htexts
  exact htexts.trans hopened

end NetPlot.Network
