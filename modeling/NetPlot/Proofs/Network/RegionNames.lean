/-
  The names of regions, and when two regions share one.

  1. **Places** — a `Place` is the frame of a visit or the cluster of one of its roles.  Its name is
     put together from the identity of the process and, for a cluster, the key of the role, with
     nothing in between.

  2. **Keys** — no key is the end of another one, and none has a mark, so a name with a key behind
     it tells both (`Role.eq_of_append_key`).

  3. **Subtrees** — the places of a tour are `Under` its composites.  Places under different
     composites share a name only if one is a frame, the other a cluster, and the key of the cluster
     is the difference between the names of the composites (`Place.Clash`).

  4. **Regions** — the regions of a model are its places, and two of them share a name if and only
     if they clash (`region_names_of_compile`).

  **The crux** — no mark stands between the name of a process and the key of a role.  A name can be
  cut before a key or not at all, and only where both are possible do two places share it.
-/
import NetPlot.Proofs.Network.Boundary
import Mathlib.Data.List.Nodup

namespace NetPlot.Network

open NetPlot.Graph NetPlot.Label NetPlot.Xml

variable {source : Source} {s : Settings} {cfg : Config} {u v w : Visit} {t : Tour} {n : RegionId}

/-! ## Places

A name is made of three texts with nothing between the last two.  Whether it tells its place is a
question about the endings of names. -/

/-- The frame of a visit, or the cluster of a role in it. -/
structure Place where
  visit : Visit
  /-- None for the frame itself. -/
  role : Option Role

namespace Place

/-- What the name of a place has after the identity of its process. -/
def ending (p : Place) : String := (p.role.map Role.key).getD ""

/-- The name of the region of a place. -/
def name (p : Place) : String := "cluster_" ++ p.visit.id.text ++ p.ending

end Place

/-- The places of a visit in the order of their regions: its frame, then the roles drawn in it. -/
def Visit.places (cfg : Config) (v : Visit) : List Place :=
  ⟨v, none⟩ :: (Role.drawn cfg.clusters).map fun role => ⟨v, some role⟩

/-- All places of a model. -/
def places (source : Source) (s : Settings) : List Place :=
  (visits source s).flatMap (·.places s.config)

/-- The frame of one composite has the name of a cluster of another one: the two are expanded in one
network, and the name of the first is that of the second with the key of the role behind it. -/
inductive Place.Clash (cfg : Config) (vs : List Visit) : Place → Place → Prop where
  | mk {u v w : Visit} {x : String} {role : Role} (hu : u ∈ vs)
      (hrole : role ∈ Role.drawn cfg.clusters) (hx : x ∈ namesOf (u.expanded cfg))
      (hkey : x ++ role.key ∈ namesOf (u.expanded cfg))
      (hv : v.id = u.id.child (x ++ role.key)) (hw : w.id = u.id.child x) :
      Clash cfg vs ⟨v, none⟩ ⟨w, some role⟩

/-! ## Keys

No mark parts the key of a role from the name of the process.  That the two can still be told apart
is a fact about the five keys: they differ in their last three characters. -/

namespace Role

/-- The last three characters of a key, from the end. -/
def ending (role : Role) : List Char := role.key.toList.reverse.take 3

/-- Three characters from the end tell the roles apart. -/
theorem ending_injective {j k : Role} (h : j.ending = k.ending) : j = k := by
  revert h
  cases j <;> cases k <;> decide

/-- Keys have no mark, so the last mark of a name is that of the identity. -/
theorem at_not_mem_key (role : Role) : '@' ∉ role.key.toList := by
  cases role <;> decide

theorem key_ne_empty (role : Role) : role.key ≠ "" := by
  cases role <;> decide

/-- A name with a key behind it tells the name and the key. -/
theorem eq_of_append_key {x y : String} {j k : Role} (h : x ++ j.key = y ++ k.key) :
    x = y ∧ j = k := by
  have hend : ∀ (x : String) (k : Role), ((x ++ k.key).toList.reverse).take 3 = k.ending := by
    intro x k
    have hl : 3 ≤ k.key.toList.reverse.length := by cases k <;> decide
    rw [String.toList_append, List.reverse_append, List.take_append_of_le_length hl, ending]
  have hjk : j = k := ending_injective (by rw [← hend x, h, hend])
  subst hjk
  exact ⟨(String.append_left_inj _).mp h, rfl⟩

end Role

/-! ## Subtrees

All places under a process begin with its identity, and behind that comes a mark or an ending. Two
processes of one network can therefore meet only where one name is the other with an ending behind
it. -/

namespace Place

variable {p q : Place} {x y : String}

theorem at_not_mem_ending (p : Place) : '@' ∉ p.ending.toList := by
  rw [ending]
  cases p.role with
  | none => exact List.not_mem_nil
  | some role => exact role.at_not_mem_key

/-- A place of the process `x` in the network of `u`, or of one further down. -/
inductive Under (u : Visit) (x : String) : Place → Prop where
  | own {p : Place} (h : p.visit.id = u.id.child x) : Under u x p
  | below {p : Place} (r : String)
      (h : p.name = "cluster_" ++ u.id.text ++ "@" ++ (x ++ "@" ++ r)) : Under u x p

/-- A place of a process in the network of `u` is named by one name and an ending. -/
theorem name_of_own (h : p.visit.id = u.id.child x) :
    p.name = "cluster_" ++ u.id.text ++ "@" ++ (x ++ p.ending) := by
  rw [name, h, Identity.child]
  simp only [String.append_assoc]

/-- Places under a process of a network have the mark behind the name of the process around it. -/
theorem Under.exists_name (h : p.Under u x) :
    ∃ r, p.name = "cluster_" ++ u.id.text ++ "@" ++ r := by
  cases h with
  | own h => exact ⟨_, name_of_own h⟩
  | below r h => exact ⟨_, h⟩

/-- Where both have the same name, two places under different processes are a frame and a cluster
of these processes. -/
theorem Under.cases_of_name_eq (hp : p.Under u x) (hq : q.Under u y) (hx : '@' ∉ x.toList)
    (hy : '@' ∉ y.toList) (hxy : x ≠ y) (h : p.name = q.name) :
    p.visit.id = u.id.child x ∧ q.visit.id = u.id.child y ∧
      ((p.role = none ∧ ∃ role, q.role = some role ∧ x = y ++ role.key) ∨
        (q.role = none ∧ ∃ role, p.role = some role ∧ y = x ++ role.key)) := by
  have hpe := p.at_not_mem_ending
  have hqe := q.at_not_mem_ending
  cases hp with
  | own hpv =>
    rw [name_of_own hpv] at h
    cases hq with
    | own hqv =>
      rw [name_of_own hqv, String.append_right_inj] at h
      refine ⟨hpv, hqv, ?_⟩
      -- two frames or two clusters would give the processes one name
      rw [ending, ending] at h
      cases hpr : p.role with
      | none =>
        cases hqr : q.role with
        | none => exact absurd (by simpa [hpr, hqr] using h) hxy
        | some role => exact Or.inl ⟨rfl, role, rfl, by simpa [hpr, hqr] using h⟩
      | some role =>
        cases hqr : q.role with
        | none => exact Or.inr ⟨rfl, role, rfl, by simpa [hpr, hqr] using h.symm⟩
        | some role' =>
          rw [hpr, hqr] at h
          exact absurd (Role.eq_of_append_key h).1 hxy
    | below r hq =>
      -- only what is further down has one more mark
      rw [hq, String.append_right_inj] at h
      have hm : '@' ∈ (x ++ p.ending).toList := by rw [h]; simp
      exact absurd hm (by simp [hx, hpe])
  | below r hp =>
    rw [hp] at h
    cases hq with
    | own hqv =>
      rw [name_of_own hqv, String.append_right_inj] at h
      have hm : '@' ∈ (y ++ q.ending).toList := by rw [← h]; simp
      exact absurd hm (by simp [hy, hqe])
    | below r' hq =>
      rw [hq, String.append_right_inj] at h
      have hl := congrArg String.toList h
      rw [String.toList_append, String.toList_append, String.toList_append, String.toList_append,
        List.append_assoc, List.append_assoc] at hl
      exact absurd (String.toList_inj.mp (Identity.eq_of_append_at hx hy hl)) hxy

/-- Two places share a name if and only if they clash. -/
def Agree (cfg : Config) (vs : List Visit) (p q : Place) : Prop :=
  p.name = q.name ↔ p.Clash cfg vs q ∨ q.Clash cfg vs p

theorem Clash.name_eq {vs : List Visit} (h : p.Clash cfg vs q) : p.name = q.name := by
  cases h with
  | mk _ _ _ _ hv hw =>
    rw [name_of_own hv, name_of_own hw]
    simp [ending]

/-- Places with different names agree, as they do not clash either. -/
theorem agree_of_ne (vs : List Visit) (h : p.name ≠ q.name) : p.Agree cfg vs q :=
  ⟨fun he => absurd he h, fun hc => hc.elim
    (fun hc => absurd hc.name_eq h) fun hc => absurd hc.name_eq.symm h⟩

/-- Places under different processes of a network agree. -/
theorem Under.agree {vs : List Visit} (hp : p.Under u x) (hq : q.Under u y) (hu : u ∈ vs)
    (hxu : x ∈ namesOf (u.expanded cfg)) (hyu : y ∈ namesOf (u.expanded cfg))
    (hpr : ∀ role ∈ p.role, role ∈ Role.drawn cfg.clusters)
    (hqr : ∀ role ∈ q.role, role ∈ Role.drawn cfg.clusters)
    (hx : '@' ∉ x.toList) (hy : '@' ∉ y.toList) (hxy : x ≠ y) : p.Agree cfg vs q := by
  refine ⟨fun h => ?_, fun hc => hc.elim Clash.name_eq fun hc => hc.name_eq.symm⟩
  obtain ⟨hpv, hqv, hc⟩ := cases_of_name_eq hp hq hx hy hxy h
  obtain ⟨v, j⟩ := p
  obtain ⟨w, k⟩ := q
  rcases hc with ⟨rfl, role, rfl, rfl⟩ | ⟨rfl, role, rfl, rfl⟩
  · exact Or.inl (.mk hu (hqr role rfl) hyu hxu hpv hqv)
  · exact Or.inr (.mk hu (hpr role rfl) hxu hyu hqv hpv)

end Place

/-- A place of a visit belongs to it, and its role is drawn. -/
theorem Visit.mem_places {p : Place} (h : p ∈ v.places cfg) :
    p.visit = v ∧ ∀ role ∈ p.role, role ∈ Role.drawn cfg.clusters := by
  rcases List.mem_cons.mp h with rfl | h
  · exact ⟨rfl, fun role hr => nomatch hr⟩
  · obtain ⟨role, hr, rfl⟩ := List.mem_map.mp h
    exact ⟨rfl, fun k hk => Option.some.inj hk ▸ hr⟩

theorem role_mem_of_places {vs : List Visit} {p : Place} (h : p ∈ vs.flatMap (·.places cfg)) :
    ∀ role ∈ p.role, role ∈ Role.drawn cfg.clusters := by
  obtain ⟨v, -, hp⟩ := List.mem_flatMap.mp h
  exact (Visit.mem_places hp).2

/-- The places of one visit have different names. -/
theorem Visit.pairwise_places (cfg : Config) (vs : List Visit) (v : Visit) :
    (v.places cfg).Pairwise (Place.Agree cfg vs) := by
  refine List.pairwise_cons.mpr ⟨fun p hp => Place.agree_of_ne vs fun h => ?_, ?_⟩
  · obtain ⟨role, -, rfl⟩ := List.mem_map.mp hp
    rw [Place.name, Place.name, String.append_right_inj] at h
    exact role.key_ne_empty h.symm
  · have hroles : (Role.drawn cfg.clusters).Nodup :=
      List.Nodup.sublist List.filter_sublist (by decide)
    refine List.pairwise_map.mpr (hroles.imp fun hjk => Place.agree_of_ne vs fun h => hjk ?_)
    exact (Role.eq_of_append_key h).2

/-- The places of a tour are under its composites. -/
theorem Tour.exists_under {p : Place} (h : t.Follows cfg u n)
    (hp : p ∈ t.visits.flatMap (·.places cfg)) : ∃ x ∈ namesOf t.sites, p.Under u x := by
  induction t generalizing u n with
  | done => exact absurd hp List.not_mem_nil
  | visit site v inner rest ihi ihr =>
    obtain ⟨hv, -, hi, hr⟩ := h
    have hid : v.id = u.id.child (site.element.attr "name") := hv.id
    rw [visits, List.cons_append, List.flatMap_cons, List.flatMap_append, List.mem_append,
      List.mem_append] at hp
    rw [sites, namesOf, List.map_cons]
    -- a place of this visit, of one inside it, or of a later site
    rcases hp with hp | hp | hp
    · exact ⟨_, List.mem_cons_self, .own ((Visit.mem_places hp).1 ▸ hid)⟩
    · obtain ⟨y, -, hy⟩ := ihi hi hp
      obtain ⟨r, hr⟩ := hy.exists_name
      refine ⟨_, List.mem_cons_self, .below r ?_⟩
      rw [hr, hid, Identity.child]
      simp only [String.append_assoc]
    · obtain ⟨x, hx, hu⟩ := ihr hr hp
      exact ⟨x, List.mem_cons_of_mem _ hx, hu⟩

/-- A place of a visit does not have the name of one further down. -/
theorem Tour.place_name_ne_below {p q : Place} (h : t.Follows cfg v n) (hp : p ∈ v.places cfg)
    (hq : q ∈ t.visits.flatMap (·.places cfg)) : p.name ≠ q.name := by
  intro he
  obtain ⟨x, -, hx⟩ := exists_under h hq
  obtain ⟨r, hr⟩ := hx.exists_name
  rw [hr, Place.name, (Visit.mem_places hp).1] at he
  have he := (String.append_right_inj _).mp (he.trans String.append_assoc)
  exact p.at_not_mem_ending (by rw [he]; simp)

/-- The places of a tour agree. -/
theorem Tour.pairwise_places {vs : List Visit} (hf : t.Follows cfg u n) (hu : u ∈ vs)
    (hvs : t.visits ⊆ vs) (hs : t.sites ⊆ u.expanded cfg) (ha : Apart t.sites)
    (hp : ∀ v ∈ t.visits, Apart (compositesOf v.network)) :
    (t.visits.flatMap (·.places cfg)).Pairwise (Place.Agree cfg vs) := by
  induction t generalizing u n with
  | done => exact List.Pairwise.nil
  | visit site v inner rest ihi ihr =>
    have hfv := hf
    obtain ⟨hv, hsub, hi, hr⟩ := hfv
    have hinner := ihi hi (hvs List.mem_cons_self) (fun w hw => hvs (by simp [hw])) hsub.subset
      ((hp v List.mem_cons_self).sublist (hsub.trans (v.expanded_sublist cfg)))
      fun w hw => hp w (by simp [hw])
    have hrest := ihr hr hu (fun w hw => hvs (by simp [hw])) (fun x hx => hs (by simp [sites, hx]))
      (ha.sublist (List.sublist_cons_self _ _)) fun w hw => hp w (by simp [hw])
    have hown : ∀ p ∈ v.places cfg, ∀ q ∈ inner.visits.flatMap (·.places cfg), p.Agree cfg vs q :=
      fun p hp q hq => Place.agree_of_ne vs (place_name_ne_below hi hp hq)
    rw [visits, List.flatMap_append, List.flatMap_cons]
    refine List.pairwise_append.mpr ⟨List.pairwise_append.mpr ⟨v.pairwise_places cfg vs, hinner,
      hown⟩, hrest, fun p hp q hq => ?_⟩
    -- the places of the first composite are not under any of the later ones
    have hin : p ∈ (visit site v inner done).visits.flatMap (·.places cfg) := by
      simpa [visits] using hp
    have hfirst : (visit site v inner done).Follows cfg u n := ⟨hv, hsub, hi, trivial⟩
    obtain ⟨x, hx, hpx⟩ := exists_under hfirst hin
    obtain rfl := List.mem_singleton.mp hx
    obtain ⟨y, hy, hqy⟩ := exists_under hr hq
    have hne : site.element.attr "name" ≠ y := by
      rintro rfl
      exact (List.nodup_cons.mp ha.1).1 hy
    have hy := List.mem_cons_of_mem (site.element.attr "name") hy
    exact hpx.agree hqy hu (List.map_subset _ hs List.mem_cons_self) (List.map_subset _ hs hy)
      (role_mem_of_places hin) (role_mem_of_places hq) (ha.2 _ List.mem_cons_self) (ha.2 _ hy) hne

/-! ## Regions

The steps of a model open regions in the order of its places.  So what holds of pairs of places
holds of pairs of regions. -/

/-- The regions that a visit opens, those of the visits inside in between, are named by its places.
-/
theorem Visit.names_regions_steps (cfg : Config) (v : Visit) (inner : List Step) :
    ("cluster_" ++ v.id.text) :: ((v.steps cfg inner).flatMap Step.regions).map (·.name) =
      (v.places cfg).map Place.name ++ (inner.flatMap Step.regions).map (·.name) := by
  rw [regions_steps, List.map_append, List.map_map, places, List.map_cons, List.map_map,
    List.cons_append]
  congr 1
  exact String.append_empty.symm

/-- The steps of a tour open regions with the names of its places. -/
theorem Tour.names_regions_steps (cfg : Config) (outer : RegionId) (t : Tour) :
    ((t.steps cfg outer).flatMap Step.regions).map (·.name) =
      (t.visits.flatMap (·.places cfg)).map Place.name := by
  induction t generalizing outer with
  | done => rfl
  | visit site v inner rest ihi ihr =>
    have hv := v.names_regions_steps cfg (inner.steps cfg (v.frameRegion cfg.clusters))
    rw [ihi] at hv
    rw [steps, List.flatMap_append, List.map_append, ihr, List.flatMap_cons, visits,
      List.flatMap_append, List.flatMap_cons, List.map_append, List.map_append, List.map_append,
      ← hv]
    rfl

/-- The regions of a model are its root and its places. -/
theorem names_regions_modelSteps (s : Settings) (network : Cursor) (t : Tour) :
    ((blank s).run (modelSteps s (rootVisit s network) t)).regions.map (·.name) =
      s.rootName :: ((rootVisit s network :: t.visits).flatMap (·.places s.config)).map
        Place.name := by
  have hv := (rootVisit s network).names_regions_steps s.config
    (t.steps s.config ((rootVisit s network).frameRegion s.config.clusters))
  rw [Tour.names_regions_steps] at hv
  rw [regions_run, List.map_append, List.flatMap_cons, List.map_append, ← hv]
  rfl

/-- The regions of a model that compiles are its root and its places. -/
theorem names_regions_of_compile {g : Graph} (h : (compile source s).outcome = .ok g) :
    g.regions.map (·.name) = s.rootName :: (places source s).map Place.name := by
  obtain ⟨network, hn, -, -, rfl⟩ := compile_eq_ok h
  rw [places, visits_eq hn]
  exact names_regions_modelSteps s network _

/-- Every composite that is expanded has a visit. -/
theorem exists_visit (hu : usable source s = true) (hv : v ∈ visits source s) {x : String}
    (hx : x ∈ namesOf (v.expanded s.config)) : ∃ w ∈ visits source s, w.id = v.id.child x := by
  rw [← map_branches] at hv
  obtain ⟨⟨v, t⟩, hb, rfl⟩ := List.mem_map.mp hv
  obtain ⟨site, hs, rfl⟩ := List.mem_map.mp hx
  obtain ⟨w, inner, -, hw, -, hid, -⟩ := exists_branch hu hb hs
  exact ⟨w, mem_visits_of_branches hw, hid⟩

/-- A name with that of the root inside of it is longer. -/
theorem Place.name_ne_root {p : Place} {r x : String} (h : p.name = "cluster_" ++ r ++ x) :
    p.name ≠ r := by
  intro he
  have hl := congrArg String.length (h.symm.trans he)
  simp only [String.length_append] at hl
  have hc : "cluster_".length = 8 := rfl
  omega

/-- The places of a model are those of its root and of the tour below. -/
theorem places_eq {network : Cursor} (hn : rootNetwork? source s = some network) :
    places source s = (rootVisit s network).places s.config ++
      (tourBelow source s (rootVisit s network)).visits.flatMap (·.places s.config) := by
  rw [places, visits_eq hn, List.flatMap_cons]

/-- No place has the name of the root. -/
theorem name_ne_rootName_of_mem {network : Cursor} (hn : rootNetwork? source s = some network)
    {p : Place} (hp : p ∈ places source s) : p.name ≠ s.rootName := by
  obtain ⟨-, hf⟩ := follows_tourBelow source s (rootVisit s network)
  rw [places_eq hn, List.mem_append] at hp
  rcases hp with hp | hp
  · refine Place.name_ne_root (x := p.ending) ?_
    rw [Place.name, (Visit.mem_places hp).1]
    rfl
  · obtain ⟨x, -, hx⟩ := Tour.exists_under hf hp
    obtain ⟨r, hr⟩ := hx.exists_name
    exact Place.name_ne_root (hr.trans String.append_assoc)

/-- The places of a model agree. -/
theorem pairwise_places {network : Cursor} (hn : rootNetwork? source s = some network)
    (ha : ∀ v ∈ visits source s, Apart (compositesOf v.network)) :
    (places source s).Pairwise (Place.Agree s.config (visits source s)) := by
  obtain ⟨hs, hf⟩ := follows_tourBelow source s (rootVisit s network)
  have hvs := visits_eq hn
  have hmem : rootVisit s network ∈ visits source s := hvs ▸ List.mem_cons_self
  have hsub : (tourBelow source s (rootVisit s network)).visits ⊆ visits source s :=
    hvs ▸ List.subset_cons_self _ _
  have hsites : Apart (tourBelow source s (rootVisit s network)).sites :=
    (ha _ hmem).sublist (hs.trans (Visit.expanded_sublist _ _))
  rw [places_eq hn]
  exact List.pairwise_append.mpr ⟨Visit.pairwise_places _ _ _,
    Tour.pairwise_places hf hmem hsub hs.subset hsites fun v hv => ha v (hsub hv),
    fun p hp q hq => Place.agree_of_ne _ (Tour.place_name_ne_below hf hp hq)⟩

/-- Where a composite has the name of another one with the key of a role behind it, two places
share a name. -/
theorem not_nodup_places (hu : usable source s = true) (hv : v ∈ visits source s) {x : String}
    {role : Role} (hrole : role ∈ Role.drawn s.config.clusters)
    (hx : x ∈ namesOf (v.expanded s.config))
    (hkey : x ++ role.key ∈ namesOf (v.expanded s.config)) :
    ¬ ((places source s).map Place.name).Nodup := by
  intro hnodup
  obtain ⟨u, hum, huid⟩ := exists_visit hu hv hkey
  obtain ⟨w, hw, hwid⟩ := exists_visit hu hv hx
  have hp : (⟨u, none⟩ : Place) ∈ places source s :=
    List.mem_flatMap.mpr ⟨u, hum, List.mem_cons_self⟩
  have hq : (⟨w, some role⟩ : Place) ∈ places source s :=
    List.mem_flatMap.mpr ⟨w, hw, List.mem_cons_of_mem _ (List.mem_map_of_mem hrole)⟩
  have hc : Place.Clash s.config (visits source s) ⟨u, none⟩ ⟨w, some role⟩ :=
    .mk hv hrole hx hkey huid hwid
  have he := List.inj_on_of_nodup_map hnodup hp hq hc.name_eq
  exact nomatch congrArg Place.role he

/-- **Region names.**  If the composites of each network have different names without `@`, then the
regions of a model are its root, the frame of every visit and the clusters of the roles in it.  Two
of them share a name if and only if they clash.  So all names are different if and only if no
network has two composites that are expanded and differ by the key of a role that is drawn. -/
theorem region_names_of_compile {g : Graph} (h : (compile source s).outcome = .ok g)
    (ha : ∀ v ∈ visits source s, Apart (compositesOf v.network)) :
    g.regions.map (·.name) = s.rootName :: (places source s).map Place.name ∧
    (∀ p ∈ places source s, p.name ≠ s.rootName) ∧
    (places source s).Pairwise (fun p q => p.name = q.name ↔
      p.Clash s.config (visits source s) q ∨ q.Clash s.config (visits source s) p) ∧
    ((g.regions.map (·.name)).Nodup ↔ ∀ u ∈ visits source s, ∀ x ∈ namesOf (u.expanded s.config),
      ∀ role ∈ Role.drawn s.config.clusters, x ++ role.key ∉ namesOf (u.expanded s.config)) := by
  have hnames := names_regions_of_compile h
  obtain ⟨network, hn, -⟩ := compile_eq_ok h
  have hroot : ∀ p ∈ places source s, p.name ≠ s.rootName := fun _ hp =>
    name_ne_rootName_of_mem hn hp
  have hpair := pairwise_places hn ha
  refine ⟨hnames, hroot, hpair, ?_⟩
  rw [hnames, List.nodup_cons]
  constructor
  -- two composites that differ by a key would make two places clash
  · rintro ⟨-, hnodup⟩ u hu x hx role hrole hkey
    exact not_nodup_places (compile_ok_iff.mp ⟨g, h⟩) hu hrole hx hkey hnodup
  · intro hno
    refine ⟨fun hm => ?_, List.pairwise_map.mpr (hpair.imp fun {p q} hpq he => ?_)⟩
    · obtain ⟨p, hp, he⟩ := List.mem_map.mp hm
      exact hroot p hp he
    · rcases hpq.mp he with hc | hc
      · obtain ⟨hu, hrole, hx, hkey, -, -⟩ := hc
        exact hno _ hu _ hx _ hrole hkey
      · obtain ⟨hu, hrole, hx, hkey, -, -⟩ := hc
        exact hno _ hu _ hx _ hrole hkey

/-- In the small model one composite is expanded, and all regions have names of their own. -/
theorem region_names_of_compile_sample :
    ∃ g, (compile sampleSource sampleSettings).outcome = .ok g ∧
      (∀ v ∈ visits sampleSource sampleSettings, Apart (compositesOf v.network)) ∧
      g.regions.map (·.name) = ["top", "cluster_top", "cluster_topinps", "cluster_topoutps",
        "cluster_top@X", "cluster_top@Xinps", "cluster_top@Xoutps"] ∧
      ∀ u ∈ visits sampleSource sampleSettings, ∀ x ∈ namesOf (u.expanded sampleSettings.config),
        ∀ role ∈ Role.drawn sampleSettings.config.clusters,
          x ++ role.key ∉ namesOf (u.expanded sampleSettings.config) := by
  obtain ⟨g, hg⟩ := compile_ok_iff.mpr sample_visits.1
  have ha : ∀ v ∈ visits sampleSource sampleSettings, Apart (compositesOf v.network) := by
    intro v hv
    rcases sample_names hv with ⟨hx, -, -⟩ | ⟨hx, -, -⟩ <;> rw [Apart, hx] <;> decide
  obtain ⟨hnames, -, -, hiff⟩ := region_names_of_compile hg ha
  have hplaces : (places sampleSource sampleSettings).map Place.name = ["cluster_top",
      "cluster_topinps", "cluster_topoutps", "cluster_top@X", "cluster_top@Xinps",
      "cluster_top@Xoutps"] := by decide +kernel
  rw [hplaces] at hnames
  exact ⟨g, hg, ha, hnames, hiff.mp (by rw [hnames]; decide)⟩

/-! ## Composites that differ by a key -/

/-- Two composites, the name of one of them being that of the other with the key of a role. -/
def keySource : Source
  | ⟨"top.xml"⟩ => .ok ("<process_network><composite_process name=\"a\" component_name=\"c\"/>"
      ++ "<composite_process name=\"ainps\" component_name=\"c\"/></process_network>")
  | ⟨"./c.xml"⟩ => .ok "<process_network/>"
  | path => .error ⟨["Nothing at " ++ path.text]⟩

/-- The default configuration expands both composites. -/
def keySettings : Settings := ⟨⟨"top.xml"⟩, ⟨"."⟩, "top", ⟨"."⟩, Config.default⟩

/-- Different names of processes do not keep all regions from sharing a name. -/
theorem exists_shared_region_name :
    ∃ g, (compile keySource keySettings).outcome = .ok g ∧
      (∀ v ∈ visits keySource keySettings,
        let names := namesOf (compositesOf v.network ++ leaves v.network)
        names.Nodup ∧ ∀ x ∈ names, x ≠ "" ∧ '@' ∉ x.toList) ∧
      g.regions.map (·.name) = ["top", "cluster_top", "cluster_topinps", "cluster_topoutps",
        "cluster_top@a", "cluster_top@ainps", "cluster_top@aoutps",
        "cluster_top@ainps", "cluster_top@ainpsinps", "cluster_top@ainpsoutps"] ∧
      ¬ (g.regions.map (·.name)).Nodup := by
  -- the inputs of the process a and the process of that longer name share their key
  have hmodel : usable keySource keySettings = true ∧
      (∀ names ∈ (visits keySource keySettings).map fun v =>
        namesOf (compositesOf v.network ++ leaves v.network),
        names.Nodup ∧ ∀ x ∈ names, x ≠ "" ∧ '@' ∉ x.toList) ∧
      (places keySource keySettings).map Place.name = ["cluster_top",
        "cluster_topinps", "cluster_topoutps", "cluster_top@a", "cluster_top@ainps",
        "cluster_top@aoutps", "cluster_top@ainps", "cluster_top@ainpsinps",
        "cluster_top@ainpsoutps"] := by
    decide +kernel
  obtain ⟨husable, hvisits, hplaces⟩ := hmodel
  obtain ⟨g, hg⟩ := compile_ok_iff.mpr husable
  have hnames := names_regions_of_compile hg
  rw [hplaces] at hnames
  refine ⟨g, hg, fun v hv => hvisits _ (List.mem_map_of_mem hv), hnames, ?_⟩
  rw [hnames]
  decide

end NetPlot.Network
