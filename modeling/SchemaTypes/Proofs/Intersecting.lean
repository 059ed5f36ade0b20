/-
  Resolution of intersections as a row of edits.

  The nodes that stand for sets of members, and those that descriptions name, stay nodes of the
  graph while it is resolved.

  * `Resolution.Fit`: the graph is well-formed, its nodes are of a class, and the nodes that
    stand for sets are there;
  * `Resolution.Leads`: edits from one such state to another; each step of resolution leads to a
    state, and to a node, a kind or a part that refers to nodes that are there (`Obtains`);
  * `leads_resolve`, `leads_rounds`: so do the resolution of one intersection and any rounds;
  * `steps_resolveIntersections`: the pass is a row of steps, so that it keeps a well-formed graph
    (`kept_resolveIntersections`).
-/
import SchemaTypes.Proofs.Edits
import SchemaTypes.Proofs.Rounds

namespace SchemaTypes

/-! ## Nodes that maps and descriptions name -/

theorem Properties.mem_types_insert {ps : Properties} {name : String} {p : Property} {c : NodeId}
    (hc : c ∈ Properties.types (ps.insert name p)) : c = p.type ∨ c ∈ ps.types := by
  obtain ⟨name', q, hq, rfl⟩ := Properties.exists_of_mem_types hc
  replace hq := (OrderedMap.get?_insert ..).symm.trans hq
  split at hq
  · cases hq
    exact .inl rfl
  · exact .inr (Properties.mem_types hq)

/-- The nodes of the alternatives are places below a bound. -/
def Alternatives.Within (l : Alternatives) (n : Nat) : Prop := ∀ set ∈ l, ∀ t ∈ set, t < n

theorem Alternatives.Within.mono {l : Alternatives} {n n' : Nat} (hn : n ≤ n')
    (h : l.Within n) : l.Within n' :=
  fun set hset t ht => Nat.lt_of_lt_of_le (h set hset t ht) hn

/-- The nodes that a description names are places below a bound. -/
structure Admitted.Within (a : Admitted) (n : Nat) : Prop where
  arrays : ∀ l ∈ a.arrays, Alternatives.Within l n
  objects : ∀ l ∈ a.objects, Alternatives.Within l n

namespace Admitted

variable {a b : Admitted} {n : Nat} {g : Graph}

theorem Within.join (ha : a.Within n) (hb : b.Within n) : (a.join b).Within n :=
  ⟨Alternatives.forall_join ha.arrays hb.arrays, Alternatives.forall_join ha.objects hb.objects⟩

theorem Within.meet (ha : a.Within n) (hb : b.Within n) : (a.meet b).Within n :=
  ⟨Alternatives.forall_meet ha.arrays hb.arrays, Alternatives.forall_meet ha.objects hb.objects⟩

theorem within_nothing (n : Nat) : nothing.Within n :=
  ⟨fun _ hl => (by cases hl), fun _ hl => by cases hl⟩

theorem within_ofKind {k : Kind} (hk : ∀ c ∈ k.children, c < n) (forced : Bool) {r : NodeId}
    (hr : r < n) : ∀ a ∈ ofKind forced r k, a.Within n := by
  have hnone := within_nothing n
  have hobject : Within { nothing with objects := some [.singleton r] } n :=
    ⟨hnone.arrays, Alternatives.forall_singleton hr⟩
  intro a ha
  cases k with
  | array items =>
    cases ha
    exact ⟨Alternatives.forall_singleton (hk items List.mem_cons_self), hnone.objects⟩
  | object ps additional => cases ha; exact hobject
  | record ps => cases ha; exact hobject
  | map values => cases ha; exact hobject
  | string cases => cases cases <;> cases ha <;> exact ⟨hnone.arrays, hnone.objects⟩
  | intersection ms => cases forced <;> cases ha; exact hnone
  | _ => cases ha <;> exact ⟨hnone.arrays, hnone.objects⟩

/-- A description names nodes of its graph. -/
theorem within_admitted (hg : g.WellFormed) (forced : Bool) (r : NodeId) :
    ∀ a ∈ g.admitted forced r, a.Within g.size := by
  refine joinAll_induction (within_nothing _) (fun _ _ => .join) fun x hx => ?_
  obtain ⟨t, ht, rfl⟩ := List.mem_map.1 hx
  exact within_ofKind (fun _ => hg.lt_of_mem_children) forced (Graph.lt_of_mem_walk ht)

end Admitted

/-- A part refers to nodes below a bound, and its nodes are of a class. -/
def Part.Within (C : NodeClass) : Part → Nat → Prop
  | new k, n => (∀ c ∈ k.children, c < n) ∧ C.properties k.properties
  | existing r, n => r < n

theorem Part.Within.mono {C : NodeClass} {p : Part} {n n' : Nat} (hn : n ≤ n')
    (h : p.Within C n) : p.Within C n' := by
  cases p with
  | new k => exact ⟨fun c hc => Nat.lt_of_lt_of_le (h.1 c hc) hn, h.2⟩
  | existing r => exact Nat.lt_of_lt_of_le h hn

namespace Resolution

open SchemaTypes.Graph

variable {C : NodeClass} {s s' : Resolution} {α β : Type}

/-! ## States -/

/-- The nodes that stand for sets are there. -/
structure Within (s : Resolution) : Prop where
  intersections : s.intersections.Within s.graph.size
  unions : s.unions.Within s.graph.size
  objects : s.objects.Within s.graph.size

/-- The graph is well-formed, its nodes are of a class, and the nodes that stand for sets are
    there. -/
structure Fit (C : NodeClass) (s : Resolution) : Prop
    extends Graph.Fit C s.graph, Within s

/-- Edits from one state to another, in which the nodes that stand for sets are there. -/
structure Leads (C : NodeClass) (s s' : Resolution) : Prop where
  edits : Edits C s.graph s'.graph
  within : s'.Within

/-- A state that is led to, with a result of which something is said. -/
def Obtains (C : NodeClass) (Q : α → Nat → Prop) (s : Resolution) (x : α × Resolution) :
    Prop :=
  Leads C s x.2 ∧ Q x.1 x.2.graph.size

theorem Fit.refl (hs : s.Fit C) : Leads C s s := ⟨.refl, hs.toWithin⟩

theorem Leads.fit (h : Leads C s s') (hs : s.Fit C) : s'.Fit C :=
  ⟨h.edits.fit hs.toFit, h.within⟩

theorem Leads.trans {s'' : Resolution} (h : Leads C s s') (h' : Leads C s' s'') : Leads C s s'' :=
  ⟨h.edits.trans h'.edits, h'.within⟩

theorem Leads.obtains {Q : α → Nat → Prop} {x : α × Resolution} (h : Leads C s s')
    (h' : Obtains C Q s' x) : Obtains C Q s x :=
  ⟨h.trans h'.1, h'.2⟩

theorem Fit.edited (hs : s.Fit C) {g : Graph} (h : Edits C s.graph g) :
    Leads C s { s with graph := g } where
  edits := h
  within := ⟨hs.intersections.mono h.size_le, hs.unions.mono h.size_le, hs.objects.mono h.size_le⟩

/-- A node comes. -/
theorem obtains_push (hs : s.Fit C) {n : Node} (hc : ∀ c ∈ n.kind.children, c < s.graph.size)
    (hn : C.Has n) :
    Obtains C (· < ·) s (s.graph.size, { s with graph := s.graph.push n }) := by
  obtain ⟨hedits, hlt⟩ := yields_push hc hn
  exact ⟨hs.edited hedits, hlt⟩

/-- What is made for the entries of a list, one after the other. -/
theorem obtains_mapM {f : α → ResolutionM β} {A : α → Nat → Prop} {B : β → Nat → Prop}
    (hA : ∀ {a n n'}, n ≤ n' → A a n → A a n') (hB : ∀ {b n n'}, n ≤ n' → B b n → B b n')
    (hf : ∀ {a} {s : Resolution}, s.Fit C → A a s.graph.size → Obtains C B s (f a s))
    (hs : s.Fit C) (l : List α) (hl : ∀ a ∈ l, A a s.graph.size) :
    Obtains C (fun bs n => ∀ b ∈ bs, B b n) s (l.mapM f s) := by
  induction l generalizing s with
  | nil => exact ⟨hs.refl, fun _ hb => absurd hb List.not_mem_nil⟩
  | cons a l ih =>
    rw [mapM_cons_apply]
    obtain ⟨ha, hb⟩ := hf hs (hl a List.mem_cons_self)
    obtain ⟨hrest, hbs⟩ := ih (ha.fit hs) fun a' h' =>
      hA ha.edits.size_le (hl a' (List.mem_cons_of_mem a h'))
    exact ⟨ha.trans hrest, List.forall_mem_cons.2 ⟨hB hrest.edits.size_le hb, hbs⟩⟩

theorem obtains_mapM_node {f : α → ResolutionM NodeId} {A : α → Nat → Prop}
    (hA : ∀ {a n n'}, n ≤ n' → A a n → A a n')
    (hf : ∀ {a} {s : Resolution}, s.Fit C → A a s.graph.size → Obtains C (· < ·) s (f a s))
    (hs : s.Fit C) (l : List α) (hl : ∀ a ∈ l, A a s.graph.size) :
    Obtains C (fun rs n => ∀ r ∈ rs, r < n) s (l.mapM f s) :=
  obtains_mapM (A := A) (B := fun r n => r < n) hA (fun hn h => Nat.lt_of_lt_of_le h hn) hf hs l hl

/-! ## Nodes for sets of members -/

section

variable (hC : C.Heritable)

include hC

theorem obtains_intersectionOf (hs : s.Fit C) {set : SortedSet NodeId}
    (hset : ∀ t ∈ set, t < s.graph.size) : Obtains C (· < ·) s (intersectionOf set s) := by
  rw [intersectionOf_apply]
  split
  · next honly => exact ⟨hs.refl, hset _ (mem_of_toList_eq_singleton honly)⟩
  · next r hr _ => exact ⟨hs.refl, hs.intersections _ r hr⟩
  · obtain ⟨hpush, hlt⟩ := obtains_push hs (n := .new (.intersection set)) hset (hC.bare rfl)
    have hinter := hpush.within.intersections.insert (k := set) hlt
    exact ⟨⟨hpush.edits, { hpush.within with intersections := hinter }⟩, hlt⟩

theorem obtains_unionOf (hs : s.Fit C) {set : SortedSet NodeId}
    (hset : ∀ t ∈ set, t < s.graph.size) : Obtains C (· < ·) s (unionOf set s) := by
  obtain ⟨hedits, hlt⟩ := yields_unionOf hC hset
  have hleads := hs.edited hedits
  rw [unionOf_apply]
  split
  · exact ⟨hleads, hlt⟩
  · split
    · next r hr => exact ⟨hs.refl, hs.unions _ r hr⟩
    · exact ⟨⟨hedits, { hleads.within with unions := hleads.within.unions.insert hlt }⟩, hlt⟩

theorem obtains_objectOf (hs : s.Fit C) {set : SortedSet NodeId}
    (hset : ∀ t ∈ set, t < s.graph.size) : Obtains C (· < ·) s (objectOf set s) := by
  rw [objectOf_apply]
  split
  · next honly => exact ⟨hs.refl, hset _ (mem_of_toList_eq_singleton honly)⟩
  · next r hr _ => exact ⟨hs.refl, hs.objects _ r hr⟩
  · obtain ⟨hedits, hlt⟩ := yields_unifyObjects hC hs.toFit set.toList
    have hleads := hs.edited hedits
    exact ⟨⟨hedits, { hleads.within with objects := hleads.within.objects.insert hlt }⟩, hlt⟩

/-! ## Resolved kinds -/

theorem obtains_meetProperties {views : List ObjectView} (names : List String) {ps : Properties}
    (hs : s.Fit C) (hviews : s.graph.ViewsBounded views)
    (hv : ∀ v ∈ views, C.properties v.properties) (hps : C.properties ps)
    (htypes : ∀ c ∈ ps.types, c < s.graph.size) :
    Obtains C (fun ps n => C.properties ps ∧ ∀ c ∈ ps.types, c < n) s
      (meetProperties views names ps s) := by
  induction names generalizing ps s with
  | nil => exact ⟨hs.refl, hps, htypes⟩
  | cons name rest ih =>
    have hset : ∀ t ∈ ObjectView.typesOf views name, t < s.graph.size := hviews.lt_of_mem_typesOf
    obtain ⟨htype, hlt⟩ := obtains_intersectionOf hC hs hset
    have hle := htype.edits.size_le
    refine htype.obtains (ih (htype.fit hs) (fun v h => ?_) (hC.meet _ hv hps) fun c hc => ?_)
    · exact ⟨fun c hc => Nat.lt_of_lt_of_le ((hviews v h).1 c hc) hle,
        fun c hc => Nat.lt_of_lt_of_le ((hviews v h).2 c hc) hle⟩
    · rcases Properties.mem_types_insert hc with rfl | hc
      · exact hlt
      · exact Nat.lt_of_lt_of_le (htypes c hc) hle

theorem obtains_meetObjects (hs : s.Fit C) (rs : List NodeId) :
    Obtains C (fun k => Part.Within C (.new k)) s (meetObjects rs s) := by
  rw [meetObjects_apply]
  extract_lets views ps additional
  have heq : views = (rs.map s.graph.kind).filterMap Kind.objectView? := by
    simp [views, List.filterMap_map]
  have hviews : s.graph.ViewsBounded views :=
    heq ▸ viewsBounded_of_wellFormed hs.wellFormed rs
  have hv : ∀ v ∈ views, C.properties v.properties := fun v h => hs.toFit.views (heq ▸ h)
  obtain ⟨hleads, hps, htypes⟩ := obtains_meetProperties hC (ObjectView.names views) hs hviews hv
    hC.empty fun _ hc => absurd hc List.not_mem_nil
  split
  · have hset : ∀ c ∈ SortedSet.ofList (views.filterMap (·.additional)), c < ps.2.graph.size :=
      fun c hc => by
        obtain ⟨v, h, hc⟩ := List.mem_filterMap.1 (SortedSet.mem_ofList.1 hc)
        exact Nat.lt_of_lt_of_le ((hviews v h).2 c hc) hleads.edits.size_le
    obtain ⟨ha, hlt⟩ := obtains_intersectionOf hC (hleads.fit hs) hset
    refine ⟨hleads.trans ha, fun c hc => ?_, hps⟩
    rcases List.mem_append.1 hc with hc | hc
    · exact Nat.lt_of_lt_of_le (htypes c hc) ha.edits.size_le
    · exact List.mem_singleton.1 hc ▸ hlt
  · refine ⟨hleads, fun c hc => ?_, hps⟩
    exact htypes c (by simpa [Kind.children] using hc)

theorem obtains_arrayPart (hs : s.Fit C) {l : Alternatives} (hl : l.Within s.graph.size) :
    Obtains C (Part.Within C) s (arrayPart l s) := by
  rw [arrayPart_apply]
  split
  · obtain ⟨hany, hlt⟩ := obtains_push hs (n := .new .any)
      (fun _ hc => absurd hc List.not_mem_nil) (hC.bare rfl)
    exact ⟨hany, fun c hc => List.mem_singleton.1 hc ▸ hlt, hC.empty⟩
  · obtain ⟨hitems, hrs⟩ := obtains_mapM_node
      (A := fun set n => ∀ t ∈ set, t < n) (fun hn h t ht => Nat.lt_of_lt_of_le (h t ht) hn)
      (fun hs h => obtains_unionOf hC hs h) hs l hl
    have hset : ∀ t ∈ SortedSet.ofList (l.mapM unionOf s).1, t < (l.mapM unionOf s).2.graph.size :=
      fun t ht => hrs t (SortedSet.mem_ofList.1 ht)
    obtain ⟨hmeet, hlt⟩ := obtains_intersectionOf hC (hitems.fit hs) hset
    exact ⟨hitems.trans hmeet, fun c hc => List.mem_singleton.1 hc ▸ hlt, hC.empty⟩

theorem obtains_objectPart (hs : s.Fit C) {l : Alternatives} (hl : l.Within s.graph.size) :
    Obtains C (Part.Within C) s (objectPart l s) := by
  rw [objectPart_apply]
  split
  · obtain ⟨hany, hlt⟩ := obtains_push hs (n := .new .any)
      (fun _ hc => absurd hc List.not_mem_nil) (hC.bare rfl)
    exact ⟨hany, fun c hc => List.mem_singleton.1 hc ▸ hlt, hC.empty⟩
  · obtain ⟨hobjects, hrs⟩ := obtains_mapM_node
      (A := fun set n => ∀ t ∈ set, t < n) (fun hn h t ht => Nat.lt_of_lt_of_le (h t ht) hn)
      (fun hs h => obtains_objectOf hC hs h) hs l hl
    extract_lets rs
    split
    · next only honly =>
      refine ⟨hobjects, hrs only (List.mem_eraseDups.1 ?_)⟩
      rw [honly]
      exact List.mem_singleton_self only
    · exact hobjects.obtains (obtains_meetObjects hC (hobjects.fit hs) rs.1.eraseDups)

omit hC in
/-- Primitive kinds and strings refer to nothing. -/
theorem leaf_of_mem_primitiveParts {a : Admitted} {k : Kind} (hk : k ∈ primitiveParts a) :
    k.children = [] ∧ k.properties = ∅ := by
  have hif : ∀ {b : Bool} {k' : Kind}, k ∈ (if b then [k'] else []) → k = k' := fun h => by
    split at h
    · exact List.mem_singleton.1 h
    · cases h
  simp only [primitiveParts, List.mem_append, List.mem_map] at hk
  rcases hk with ((((hk | hk) | hk) | hk) | hk) | ⟨f, -, rfl⟩
  · exact hif hk ▸ ⟨rfl, rfl⟩
  · exact hif hk ▸ ⟨rfl, rfl⟩
  · exact hif hk ▸ ⟨rfl, rfl⟩
  · exact hif hk ▸ ⟨rfl, rfl⟩
  · split at hk
    · cases hk
    · exact List.mem_singleton.1 hk ▸ ⟨rfl, rfl⟩
    · split at hk
      · cases hk
      · exact List.mem_singleton.1 hk ▸ ⟨rfl, rfl⟩
  · exact ⟨rfl, rfl⟩

theorem obtains_parts {a : Admitted} (hs : s.Fit C) (ha : a.Within s.graph.size) :
    Obtains C (fun ps n => ∀ p ∈ ps, Part.Within C p n) s (parts a s) := by
  rw [parts_apply]
  extract_lets arrays objects
  obtain ⟨h₁, harrays⟩ := obtains_mapM (f := arrayPart) (A := Alternatives.Within)
    (B := Part.Within C) Alternatives.Within.mono Part.Within.mono
    (fun hs hl => obtains_arrayPart hC hs hl) hs a.arrays.toList
    fun l hl => ha.arrays l (Option.mem_toList.1 hl)
  obtain ⟨h₂, hobjects⟩ := obtains_mapM (f := objectPart) (A := Alternatives.Within)
    (B := Part.Within C) Alternatives.Within.mono Part.Within.mono
    (fun hs hl => obtains_objectPart hC hs hl) (h₁.fit hs) a.objects.toList
    fun l hl => (ha.objects l (Option.mem_toList.1 hl)).mono h₁.edits.size_le
  refine ⟨h₁.trans h₂, fun p hp => ?_⟩
  simp only [List.mem_append, List.mem_map] at hp
  rcases hp with (⟨k, hk, rfl⟩ | hp) | hp
  · obtain ⟨hchildren, hprops⟩ := leaf_of_mem_primitiveParts hk
    exact ⟨fun c hc => absurd (hchildren ▸ hc) List.not_mem_nil, hprops ▸ hC.empty⟩
  · exact (harrays p hp).mono h₂.edits.size_le
  · exact hobjects p hp

theorem obtains_partNode {p : Part} (hs : s.Fit C) (hp : p.Within C s.graph.size) :
    Obtains C (· < ·) s (partNode p s) := by
  cases p with
  | new k => exact obtains_push hs hp.1 ⟨hp.2, hC.noAttributes⟩
  | existing r => exact ⟨hs.refl, hp⟩

/-! ## Resolving -/

omit hC in
/-- A node gets the kind of a part. -/
theorem leads_replace {r : NodeId} (hs : s.Fit C) (hr : r < s.graph.size) {k : Kind}
    (hk : Part.Within C (.new k) s.graph.size) {a : Attributes} (ha : C.attributes a)
    (fixed : Bool) : Leads C s (replace r k a fixed s).2 :=
  hs.edited (.single (.modify hr hk.1 ⟨hk.2, ha⟩))

/-- **An intersection gets a kind that refers to nodes that are there.** -/
theorem leads_resolve (forced : Bool) {r : NodeId} (members : List NodeId) (hs : s.Fit C)
    (hr : r < s.graph.size) : Leads C s (resolve forced r members s).2 := by
  have hleaf : ∀ {k : Kind} {n : Nat}, k.children = [] → k.properties = ∅ →
      Part.Within C (.new k) n := fun hc hps =>
    ⟨fun c h => absurd (hc ▸ h) List.not_mem_nil, hps ▸ hC.empty⟩
  have ha : C.attributes (s.graph.metAttributes r members) :=
    hC.foldl_combine .intersection (hs.toFit.attributes r) fun m _ => hs.toFit.attributes m
  rw [resolve_apply]
  split
  · exact leads_replace hs hr (hleaf rfl rfl) ha _
  next d hd =>
  have hwithin : d.Within s.graph.size := by
    refine Admitted.meetAll_induction (P := (·.Within s.graph.size)) (fun _ _ => .meet)
      (fun x hx => ?_) d hd
    obtain ⟨m, -, rfl⟩ := List.mem_map.1 hx
    exact Admitted.within_admitted hs.wellFormed forced m
  obtain ⟨hparts, hps⟩ := obtains_parts hC hs hwithin
  have hs₁ := hparts.fit hs
  have hr₁ := Nat.lt_of_lt_of_le hr hparts.edits.size_le
  generalize parts d s = q at hparts hps hs₁ hr₁ ⊢
  obtain ⟨ps, s₁⟩ := q
  dsimp only at hparts hps hs₁ hr₁ ⊢
  split
  · exact hparts.trans (leads_replace hs₁ hr₁ (hleaf rfl rfl) ha _)
  · exact hparts.trans (leads_replace hs₁ hr₁ (hps _ List.mem_cons_self) ha _)
  · refine hparts.trans (leads_replace hs₁ hr₁ ⟨fun c hc => ?_, hs₁.properties _⟩
      (hC.combine .intersection ha (hs₁.toFit.attributes _)) _)
    exact hs₁.wellFormed.lt_of_mem_children hc
  · obtain ⟨hnodes, hms⟩ := obtains_mapM_node (f := partNode) (A := Part.Within C)
      Part.Within.mono (fun hs hp => obtains_partNode hC hs hp) hs₁ ps hps
    have hunion : Part.Within C (.new (.union (.ofList (ps.mapM partNode s₁).1)))
        (ps.mapM partNode s₁).2.graph.size :=
      ⟨fun m hm => hms m (SortedSet.mem_ofList.1 hm), hC.empty⟩
    exact (hparts.trans hnodes).trans (leads_replace (hnodes.fit hs₁)
      (Nat.lt_of_lt_of_le hr₁ hnodes.edits.size_le) hunion ha _)

omit hC in
theorem leads_register (hs : s.Fit C) {e : NodeId × List NodeId} (he : e.1 < s.graph.size) :
    Leads C s (register s e) := by
  unfold register
  extract_lets members
  split
  · exact hs.refl
  · exact ⟨.refl, { hs.toWithin with intersections := hs.intersections.insert he }⟩

theorem leads_forM_resolve (forced : Bool) (es : List (NodeId × List NodeId)) (hs : s.Fit C)
    (hes : ∀ e ∈ es, e.1 < s.graph.size) :
    Leads C s ((es.forM fun e => resolve forced e.1 e.2).run s).2 := by
  induction es generalizing s with
  | nil => exact hs.refl
  | cons e es ih =>
    have he := leads_resolve hC forced e.2 hs (hes e List.mem_cons_self)
    exact he.trans (ih (he.fit hs) fun e' h' =>
      Nat.lt_of_lt_of_le (hes e' (List.mem_cons_of_mem e h')) he.edits.size_le)

theorem leads_round (hs : s.Fit C) {rs : List NodeId} (hrs : ∀ r ∈ rs, r < s.graph.size) :
    Leads C s (s.round rs) := by
  unfold round
  extract_lets g expanded s₁ ready
  have hexpanded : ∀ e ∈ expanded, e.1 < s.graph.size := fun e he => by
    obtain ⟨r, hr, rfl⟩ := List.mem_map.1 he
    exact hrs r hr
  have hregister : Leads C s s₁ := List.foldlRecOn (motive := Leads C s) expanded register hs.refl
    fun t ht e he => ht.trans
      (leads_register (ht.fit hs) (Nat.lt_of_lt_of_le (hexpanded e he) ht.edits.size_le))
  have hready : ∀ l : List (NodeId × List NodeId), (∀ e ∈ l, e ∈ expanded) →
      ∀ e ∈ l, e.1 < s₁.graph.size := fun l hl e he =>
    Nat.lt_of_lt_of_le (hexpanded e (hl e he)) hregister.edits.size_le
  split
  next l forced heq =>
  refine hregister.trans (leads_forM_resolve hC forced l (hregister.fit hs) (hready l ?_))
  split at heq <;> cases heq
  · exact fun _ => id
  · exact fun e he => (List.mem_filter.1 he).1

/-- **Any number of rounds is a row of edits.** -/
theorem leads_rounds (n : Nat) (hs : s.Fit C) : Leads C s (rounds n s) := by
  induction n generalizing s with
  | zero => exact hs.refl
  | succ n ih =>
    unfold rounds
    split
    · exact hs.refl
    · have hrs : ∀ r ∈ s.graph.reachableIntersections, r < s.graph.size := fun r hr =>
        lt_of_mem_walk (List.mem_filter.1 (SortedSet.mem_ofList.1 (SortedSet.mem_toList.1 hr))).1
      have hround := leads_round hC hs hrs
      exact hround.trans (ih (hround.fit hs))

end

theorem fit_ofGraph {g : Graph} (hg : g.Fit C) : (ofGraph g).Fit C :=
  ⟨hg, ⟨OrderedMap.within_empty _, OrderedMap.within_empty _, OrderedMap.within_empty _⟩⟩

end Resolution

namespace Graph

variable {g : Graph}

/-- **Resolution of intersections is a row of steps.** -/
theorem steps_resolveIntersections {C : NodeClass} (hC : C.Heritable)
    (hg : g.Fit C) : Steps C g g.resolveIntersections.1 :=
  (Resolution.leads_rounds hC _ (Resolution.fit_ofGraph hg)).edits.steps.tail .collect

theorem kept_rounds (hg : g.WellFormed) :
    g.Kept (Resolution.rounds Resolution.roundLimit (.ofGraph g)).graph :=
  (Resolution.leads_rounds NodeClass.heritable_all _
    (Resolution.fit_ofGraph hg.fit)).edits.steps.kept hg

theorem kept_resolveIntersections (hg : g.WellFormed) : g.Kept g.resolveIntersections.1 :=
  (kept_rounds hg).collect

theorem kept_resolveAndFlatten (conflate : Bool) (hg : g.WellFormed) :
    g.Kept (flattenUnions conflate g.resolveIntersections.1).1 :=
  (kept_resolveIntersections hg).trans
    (kept_flattenUnions conflate (kept_resolveIntersections hg).wellFormed)

end Graph

end SchemaTypes
