/-
  One type for several admits what any of them does.

  * `admits_unionOf`: the node for a union of nodes admits what its members do;
  * `admits_unifyObjects`: the object type made of several object types admits what any of
    them does.

  Both only add nodes (`grows_unionOf`, `grows_unifyObjects`).  What they say of admission
  holds in every graph that has the new nodes (`Graph.Agrees`).
-/
import SchemaTypes.Proofs.Simulation

namespace SchemaTypes

variable {ρ : Reading} {A : NodeId → Json → Prop}

/-! ## Views of object types -/

/-- Objects whose listed properties and other properties have admitted values. -/
def ObjectView.Admits (A : NodeId → Json → Prop) (view : ObjectView) (fields : Json.Fields) :
    Prop :=
  view.properties.Admit A (fun w => ∃ r ∈ view.additional, A r w) fields

theorem Kind.isObjectLike_iff {k : Kind} :
    k.isObjectLike = true ↔ ∃ view, k.objectView? = some view := by
  cases k <;> simp [isObjectLike, objectView?]

theorem Kind.isGround_of_isObjectLike {k : Kind} (h : k.isObjectLike = true) :
    k.isGround = true := by
  cases k <;> first | rfl | cases h

/-- Where classes are closed, an object-like kind admits what its view does. -/
theorem Kind.admits_iff_view (hρ : ρ.openClasses = false) {k : Kind} {view : ObjectView}
    (h : k.objectView? = some view) {v : Json} :
    k.Admits ρ A v ↔ ∃ fields, v = .object fields ∧ view.Admits A fields := by
  cases k with
  | object ps additional => cases h; rfl
  | record ps => cases h; simp [Admits, ObjectView.Admits, hρ]
  | map values =>
    cases h
    refine exists_congr fun fields => and_congr_right fun _ => ⟨fun h => ?_, fun h e he => ?_⟩
    · refine ⟨fun name p hp => ?_, fun e he => ⟨values, rfl, h e he⟩⟩
      cases hp
    · obtain ⟨_, hr, h⟩ := h.2 e he
      cases hr
      exact h
  | _ => cases h

theorem Kind.mem_children_of_view {k : Kind} {view : ObjectView} (h : k.objectView? = some view)
    {c : NodeId} (hc : c ∈ view.properties.types ∨ c ∈ view.additional) : c ∈ k.children := by
  cases k with
  | object ps additional => cases h; simpa [children] using hc
  | record ps => cases h; simpa [children] using hc
  | map values =>
    cases h
    rcases hc with hc | hc
    · exact absurd hc List.not_mem_nil
    · simpa [children, eq_comm] using hc
  | _ => cases h

namespace ObjectView

theorem mem_typesOf {views : List ObjectView} {name : String} {t : NodeId} :
    t ∈ typesOf views name ↔ ∃ view ∈ views, match view.properties.get? name with
      | some p => t = p.type
      | none => t ∈ view.additional := by
  simp only [typesOf, SortedSet.mem_ofList, List.mem_flatMap]
  refine exists_congr fun view => and_congr_right fun _ => ?_
  cases view.properties.get? name <;> simp

theorem mem_names {views : List ObjectView} {name : String} :
    name ∈ names views ↔ ∃ view ∈ views, ∃ p, view.properties.get? name = some p := by
  simp only [names, List.mem_eraseDups, List.mem_flatMap]
  refine exists_congr fun view => and_congr_right fun _ => ?_
  exact OrderedMap.mem_keys_iff

theorem exists_mem_typesOf {views : List ObjectView} {name : String} (h : name ∈ names views) :
    ∃ t, t ∈ typesOf views name := by
  obtain ⟨view, hview, p, hp⟩ := mem_names.1 h
  refine ⟨p.type, mem_typesOf.2 ⟨view, hview, ?_⟩⟩
  rw [hp]

end ObjectView

namespace Graph

variable {g g' h : Graph}

/-! ## New nodes -/

/-- The graph has the nodes that another got when it grew. -/
def Agrees (h g g' : Graph) : Prop := ∀ u, g.size ≤ u → u < g'.size → h.kind u = g'.kind u

theorem Agrees.left {g₁ : Graph} (hh : h.Agrees g g') (h₁ : g₁.Grows g') : h.Agrees g g₁ :=
  fun u hu hu' => by
    rw [hh u hu (Nat.lt_of_lt_of_le hu' h₁.size_le), h₁.kind_eq u hu']

theorem Agrees.right {g₁ : Graph} (hh : h.Agrees g g') (h₁ : g.Grows g₁) : h.Agrees g₁ g' :=
  fun u hu => hh u (Nat.le_trans h₁.size_le hu)

theorem agrees_extendedBy (hs : h.size = g.size) : (h.extendedBy g').Agrees g g' :=
  fun u hu _ => by rw [kind_extendedBy, if_neg (Nat.not_lt.2 (hs ▸ hu))]

/-! ## Unions of nodes -/

section

variable {ms : SortedSet NodeId}

theorem grows_unionOf (hms : ∀ m ∈ ms, m < g.size) : g.Grows (g.unionOf ms).2 :=
  unionOf_cases (P := fun _ => g.Grows)
    (fun _ => grows_push fun c hc => by simp [Node.new, Kind.children] at hc) (fun _ _ _ => .refl g)
    (grows_push fun c hc => Nat.lt_succ_of_lt (hms c hc))

theorem unionOf_lt (hms : ∀ m ∈ ms, m < g.size) : (g.unionOf ms).1 < (g.unionOf ms).2.size :=
  unionOf_cases (P := fun m g' => m < g'.size) (by simp) (fun m hm _ => hms m hm) (by simp)

/-- A union of no nodes is a node without values; other new nodes are unions. -/
theorem kind_unionOf {r : NodeId} (hr : g.size ≤ r) (hlt : r < (g.unionOf ms).2.size) :
    (g.unionOf ms).2.kind r = .union ms ∨
      ms.toList = [] ∧ (g.unionOf ms).2.kind r = .nothing := by
  revert hlt
  refine unionOf_cases (P := fun _ g' => r < g'.size →
    g'.kind r = .union ms ∨ ms.toList = [] ∧ g'.kind r = .nothing)
    (fun hnil hlt => .inr ⟨hnil, ?_⟩) (fun _ _ _ hlt => absurd hr (Nat.not_le.2 hlt))
    fun hlt => .inl ?_
  all_goals
    obtain rfl : r = g.size := Nat.le_antisymm (Nat.le_of_lt_succ (by simpa using hlt)) hr
    rw [kind_push, if_pos rfl]
    rfl

theorem isUnion_unionOf (hms : ∃ m, m ∈ ms) {r : NodeId} (hr : g.size ≤ r)
    (hlt : r < (g.unionOf ms).2.size) : ((g.unionOf ms).2.kind r).isUnion = true := by
  rcases kind_unionOf hr hlt with hk | ⟨hnil, -⟩
  · rw [hk]
    rfl
  · obtain ⟨m, hm⟩ := hms
    rw [← SortedSet.mem_toList, hnil] at hm
    cases hm

/-- A node for a union admits what the members do. -/
theorem admits_unionOf (hh : h.Agrees g (g.unionOf ms).2) {m : NodeId} {v : Json} (hm : m ∈ ms)
    (hv : h.Admits ρ m v) : h.Admits ρ (g.unionOf ms).1 v := by
  rw [← SortedSet.mem_toList] at hm
  revert hh
  refine unionOf_cases (P := fun u g' => h.Agrees g g' → h.Admits ρ u v) (fun hnil => ?_)
    (fun only _ honly _ => ?_) fun hh => ?_
  · rw [hnil] at hm
    cases hm
  · rw [honly, List.mem_singleton] at hm
    exact hm ▸ hv
  · rw [SortedSet.mem_toList] at hm
    have hk : h.kind g.size = .union ms := by
      rw [hh g.size (Nat.le_refl _) (by simp), kind_push, if_pos rfl]
      rfl
    exact (admits_union hk).2 ⟨m, hm, hv⟩

end

/-! ## Object types -/

section

variable {views : List ObjectView}

/-- The views refer to places of nodes. -/
def ViewsBounded (g : Graph) (views : List ObjectView) : Prop :=
  ∀ view ∈ views, (∀ c ∈ view.properties.types, c < g.size) ∧ ∀ c ∈ view.additional, c < g.size

theorem ViewsBounded.mono (hv : g.ViewsBounded views) (hg : g.Grows g') :
    g'.ViewsBounded views := fun view hview =>
  ⟨fun c hc => Nat.lt_of_lt_of_le ((hv view hview).1 c hc) hg.size_le,
    fun c hc => Nat.lt_of_lt_of_le ((hv view hview).2 c hc) hg.size_le⟩

theorem ViewsBounded.lt_of_mem_typesOf (hv : g.ViewsBounded views) {name : String} :
    ∀ t ∈ ObjectView.typesOf views name, t < g.size := fun t ht => by
  obtain ⟨view, hview, ht⟩ := ObjectView.mem_typesOf.1 ht
  split at ht
  · next p hp => exact ht ▸ (hv view hview).1 _ (Properties.mem_types hp)
  · exact (hv view hview).2 t ht

/-- What the views of types refer to are children of these. -/
theorem exists_child_of_view {rs : List NodeId} {view : ObjectView}
    (hview : view ∈ (rs.map g.kind).filterMap Kind.objectView?) {c : NodeId}
    (hc : c ∈ view.properties.types ∨ c ∈ view.additional) : ∃ r ∈ rs, c ∈ (g.kind r).children := by
  obtain ⟨k, hk, hview⟩ := List.mem_filterMap.1 hview
  obtain ⟨r, hr, rfl⟩ := List.mem_map.1 hk
  exact ⟨r, hr, Kind.mem_children_of_view hview hc⟩

theorem exists_child_of_mem_typesOf {rs : List NodeId} {name : String} {t : NodeId}
    (ht : t ∈ ObjectView.typesOf ((rs.map g.kind).filterMap Kind.objectView?) name) :
    ∃ r ∈ rs, t ∈ (g.kind r).children := by
  obtain ⟨view, hview, ht⟩ := ObjectView.mem_typesOf.1 ht
  split at ht
  · next p hp => exact exists_child_of_view hview (.inl (ht ▸ Properties.mem_types hp))
  · exact exists_child_of_view hview (.inr ht)

theorem viewsBounded_of_wellFormed (hg : g.WellFormed) (rs : List NodeId) :
    g.ViewsBounded ((rs.map g.kind).filterMap Kind.objectView?) := fun view hview => by
  have hlt : ∀ c, c ∈ view.properties.types ∨ c ∈ view.additional → c < g.size := fun c hc => by
    obtain ⟨r, -, hr⟩ := exists_child_of_view hview hc
    exact hg.lt_of_mem_children hr
  exact ⟨fun c hc => hlt c (.inl hc), fun c hc => hlt c (.inr hc)⟩

/-- Uniting properties keeps what adding unions of the types of each keeps. -/
theorem uniteProperties_induction {P : Graph → Prop} {names : List String}
    (hunion : ∀ g₁ name, name ∈ names → P g₁ → P (g₁.unionOf (ObjectView.typesOf views name)).2)
    (ps : Properties) (hg : P g) : P (uniteProperties views names ps g).2 := by
  induction names generalizing ps g with
  | nil => exact hg
  | cons name rest ih =>
    exact ih (fun g₁ n hn => hunion g₁ n (List.mem_cons_of_mem name hn)) _
      (hunion g name List.mem_cons_self hg)

/-- The united properties: which graph they leave, and what becomes of each name. -/
structure United (views : List ObjectView) (names : List String) (ps : Properties) (g : Graph)
    (ps' : Properties) (g' : Graph) : Prop where
  grows : g.Grows g'
  of_mem : ∀ name ∈ names, ∃ p, ps'.get? name = some p ∧ p.type < g'.size ∧
    p.optional = views.any (fun view => !view.requires name) ∧
    ∀ (ρ : Reading) (h : Graph), h.Agrees g g' → ∀ t ∈ ObjectView.typesOf views name, ∀ v,
      h.Admits ρ t v → h.Admits ρ p.type v
  of_not_mem : ∀ name ∉ names, ps'.get? name = ps.get? name
  isUnion : (∀ name ∈ names, name ∈ ObjectView.names views) → ∀ r, g.size ≤ r → r < g'.size →
    (g'.kind r).isUnion = true

theorem united_uniteProperties (names : List String) (ps : Properties) (g : Graph)
    (hv : g.ViewsBounded views) :
    United views names ps g (uniteProperties views names ps g).1
      (uniteProperties views names ps g).2 := by
  induction names generalizing ps g with
  | nil => exact ⟨.refl g, by simp, fun _ _ => rfl, fun _ _ hr hlt => absurd hr (Nat.not_le.2 hlt)⟩
  | cons name rest ih =>
    simp only [uniteProperties]
    have hms : ∀ t ∈ ObjectView.typesOf views name, t < g.size := hv.lt_of_mem_typesOf
    have h₁ := grows_unionOf hms
    have hlt := unionOf_lt hms
    have hnew : name ∈ ObjectView.names views → ∀ r, g.size ≤ r →
        r < (g.unionOf (ObjectView.typesOf views name)).2.size →
        ((g.unionOf (ObjectView.typesOf views name)).2.kind r).isUnion = true := fun hn r =>
      isUnion_unionOf (ObjectView.exists_mem_typesOf hn)
    generalize hu : g.unionOf (ObjectView.typesOf views name) = u at h₁ hlt hnew ⊢
    obtain ⟨type, g₁⟩ := u
    have ih := ih (ps.insert name ⟨type, views.any fun v => !v.requires name⟩) g₁ (hv.mono h₁)
    refine ⟨h₁.trans ih.grows, fun other ho => ?_, fun other ho => ?_, fun hnames r hr hlt => ?_⟩
    · by_cases hr : other ∈ rest
      · obtain ⟨p, hp, hlt, hopt, hadm⟩ := ih.of_mem other hr
        exact ⟨p, hp, hlt, hopt, fun ρ h hh => hadm ρ h (hh.right h₁)⟩
      · obtain rfl : other = name := by simpa [hr] using ho
        refine ⟨⟨type, views.any fun view => !view.requires other⟩,
          (ih.of_not_mem other hr).trans (by simp),
          Nat.lt_of_lt_of_le hlt ih.grows.size_le, rfl, fun ρ h hh t ht v hv => ?_⟩
        have hh₁ : h.Agrees g (g.unionOf (ObjectView.typesOf views other)).2 := by
          rw [hu]
          exact hh.left ih.grows
        have hadm : h.Admits ρ (g.unionOf (ObjectView.typesOf views other)).1 v :=
          admits_unionOf hh₁ ht hv
        rwa [hu] at hadm
    · rw [List.mem_cons, not_or] at ho
      rw [ih.of_not_mem other ho.2, OrderedMap.get?_insert, if_neg ho.1]
    · by_cases hr₁ : r < g₁.size
      · rw [ih.grows.kind_eq r hr₁]
        exact hnew (hnames name List.mem_cons_self) r hr hr₁
      · exact ih.isUnion (fun other ho => hnames other (List.mem_cons_of_mem _ ho)) r
          (Nat.not_lt.1 hr₁) hlt

/-- United properties admit what a view does, if what the view admits of others is admitted. -/
theorem United.admit {ps' : Properties}
    (H : United views (ObjectView.names views) ∅ g ps' g') (hh : h.Agrees g g')
    {view : ObjectView} (hview : view ∈ views) {P : Json → Prop} {fields : Json.Fields}
    (hv : view.Admits (h.Admits ρ) fields)
    (hP : ∀ r ∈ view.additional, ∀ w, h.Admits ρ r w → P w) :
    ps'.Admit (h.Admits ρ) P fields := by
  have hnames : ∀ name, (∃ p, ps'.get? name = some p) → name ∈ ObjectView.names views := by
    refine fun name ⟨p, hp⟩ => Decidable.byContradiction fun hn => ?_
    rw [H.of_not_mem name hn] at hp
    cases hp
  refine ⟨fun name p hp hopt => ?_, fun e he => ?_⟩
  · -- a property that is not optional is required by every view
    obtain ⟨q, hq, -, hqo, -⟩ := H.of_mem name (hnames name ⟨p, hp⟩)
    obtain rfl : q = p := Option.some.inj (hq.symm.trans hp)
    have hreq : view.requires name = true := by
      rw [hqo, List.any_eq_false] at hopt
      simpa using hopt view hview
    unfold ObjectView.requires at hreq
    split at hreq
    · next p' hp' => exact hv.1 name p' hp' (by simpa using hreq)
    · cases hreq
  · have he' := hv.2 e he
    split
    · next p hp =>
      obtain ⟨q, hq, -, -, hadm⟩ := H.of_mem e.1 (hnames e.1 ⟨p, hp⟩)
      obtain rfl : q = p := Option.some.inj (hq.symm.trans hp)
      split at he'
      · next p' hp' =>
        refine hadm ρ h hh p'.type (ObjectView.mem_typesOf.2 ⟨view, hview, ?_⟩) _ he'
        rw [hp']
      · next hn =>
        obtain ⟨r, hr, he'⟩ := he'
        refine hadm ρ h hh r (ObjectView.mem_typesOf.2 ⟨view, hview, ?_⟩) _ he'
        rw [hn]
        exact hr
    · next hnone =>
      split at he'
      · next p' hp' =>
        obtain ⟨q, hq, -⟩ := H.of_mem e.1 (ObjectView.mem_names.2 ⟨view, hview, p', hp'⟩)
        cases hnone.symm.trans hq
      · obtain ⟨r, hr, he'⟩ := he'
        exact hP r hr e.2 he'

theorem United.lt_of_mem_types {names : List String} {ps' : Properties}
    (H : United views names ∅ g ps' g') : ∀ c ∈ ps'.types, c < g'.size := fun c hc => by
  obtain ⟨name, p, hp, rfl⟩ := Properties.exists_of_mem_types hc
  by_cases hn : name ∈ names
  · obtain ⟨q, hq, hlt, -⟩ := H.of_mem name hn
    obtain rfl : q = p := Option.some.inj (hq.symm.trans hp)
    exact hlt
  · rw [H.of_not_mem name hn] at hp
    cases hp

end

/-- What unifying object types gives: a graph that grew, an object type that refers to places of
    nodes there, and that admits what any of the types does. -/
structure Unified (rs : List NodeId) (g : Graph) (n : Node) (g' : Graph) : Prop where
  grows : g.Grows g'
  isObjectLike : n.kind.isObjectLike = true
  lt_size : ∀ c ∈ n.kind.children, c < g'.size
  isUnion : ∀ r, g.size ≤ r → r < g'.size → (g'.kind r).isUnion = true
  admits : ∀ (ρ : Reading) (h : Graph), ρ.openClasses = false → h.Agrees g g' →
    ∀ r ∈ rs, (g.kind r).isObjectLike = true → ∀ v,
      (g.kind r).Admits ρ (h.Admits ρ) v → n.kind.Admits ρ (h.Admits ρ) v

theorem mem_valueTypes {kinds : List Kind} {t : NodeId} :
    t ∈ valueTypes kinds ↔ (.map t ∈ kinds) ∨ ∃ ps, .record ps ∈ kinds ∧ t ∈ ps.types := by
  simp only [valueTypes, SortedSet.mem_ofList, List.mem_flatMap]
  constructor
  · rintro ⟨k, hk, ht⟩
    split at ht
    · exact .inl (by simpa using List.mem_singleton.1 ht ▸ hk)
    · exact .inr ⟨_, hk, ht⟩
    · simp at ht
  · rintro (hk | ⟨ps, hk, ht⟩)
    · exact ⟨_, hk, by simp⟩
    · exact ⟨_, hk, ht⟩

/-- The types of the values of maps and classes are children of these. -/
theorem exists_child_of_mem_valueTypes {rs : List NodeId} {t : NodeId}
    (ht : t ∈ valueTypes (rs.map g.kind)) : ∃ r ∈ rs, t ∈ (g.kind r).children := by
  rcases mem_valueTypes.1 ht with hk | ⟨ps, hk, ht⟩ <;> obtain ⟨r, hr, heq⟩ := List.mem_map.1 hk
  · exact ⟨r, hr, by rw [heq]; exact List.mem_singleton_self t⟩
  · exact ⟨r, hr, by rw [heq]; exact ht⟩

theorem exists_mem_valueTypes {kinds : List Kind}
    (hmap : kinds.any (fun k => match k with | .map _ => true | _ => false) = true) :
    ∃ t, t ∈ valueTypes kinds := by
  obtain ⟨k, hk, hmap⟩ := List.any_eq_true.1 hmap
  cases k with
  | map values => exact ⟨values, mem_valueTypes.2 (.inl hk)⟩
  | _ => cases hmap

/-- Unifying object types keeps what adding unions of some of their children keeps. -/
theorem unifyObjects_induction {P : Graph → Prop} {rs : List NodeId}
    (hunion : ∀ g₁ ms, P g₁ → (∃ m, m ∈ ms) → (∀ m ∈ ms, ∃ r ∈ rs, m ∈ (g.kind r).children) →
      P (g₁.unionOf ms).2)
    (hg : P g) : P (g.unifyObjects rs).2 := by
  unfold unifyObjects
  extract_lets kinds attributes hasObject hasMap views fixed additional
  split
  · next hmap =>
    rw [Bool.and_eq_true] at hmap
    exact hunion g _ hg (exists_mem_valueTypes hmap.1) fun _ => exists_child_of_mem_valueTypes
  have hprops : P (uniteProperties views (ObjectView.names views) ∅ g).2 :=
    uniteProperties_induction (fun g₁ name hname h => hunion g₁ _ h
      (ObjectView.exists_mem_typesOf hname) fun _ => exists_child_of_mem_typesOf) ∅ hg
  generalize uniteProperties views (ObjectView.names views) ∅ g = u at hprops ⊢
  obtain ⟨ps, g₁⟩ := u
  dsimp only at hprops ⊢
  split
  · split
    · exact hprops
    · next hempty =>
      refine hunion g₁ _ hprops
        (List.exists_mem_of_ne_nil _ fun e => hempty (List.isEmpty_iff.2 e)) fun m hm => ?_
      obtain ⟨view, hview, hm⟩ := List.mem_filterMap.1 (SortedSet.mem_ofList.1 hm)
      exact exists_child_of_view hview (.inr hm)
  · exact hprops

/-- Object types are unified to a map, to an object type where one of them is, or to a class where
    all of them are; that one is fixed if all of them are. -/
theorem unifyObjects_cases (g : Graph) (rs : List NodeId) :
    (∃ values, (g.unifyObjects rs).1.kind = .map values) ∨
    (∃ ps a, (g.unifyObjects rs).1.kind = .object ps a ∧
      ∃ r ∈ rs, ∃ qs b, g.kind r = .object qs b) ∨
    (∃ ps, (g.unifyObjects rs).1.kind = .record ps) ∧
      (g.unifyObjects rs).1.fixed = (rs.all fun r => (g.node r).fixed) ∧
      ∀ r ∈ rs, (g.kind r).isObjectLike = true → ∃ qs, g.kind r = .record qs := by
  unfold unifyObjects
  extract_lets kinds attributes hasObject hasMap views fixed additional
  split
  · exact .inl ⟨_, rfl⟩
  next hmap =>
  generalize uniteProperties views (ObjectView.names views) ∅ g = u
  obtain ⟨ps, g₁⟩ := u
  dsimp only
  split
  · next hobject =>
    obtain ⟨k, hk, hobject⟩ := List.any_eq_true.1 hobject
    obtain ⟨r, hr, rfl⟩ := List.mem_map.1 hk
    have hr : ∃ r ∈ rs, ∃ qs b, g.kind r = .object qs b := by
      split at hobject
      · next qs b heq => exact ⟨r, hr, qs, b, heq⟩
      · cases hobject
    split
    · exact .inr (.inl ⟨_, _, rfl, hr⟩)
    · exact .inr (.inl ⟨_, _, rfl, hr⟩)
  · next hobject =>
    -- neither an object nor a map is left among the kinds
    have hno : hasMap = false := by simpa [hobject] using hmap
    have hobject : hasObject = false := by simpa using hobject
    rw [List.any_eq_false] at hno hobject
    refine .inr (.inr ⟨⟨_, rfl⟩, rfl, fun r hr hlike => ?_⟩)
    have hmem : g.kind r ∈ kinds := List.mem_map_of_mem hr
    cases hk : g.kind r with
    | record qs => exact ⟨qs, rfl⟩
    | object qs a => exact absurd rfl (hobject _ (hk ▸ hmem))
    | map values => exact absurd rfl (hno _ (hk ▸ hmem))
    | _ => rw [hk] at hlike; cases hlike

/-- A map of all value types admits what the maps and classes do. -/
theorem unified_map {rs : List NodeId} (hg : g.WellFormed)
    (hmap : (rs.map g.kind).any (fun k => match k with | .map _ => true | _ => false) = true)
    (hobj : (rs.map g.kind).any (fun k => match k with | .object _ _ => true | _ => false) = false)
    (a : Attributes) :
    Unified rs g (.new (.map (g.unionOf (valueTypes (rs.map g.kind))).1) a)
      (g.unionOf (valueTypes (rs.map g.kind))).2 := by
  have hlt : ∀ t ∈ valueTypes (rs.map g.kind), t < g.size := fun t ht => by
    obtain ⟨r, -, hr⟩ := exists_child_of_mem_valueTypes ht
    exact hg.lt_of_mem_children hr
  have hsome := exists_mem_valueTypes hmap
  refine ⟨grows_unionOf hlt, rfl, fun c hc => ?_, fun r => isUnion_unionOf hsome,
    fun ρ h hρ hh r hr hk v hv => ?_⟩
  · obtain rfl : c = _ := by simpa [Node.new, Kind.children] using hc
    exact unionOf_lt hlt
  · have hmem := List.mem_map_of_mem (f := g.kind) hr
    generalize g.kind r = k at hk hv hmem
    cases k with
    | object ps additional =>
      rw [List.any_eq_false] at hobj
      exact absurd rfl (hobj _ hmem)
    | record ps =>
      obtain ⟨fields, rfl, hv⟩ := hv
      refine ⟨fields, rfl, fun e he => ?_⟩
      have he' := hv.2 e he
      split at he'
      · next p hp =>
        exact admits_unionOf hh (mem_valueTypes.2 (.inr ⟨ps, hmem, Properties.mem_types hp⟩)) he'
      · rw [hρ] at he'
        cases he'
    | map values =>
      obtain ⟨fields, rfl, hv⟩ := hv
      exact ⟨fields, rfl, fun e he =>
        admits_unionOf hh (mem_valueTypes.2 (.inl hmem)) (hv e he)⟩
    | _ => cases hk

section

variable {views : List ObjectView} {rs : List NodeId} {ps : Properties} {g₁ : Graph} {n : Node}
  (H : United views (ObjectView.names views) ∅ g ps g₁)
  (hmem : ∀ r ∈ rs, ∀ view, (g.kind r).objectView? = some view → view ∈ views)

include H hmem

/-- United properties admit what a type does, if what its view admits of others is admitted. -/
theorem United.exists_view (hρ : ρ.openClasses = false) (hh : h.Agrees g g₁) {r : NodeId}
    (hr : r ∈ rs) (hk : (g.kind r).isObjectLike = true) {v : Json}
    (hv : (g.kind r).Admits ρ (h.Admits ρ) v) :
    ∃ view ∈ views, ∃ fields, v = .object fields ∧
      ∀ P : Json → Prop, (∀ r ∈ view.additional, ∀ w, h.Admits ρ r w → P w) →
        ps.Admit (h.Admits ρ) P fields := by
  obtain ⟨view, hview⟩ := Kind.isObjectLike_iff.1 hk
  obtain ⟨fields, rfl, hfields⟩ := (Kind.admits_iff_view hρ hview).1 hv
  have hview := hmem r hr view hview
  exact ⟨view, hview, fields, rfl, fun P hP => H.admit hh hview hfields hP⟩

/-- Where no view has additional properties, the united properties are enough. -/
theorem unified_of_united (hno : ∀ view ∈ views, view.additional = none)
    (hn : n.kind = .object ps none ∨ n.kind = .record ps) : Unified rs g n g₁ where
  grows := H.grows
  isObjectLike := by rcases hn with hn | hn <;> rw [hn] <;> rfl
  lt_size c hc := by
    refine H.lt_of_mem_types c ?_
    rcases hn with hn | hn <;> rw [hn] at hc
    · simpa [Kind.children] using hc
    · exact hc
  isUnion := H.isUnion fun _ => id
  admits ρ h hρ hh r hr hk v hv := by
    obtain ⟨view, hview, fields, rfl, hP⟩ := H.exists_view hmem hρ hh hr hk hv
    have hP : ∀ P : Json → Prop, ps.Admit (h.Admits ρ) P fields := fun P => hP P fun r hr => by
      rw [hno view hview] at hr
      cases hr
    rcases hn with hn | hn <;> rw [hn]
    · exact ⟨fields, rfl, hP _⟩
    · exact ⟨fields, rfl, hP _⟩

/-- Where some views have additional properties, those of a union of their types are added. -/
theorem unified_additional {additional : SortedSet NodeId} (hne : ∃ m, m ∈ additional)
    (hadditional : ∀ m, m ∈ additional ↔ ∃ view ∈ views, m ∈ view.additional)
    (hviews : g.ViewsBounded views)
    (hn : n.kind = .object ps (some (g₁.unionOf additional).1)) :
    Unified rs g n (g₁.unionOf additional).2 := by
  have hlt : ∀ m ∈ additional, m < g₁.size := fun m hm => by
    obtain ⟨view, hview, hm⟩ := (hadditional m).1 hm
    exact Nat.lt_of_lt_of_le ((hviews view hview).2 m hm) H.grows.size_le
  have hgrows := grows_unionOf hlt
  refine ⟨H.grows.trans hgrows, by rw [hn]; rfl, fun c hc => ?_, fun r hr hlt => ?_,
    fun ρ h hρ hh r hr hk v hv => ?_⟩
  · rw [hn] at hc
    rcases List.mem_append.1 hc with hc | hc
    · exact Nat.lt_of_lt_of_le (H.lt_of_mem_types c hc) hgrows.size_le
    · rw [Option.toList_some, List.mem_singleton] at hc
      exact hc ▸ unionOf_lt hlt
  · by_cases hr₁ : r < g₁.size
    · rw [hgrows.kind_eq r hr₁]
      exact H.isUnion (fun _ => id) r hr hr₁
    · exact isUnion_unionOf hne (Nat.not_lt.1 hr₁) hlt
  · obtain ⟨view, hview, fields, rfl, hP⟩ := H.exists_view hmem hρ (hh.left hgrows) hr hk hv
    rw [hn]
    refine ⟨fields, rfl, hP _ fun m hm w hw => ⟨_, rfl, ?_⟩⟩
    exact admits_unionOf (hh.right H.grows) ((hadditional m).2 ⟨view, hview, hm⟩) hw

end

/-- **The unified object type admits what any of the types does.** -/
theorem unified_unifyObjects (hg : g.WellFormed) (rs : List NodeId) :
    Unified rs g (g.unifyObjects rs).1 (g.unifyObjects rs).2 := by
  have hmem : ∀ r ∈ rs, ∀ view, (g.kind r).objectView? = some view →
      view ∈ (rs.map g.kind).filterMap Kind.objectView? := fun r hr view hview =>
    List.mem_filterMap.2 ⟨_, List.mem_map_of_mem hr, hview⟩
  have hviews := viewsBounded_of_wellFormed hg rs
  unfold unifyObjects
  extract_lets kinds attributes hasObject hasMap views fixed additional
  have hadditional : ∀ m, m ∈ additional ↔ ∃ view ∈ views, m ∈ view.additional := fun m =>
    SortedSet.mem_ofList.trans List.mem_filterMap
  split
  · next hmap =>
    rw [Bool.and_eq_true, Bool.not_eq_true'] at hmap
    exact unified_map hg hmap.1 hmap.2 attributes
  next hmap =>
  have H := united_uniteProperties (ObjectView.names views) ∅ g hviews
  generalize uniteProperties views (ObjectView.names views) ∅ g = u at H ⊢
  obtain ⟨ps, g₁⟩ := u
  dsimp only at H ⊢
  split
  · split
    · next hempty =>
      refine unified_of_united H hmem (fun view hview => ?_) (.inl rfl)
      refine Option.eq_none_iff_forall_ne_some.2 fun m hm => ?_
      have hm := SortedSet.mem_toList.2 ((hadditional m).2 ⟨view, hview, hm⟩)
      rw [List.isEmpty_iff.1 hempty] at hm
      cases hm
    · next hempty =>
      exact unified_additional H hmem
        (List.exists_mem_of_ne_nil _ fun e => hempty (List.isEmpty_iff.2 e)) hadditional hviews rfl
  · next hobj =>
    refine unified_of_united H hmem (fun view hview => ?_) (.inr rfl)
    -- there is no map and no object: all views are those of classes
    obtain ⟨k, hk, hview⟩ := List.mem_filterMap.1 hview
    have hno : hasMap = false := by simpa [hobj] using hmap
    have hobj : hasObject = false := by simpa using hobj
    rw [List.any_eq_false] at hno hobj
    cases k with
    | record ps => cases hview; rfl
    | object ps additional => exact absurd rfl (hobj _ hk)
    | map values => exact absurd rfl (hno _ hk)
    | _ => cases hview

end Graph

end SchemaTypes
