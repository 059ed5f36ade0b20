/-
  Required properties that may be null.

  * `Nullables.Sound`: what holds of a graph while its optional properties are replaced: it is
    well-formed, its unions are flat, and its kinds stay inside a class (`Nullable`);
  * `nullable_spec`: a nullable type is that of a new flat union, or one there was;
  * `optionalToNullable_spec`: so the pass keeps all this, and leaves no optional property.
-/
import SchemaTypes.Graph.Nullable
import SchemaTypes.Proofs.Flatness

namespace SchemaTypes

namespace Kind

/-- The named properties of classes and object types. -/
def properties : Kind → Properties
  | object ps _ | record ps => ps
  | _ => ∅

/-- No named property may be absent. -/
def RequiresAll (k : Kind) : Prop :=
  ∀ name p, k.properties.get? name = some p → p.optional = false

theorem eq_null_of_category {k : Kind} (h : k.category? = some .null) : k = .null := by
  cases k <;> first | rfl | cases h

/-- A class of kinds without empty types and intersections that has those of nullable types. -/
structure Nullable (K : Kind → Prop) : Prop where
  null : K .null
  union : ∀ ms, K (.union ms)
  record : ∀ ps, K (.record ps)
  object : ∀ {ps a}, K (.object ps a) → ∀ qs, K (.object qs a)
  ne_nothing : ∀ k, K k → k ≠ .nothing
  not_isIntersection : ∀ k, K k → k.isIntersection = false

end Kind

namespace Graph

open Kind

variable {g g' : Graph} {conflate : Bool} {ms : SortedSet NodeId} {K : Kind → Prop}

/-! ## Flat graphs that grow -/

theorem Flat.push (hg : g.Flat conflate) {n : Node} (hgrows : g.Grows (g.push n))
    (hn : ∀ ms, n.kind = .union ms → (g.push n).FlatMembers conflate ms) :
    (g.push n).Flat conflate := by
  intro r ms hr
  rw [kind_push] at hr
  split at hr
  · exact hn ms hr
  · exact (hg r ms hr).grow hgrows

/-- A node may get a kind of its category. -/
theorem Flat.setKind (hg : g.Flat conflate) {r : NodeId} {k : Kind} (hk : k.isUnion = false)
    (hc : (g.kind r).category? = k.category?) : (g.setKind r k).Flat conflate := by
  have hcat : ∀ m, ((g.setKind r k).kind m).category? = (g.kind m).category? := by
    intro m
    rcases kind_modify_cases g r m (f := ({ · with kind := k })) fun _ => rfl with hm | ⟨rfl, hm⟩
    · exact congrArg Kind.category? hm
    · exact (congrArg Kind.category? hm).trans hc.symm
  intro s ms hs
  rcases kind_modify_cases g r s (f := ({ · with kind := k })) fun _ => rfl with hm | ⟨-, hm⟩
  · exact (hg s ms (hm.symm.trans hs)).congr fun m _ => hcat m
  · rw [hm.symm.trans hs] at hk
    cases hk

/-- Null joins members of other categories. -/
theorem flatMembers_insert {x : NodeId} (hx : g.kind x = .null) (hne : ∃ m, m ∈ ms)
    (hcat : ∀ m ∈ ms, ∃ c, (g.kind m).category? = some c ∧ c ≠ .null)
    (heq : ∀ m ∈ ms, ∀ n ∈ ms, (g.kind m).category? = (g.kind n).category? → m = n)
    (hnum : conflate = true → ∀ m ∈ ms, ∀ n ∈ ms,
      (g.kind m).category? = some .integer → (g.kind n).category? ≠ some .double) :
    g.FlatMembers conflate (ms.insert x) := by
  have hxc : (g.kind x).category? = some .null := congrArg Kind.category? hx
  have hnot : ∀ m ∈ ms, (g.kind m).category? ≠ some .null := fun m hm h => by
    obtain ⟨c, hc, hcn⟩ := hcat m hm
    exact hcn (Option.some.inj (hc.symm.trans h))
  constructor
  · obtain ⟨m, hm⟩ := hne
    refine ⟨x, SortedSet.mem_insert.2 (.inl rfl), m, SortedSet.mem_insert.2 (.inr hm), ?_⟩
    rintro rfl
    exact hnot x hm hxc
  · intro m hm
    rcases SortedSet.mem_insert.1 hm with rfl | hm
    · exact ⟨_, hxc⟩
    · obtain ⟨c, hc, -⟩ := hcat m hm
      exact ⟨c, hc⟩
  · intro m hm n hn h
    rcases SortedSet.mem_insert.1 hm with hmx | hm <;>
      rcases SortedSet.mem_insert.1 hn with hnx | hn
    · rw [hmx, hnx]
    · exact absurd (h.symm.trans (hmx ▸ hxc)) (hnot n hn)
    · exact absurd (h.trans (hnx ▸ hxc)) (hnot m hm)
    · exact heq m hm n hn h
  · intro hconf m hm n hn hi hd
    rcases SortedSet.mem_insert.1 hm with rfl | hm
    · cases hxc.symm.trans hi
    rcases SortedSet.mem_insert.1 hn with rfl | hn
    · cases hxc.symm.trans hd
    exact hnum hconf m hm n hn hi hd

/-- Whether null is among the members does not change when a flat graph grows. -/
theorem Flat.isNullable_of_grows (hg : g.Flat conflate) (h : g.Grows g') {r : NodeId}
    (hr : r < g.size) (hnull : g'.isNullable r = true) : g.isNullable r = true := by
  rw [isNullable, h.kind_eq r hr] at hnull
  rw [isNullable]
  split at hnull
  · rfl
  · rfl
  · next ms hms =>
    obtain ⟨m, hm, hk⟩ := List.any_eq_true.1 hnull
    obtain ⟨c, hc⟩ := (hg r ms hms).categorized m hm
    rw [h.kind_eq m (lt_size_of_category hc)] at hk
    exact List.any_eq_true.2 ⟨m, hm, hk⟩
  · exact hnull

/-- Null joins a type that does not admit it, or the members of it. -/
theorem Flat.flatMembers_nullable (hg : g.Flat conflate) {r : NodeId}
    (hnothing : g.kind r ≠ .nothing) (hinter : (g.kind r).isIntersection = false)
    (hnot : g.isNullable r ≠ true) {x : NodeId} (hx : g.kind x = .null) :
    g.FlatMembers conflate
      (SortedSet.insert (match g.kind r with | .union ms => ms | _ => .singleton r) x) := by
  rw [isNullable] at hnot
  split
  · next ms hms =>
    have hflat := hg r ms hms
    rw [hms] at hnot
    refine flatMembers_insert hx ?_ (fun m hm => ?_) hflat.eq_of_category hflat.numbers
    · obtain ⟨m, hm, -⟩ := hflat.exists_ne
      exact ⟨m, hm⟩
    · obtain ⟨c, hc⟩ := hflat.categorized m hm
      refine ⟨c, hc, ?_⟩
      rintro rfl
      exact hnot (List.any_eq_true.2 ⟨m, hm, decide_eq_true (Kind.eq_null_of_category hc)⟩)
  · next hne =>
    obtain ⟨c, hc, hcn⟩ : ∃ c, (g.kind r).category? = some c ∧ c ≠ .null := by
      generalize g.kind r = k at hne hnothing hinter hnot
      cases k with
      | union ms => exact absurd rfl (hne ms)
      | intersection ms => cases hinter
      | nothing => exact absurd rfl hnothing
      | any => exact absurd rfl hnot
      | null => exact absurd rfl hnot
      | _ => exact ⟨_, rfl, Category.noConfusion⟩
    refine flatMembers_insert hx ⟨r, SortedSet.mem_singleton.2 rfl⟩ (fun m hm => ?_)
      (fun m hm n hn _ => ?_) fun _ m hm n hn hi hd => ?_
    · exact ⟨c, SortedSet.mem_singleton.1 hm ▸ hc, hcn⟩
    · exact (SortedSet.mem_singleton.1 hm).trans (SortedSet.mem_singleton.1 hn).symm
    · rw [SortedSet.mem_singleton.1 hm] at hi
      rw [SortedSet.mem_singleton.1 hn] at hd
      cases hi.symm.trans hd

namespace Nullables

/-- A partly changed graph is well-formed and flat and has kinds of a class; the nodes that
    were made are places in it. -/
structure Sound (conflate : Bool) (K : Kind → Prop) (s : Nullables) : Prop where
  wellFormed : s.graph.WellFormed
  flat : s.graph.Flat conflate
  every : s.graph.Every K
  null : ∀ r, s.null = some r → s.graph.kind r = .null
  made : ∀ r n, s.made.get? r = some n → n < s.graph.size

/-- The nodes that the pass adds. -/
abbrev Adds (g g' : Graph) : Prop := Added (fun k => k = .null ∨ k.isUnion = true) g g'

variable {s : Nullables} {r : NodeId}

/-- New nodes come, with flat unions. -/
theorem Sound.push (hK : Nullable K) (h : Sound conflate K s) {n : Node}
    (hn : n.kind = .null ∨ n.kind.isUnion = true)
    (hc : ∀ c ∈ n.kind.children, c < s.graph.size)
    (hflat : ∀ ms, n.kind = .union ms → (s.graph.push n).FlatMembers conflate ms) :
    Sound conflate K { s with graph := s.graph.push n } ∧ Adds s.graph (s.graph.push n) := by
  have hadds : Adds s.graph (s.graph.push n) := Added.push hn hc
  have hkind : K n.kind := by
    rcases hn with hn | hn
    · exact hn ▸ hK.null
    · rw [Kind.eq_union_of_isUnion hn]
      exact hK.union _
  refine ⟨⟨hadds.wellFormed h.wellFormed, h.flat.push hadds.toGrows hflat, h.every.push hkind,
    fun r hr => ?_, fun r n hn => ?_⟩, hadds⟩
  · have hk := h.null r hr
    exact (hadds.kind_eq r (lt_size_of_kind_ne (by simp [hk]))).trans hk
  · exact Nat.lt_of_lt_of_le (h.made r n hn) hadds.size_le

theorem nullNode_spec (hK : Nullable K) (h : Sound conflate K s) :
    Sound conflate K s.nullNode.2 ∧ Adds s.graph s.nullNode.2.graph ∧
      s.nullNode.2.graph.kind s.nullNode.1 = .null := by
  unfold nullNode
  split
  · next r hr => exact ⟨h, .refl _, h.null r hr⟩
  · obtain ⟨hs, hadds⟩ := h.push hK (n := .new .null) (.inl rfl)
      (fun _ hc => absurd hc List.not_mem_nil) fun _ hms => by cases hms
    have hkind : (s.graph.push (.new .null)).kind s.graph.size = .null := by
      rw [kind_push, if_pos rfl]
      rfl
    refine ⟨⟨hs.wellFormed, hs.flat, hs.every, fun r hr => ?_, hs.made⟩, hadds, hkind⟩
    cases hr
    exact hkind

/-- **A nullable type is that of a flat union, or one there was.** -/
theorem nullable_spec (hK : Nullable K) (h : Sound conflate K s) (hr : r < s.graph.size) :
    Sound conflate K (s.nullable r).2 ∧ Adds s.graph (s.nullable r).2.graph ∧
      (s.nullable r).1 < (s.nullable r).2.graph.size := by
  unfold nullable
  split
  · exact ⟨h, .refl _, hr⟩
  next hnot =>
  split
  · next n hn => exact ⟨h, .refl _, h.made r n hn⟩
  obtain ⟨hs₁, hadds₁, hnull⟩ := nullNode_spec hK h
  generalize s.nullNode = p at hs₁ hadds₁ hnull ⊢
  obtain ⟨null, s₁⟩ := p
  dsimp -zeta only at hs₁ hadds₁ hnull ⊢
  extract_lets members n
  have hk : K (s₁.graph.kind r) := (hadds₁.kind_eq r hr).symm ▸ h.every r hr
  have hflat : s₁.graph.FlatMembers conflate (members.insert null) :=
    hs₁.flat.flatMembers_nullable (hK.ne_nothing _ hk) (hK.not_isIntersection _ hk)
      (fun hnull => hnot (h.flat.isNullable_of_grows hadds₁.toGrows hr hnull)) hnull
  have hlt : ∀ c ∈ members.insert null, c < s₁.graph.size := fun c hc => by
    obtain ⟨d, hd⟩ := hflat.categorized c hc
    exact lt_size_of_category hd
  obtain ⟨hs₂, hadds₂⟩ := hs₁.push hK (n := .new (.union (members.insert null))) (.inr rfl) hlt
    fun ms hms => by
      cases hms
      exact hflat.grow (grows_push fun c hc => Nat.lt_succ_of_lt (hlt c hc))
  refine ⟨⟨hs₂.wellFormed, hs₂.flat, hs₂.every, hs₂.null, fun x n hn => ?_⟩,
    hadds₁.trans hadds₂, ?_⟩
  · replace hn := (OrderedMap.get?_insert ..).symm.trans hn
    split at hn
    · cases hn
      simp [n]
    · exact hs₂.made x _ hn
  · simp [n]

/-! ## All properties of a node -/

/-- No property may be absent, and all are of types in the graph. -/
def Required (s : Nullables) (ps : Properties) : Prop :=
  ∀ name p, ps.get? name = some p → p.optional = false ∧ p.type < s.graph.size

theorem Required.insert {ps : Properties} (h : s.Required ps) {name : String} {t : NodeId}
    (ht : t < s.graph.size) : s.Required (ps.insert name ⟨t, false⟩) := by
  intro name' p hp
  replace hp := (OrderedMap.get?_insert ..).symm.trans hp
  split at hp
  · cases hp
    exact ⟨rfl, ht⟩
  · exact h name' p hp

theorem Required.mono {ps : Properties} (h : s.Required ps) {s' : Nullables}
    (hle : s.graph.size ≤ s'.graph.size) : s'.Required ps := fun name p hp =>
  ⟨(h name p hp).1, Nat.lt_of_lt_of_le (h name p hp).2 hle⟩

theorem Required.lt_of_mem_types {ps : Properties} (h : s.Required ps) {c : NodeId}
    (hc : c ∈ ps.types) : c < s.graph.size := by
  obtain ⟨name, p, hp, rfl⟩ := Properties.exists_of_mem_types hc
  exact (h name p hp).2

theorem requireAll_spec (hK : Nullable K) (rest : List (String × Property)) {done : Properties}
    (h : Sound conflate K s) (hdone : s.Required done)
    (hrest : ∀ e ∈ rest, e.2.type < s.graph.size) :
    Sound conflate K (requireAll done rest s).2 ∧
      Adds s.graph (requireAll done rest s).2.graph ∧
      (requireAll done rest s).2.Required (requireAll done rest s).1 := by
  induction rest generalizing done s with
  | nil => exact ⟨h, .refl _, hdone⟩
  | cons e rest ih =>
    have he := hrest e List.mem_cons_self
    replace hrest : ∀ e ∈ rest, e.2.type < s.graph.size := fun e' h' =>
      hrest e' (List.mem_cons_of_mem e h')
    obtain ⟨name, type, optional⟩ := e
    cases optional with
    | false => exact ih h (hdone.insert he) hrest
    | true =>
      obtain ⟨hs, hadds, hlt⟩ := nullable_spec hK h he
      obtain ⟨hs', hadds', hps⟩ := ih hs ((hdone.mono hadds.size_le).insert hlt)
        fun e' h' => Nat.lt_of_lt_of_le (hrest e' h') hadds.size_le
      exact ⟨hs', hadds.trans hadds', hps⟩

/-! ## One node after the other -/

/-- A class or object type gets other properties. -/
theorem Sound.setKind (h : Sound conflate K s) {k : Kind} (hk : K k)
    (hobj : k.category? = some .object) (hr : (s.graph.kind r).category? = some .object)
    (hc : ∀ c ∈ k.children, c < s.graph.size) :
    Sound conflate K { s with graph := s.graph.setKind r k } where
  wellFormed := h.wellFormed.modify fun _ => hc
  flat := by
    refine h.flat.setKind ?_ (hr.trans hobj.symm)
    cases k <;> first | rfl | cases hobj
  every := h.every.setKind hk
  null x hx := by
    rcases kind_modify_cases s.graph r x (f := ({ · with kind := k })) fun _ => rfl with
      hx' | ⟨rfl, -⟩
    · exact hx'.trans (h.null x hx)
    · rw [h.null r hx] at hr
      cases hr
  made x n hn := by
    rw [Graph.setKind, size_modify]
    exact h.made x n hn

/-- Null and unions have no properties that may be absent. -/
theorem requiresAll_of_adds {k : Kind} (hk : k = .null ∨ k.isUnion = true) : k.RequiresAll := by
  rcases hk with rfl | hk
  · exact fun _ _ hp => by cases hp
  · rw [Kind.eq_union_of_isUnion hk]
    exact fun _ _ hp => by cases hp

/-- The properties of an object type or a class `k ps` become required ones. -/
theorem Sound.require (hK : Nullable K) (h : Sound conflate K s) {ps : Properties}
    {k : Properties → Kind} (hr : s.graph.kind r = k ps) (hk : ∀ qs, K (k qs))
    (hobj : ∀ qs, (k qs).category? = some .object) (hprops : ∀ qs, (k qs).properties = qs)
    (hchildren : ∀ qs, ∀ c ∈ (k qs).children, c ∈ qs.types ∨ c ∈ (k ps).children)
    (htypes : ∀ c ∈ ps.types, c ∈ (k ps).children) {rs : List NodeId}
    (hrest : s.graph.EveryBut RequiresAll (r :: rs)) {qs : Properties} {s' : Nullables}
    (heq : requireAll ∅ ps.entries s = (qs, s')) :
    Sound conflate K { s' with graph := s'.graph.setKind r (k qs) } ∧
      s'.graph.topLevels = s.graph.topLevels ∧
      (s'.graph.setKind r (k qs)).EveryBut RequiresAll rs := by
  have hlt : ∀ c ∈ (k ps).children, c < s.graph.size := fun c hc =>
    h.wellFormed.lt_of_mem_children (r := r) (hr ▸ hc)
  have hempty : s.Required ∅ := fun _ _ hp => by cases hp
  obtain ⟨hs, hadds, hreq⟩ := requireAll_spec hK ps.entries h hempty fun e he =>
    hlt _ (htypes _ (Properties.mem_types (OrderedMap.get?_eq_some_iff.2 he)))
  rw [heq] at hs hadds hreq
  refine ⟨hs.setKind (hk qs) (hobj qs) ?_ fun c hc => ?_, hadds.topLevels_eq,
    (hrest.added hadds fun _ => requiresAll_of_adds).modify fun _ name p hp => ?_⟩
  · rw [hadds.kind_eq r (lt_size_of_category (hr ▸ hobj ps)), hr, hobj ps]
  · rcases hchildren qs c hc with hc | hc
    · exact hreq.lt_of_mem_types hc
    · exact Nat.lt_of_lt_of_le (hlt c hc) hadds.size_le
  · exact (hreq name p ((hprops qs).symm ▸ hp)).1

/-- What a step leads to: no property of the node may be absent. -/
theorem step_spec (hK : Nullable K) (h : Sound conflate K s) (r : NodeId) {rs : List NodeId}
    (hrest : s.graph.EveryBut RequiresAll (r :: rs)) :
    Sound conflate K (s.step r) ∧ (s.step r).graph.topLevels = s.graph.topLevels ∧
      (s.step r).graph.EveryBut RequiresAll rs := by
  unfold step
  split
  · next ps hps =>
    exact h.require hK (k := .record) hps hK.record (fun _ => rfl) (fun _ => rfl)
      (fun _ _ => .inl) (fun _ => id) hrest rfl
  · next ps additional hps =>
    have hkr : K (.object ps additional) := hps ▸ h.every r (lt_size_of_isObjectLike (hps ▸ rfl))
    exact h.require hK (k := (.object · additional)) hps (hK.object hkr) (fun _ => rfl)
      (fun _ => rfl) (fun _ c hc => (List.mem_append.1 hc).imp_right (List.mem_append_right _))
      (fun _ => List.mem_append_left _) hrest rfl
  · next hrecord hobject =>
    refine ⟨h, rfl, hrest.skip fun name p hp => ?_⟩
    generalize s.graph.kind r = k at hrecord hobject hp
    cases k with
    | record ps => exact absurd rfl (hrecord ps)
    | object ps a => exact absurd rfl (hobject ps a)
    | _ => cases hp

theorem foldl_spec (hK : Nullable K) (rs : List NodeId) (h : Sound conflate K s)
    (hrest : s.graph.EveryBut RequiresAll rs) :
    Sound conflate K (rs.foldl step s) ∧ (rs.foldl step s).graph.topLevels = s.graph.topLevels ∧
      (rs.foldl step s).graph.Every RequiresAll := by
  induction rs generalizing s with
  | nil => exact ⟨h, rfl, fun r hr => (hrest r hr).resolve_left List.not_mem_nil⟩
  | cons r rs ih =>
    obtain ⟨hs, ht, hrs⟩ := step_spec hK h r hrest
    obtain ⟨hs', ht', hreq⟩ := ih hs hrs
    exact ⟨hs', ht'.trans ht, hreq⟩

end Nullables

/-- **Optional properties become required ones that may be null**; the graph stays well-formed,
    its unions flat and its kinds in the class, and its top levels stay. -/
theorem optionalToNullable_spec (hK : Nullable K) (hg : g.WellFormed) (hflat : g.Flat conflate)
    (h : g.Every K) :
    (g.optionalToNullable.WellFormed ∧ g.optionalToNullable.topLevels = g.topLevels) ∧
      g.optionalToNullable.Flat conflate ∧ g.optionalToNullable.Every K ∧
      g.optionalToNullable.Every RequiresAll := by
  have hstart : Nullables.Sound conflate K ⟨g, none, ∅⟩ :=
    ⟨hg, hflat, h, fun _ hr => (by cases hr), fun _ _ hn => by cases hn⟩
  obtain ⟨hs, ht, hreq⟩ := Nullables.foldl_spec hK g.ids hstart
    fun r hr => .inl (List.mem_range.2 hr)
  exact ⟨⟨hs.wellFormed, ht⟩, hs.flat, hs.every, hreq⟩

end Graph

end SchemaTypes
