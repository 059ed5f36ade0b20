/-
  What schemas ask for.

  A schema that says something of values itself asks for the types of its numbers and strings when
  its type is entered, and never again.  So the constraints on a shared node are those that the
  schemas with a type ask for, in the order in which they got it.

  * `Schema.asked`, `Conversion.requests`: what a schema asks for, and all that have a type;
  * `Builder.Tidy`: what is required of a builder that a conversion starts with;
  * `Accounted`, `Orderly`: shared nodes carry what was asked for, and the numbers and strings among
    the members of a type are those of its schema;
  * `Grown`: what stays as it is when a conversion goes on;
  * `Accounted.supply`, `Accounted.later`, `Accounted.enter`, `Accounted.pend`,
    `Accounted.settled`: what building, resolving, entering a type, and making one do.
-/
import SchemaTypes.Proofs.Constraints
import SchemaTypes.Proofs.Places
import SchemaTypes.Proofs.Conversion

namespace SchemaTypes

open SchemaTypes.Graph

namespace Kind

theorem isIntersection_of_isUnion {k : Kind} (h : k.isUnion = true) :
    k.isIntersection = false := by
  rw [eq_union_of_isUnion h]
  rfl

theorem isIntersection_of_isScalar {k : Kind} (h : k.isScalar = true) :
    k.isIntersection = false := by
  cases k with
  | intersection => cases h
  | _ => rfl

end Kind

/-! ## What a schema asks for -/

namespace Schema

/-- The kind of the strings that a schema describes. -/
def stringKind (s : Schema) : Kind :=
  match s.cases?, s.format? with
  | some cases, _ => .string (some cases)
  | none, some f => .formatted f
  | none, none => .string none

theorem isSimple_stringKind (s : Schema) : s.stringKind.isSimple = true := by
  unfold stringKind
  split <;> rfl

/-- The included types of no parts, other than strings, with constraints on numbers. -/
def plainTypes (included : List Primitive) (numbers : Attributes) : Requests :=
  let kinds : List (Primitive × Kind × Attributes) :=
    [(.null, .null, ∅), (.number, .double, numbers), (.integer, .integer, numbers),
      (.boolean, .bool, ∅)]
  (kinds.filter fun e => decide (e.1 ∈ included)).map Prod.snd

/-- The included types of no parts, with constraints on numbers and on strings. -/
def simpleTypes (s : Schema) (included : List Primitive) (numbers strings : Attributes) :
    Requests :=
  plainTypes included numbers ++ if .string ∈ included then [(s.stringKind, strings)] else []

/-- What a schema asks for: the simple types that it describes itself, with the constraints that
    the producers find. -/
def asked (producers : List Producer) (s : Schema) (place : Reference) : Requests :=
  match s.types? place with
  | .error _ => []
  | .ok allowed =>
    if s.constrainsValues then
      let included := s.included allowed
      let produced := Conversion.produce producers s place included none
      s.simpleTypes included (Conversion.partOf produced (·.forNumber)).constraints
        (Conversion.partOf produced (·.forString)).constraints
    else []

variable {s : Schema} {producers : List Producer} {place : Reference}
  {allowed : Option (List Primitive)}

theorem asked_of_constrainsValues (hallowed : s.types? place = .ok allowed)
    (h : s.constrainsValues = true) : asked producers s place =
      let produced := Conversion.produce producers s place (s.included allowed) none
      s.simpleTypes (s.included allowed) (Conversion.partOf produced (·.forNumber)).constraints
        (Conversion.partOf produced (·.forString)).constraints := by
  simp only [asked, hallowed, if_pos h]

theorem asked_of_not_constrainsValues (hallowed : s.types? place = .ok allowed)
    (h : ¬s.constrainsValues = true) : asked producers s place = [] := by
  simp only [asked, hallowed, if_neg h]

end Schema

/-! ## Types of schemas -/

/-- The node is of a kind that types of schemas are of: all values, or an intersection. -/
def Graph.Outer (g : Graph) (r : NodeId) : Prop :=
  r < g.size ∧ (g.kind r = .any ∨ (g.kind r).isIntersection = true)

namespace Graph.Outer

variable {g g' : Graph} {r : NodeId}

theorem mono (h : g.Outer r) (hg : g.Grows g') : g'.Outer r := by
  refine ⟨Nat.lt_of_lt_of_le h.1 hg.size_le, ?_⟩
  rw [hg.kind_eq r h.1]
  exact h.2

theorem isScalar_eq (h : g.Outer r) : (g.kind r).isScalar = false := by
  rcases h.2 with hk | hk
  · rw [hk]
    rfl
  · rw [Kind.eq_intersection_of_isIntersection hk]
    rfl

theorem unionMembers_eq (h : g.Outer r) : (g.kind r).unionMembers = [] := by
  rcases h.2 with hk | hk
  · rw [hk]
    rfl
  · rw [Kind.eq_intersection_of_isIntersection hk]
    rfl

end Graph.Outer

namespace Builder

variable {b b' : Builder} {asked asked' : Requests} {r : NodeId}

/-- Shared nodes are of their kinds, references are places of nodes, and there are no classes. -/
structure Tidy (b : Builder) : Prop where
  shares : b.Shares
  wellFormed : b.graph.WellFormed
  classless : ∀ r ps, b.graph.kind r ≠ .record ps

theorem tidy_new (allOptional : Bool) : (Builder.new allOptional).Tidy where
  shares _ _ h := by cases h
  wellFormed := ⟨fun _ h => absurd h (Array.not_mem_empty _), fun _ h => absurd h List.not_mem_nil⟩
  classless r ps := by
    rw [Graph.kind_eq_nothing_of_le (Nat.zero_le r)]
    simp

/-- The node was asked for. -/
def Answers (b : Builder) (asked : Requests) (r : NodeId) : Prop :=
  ∃ e ∈ asked, b.Provides e.1 e.2 r

theorem Answers.mono (h : b.Answers asked r) (hb : b.Extends b')
    (hasked : ∀ e ∈ asked, e ∈ asked') : b'.Answers asked' r := by
  obtain ⟨e, he, hr⟩ := h
  exact ⟨e, hasked e he, hr.mono hb⟩

/-- The numbers and strings among the members of a union were asked for. -/
def Founded (b : Builder) (asked : Requests) (r : NodeId) : Prop :=
  ∀ m ∈ (b.graph.kind r).unionMembers, (b.graph.kind m).isScalar = true → b.Answers asked m

theorem Founded.mono (h : b.Founded asked r) (hr : r < b.graph.size)
    (hm : ∀ m ∈ (b.graph.kind r).unionMembers, m < b.graph.size) (hb : b.Extends b') :
    b'.Founded asked r := by
  intro m hmem hk
  rw [hb.grows.kind_eq r hr] at hmem
  rw [hb.grows.kind_eq m (hm m hmem)] at hk
  exact (h m hmem hk).mono hb fun _ => id

end Builder

namespace Conversion

variable {producers : List Producer} {b₀ : Builder} {asked asked' : Requests}
  {st st' st'' : Conversion} {place : Reference} {r : NodeId} {α β : Type}

/-- What the schema of a canonical reference asks for. -/
def askedAt (producers : List Producer) (st : Conversion) (place : Reference) : Requests :=
  match st.resolver.schemaAt? place with
  | some (.object s) => Schema.asked producers s place
  | _ => []

/-- What the schemas ask for that have a type, in the order in which they got it. -/
def requests (producers : List Producer) (st : Conversion) : Requests :=
  st.types.keys.flatMap (askedAt producers st)

/-! ## States -/

/-- The graph is as it should be, the types of schemas are intersections or of all values, the
    constraints on shared nodes are those asked for since a start, and the numbers and strings
    among the members of types are asked for by their schemas. -/
structure Accounted (producers : List Producer) (b₀ : Builder) (asked : Requests) (st : Conversion) :
    Prop where
  shares : st.builder.Shares
  wellFormed : st.builder.graph.WellFormed
  classless : ∀ r ps, st.builder.graph.kind r ≠ .record ps
  outer : ∀ place r, st.types.get? place = some r → st.builder.graph.Outer r
  schemaAt : ∀ place r, st.types.get? place = some r → ∃ v, st.resolver.schemaAt? place = some v
  constraintsOf_eq : ∀ k, k.isScalar = true → k.isPrimitive = true →
    st.builder.constraintsOf k = asked.total k (b₀.constraintsOf k)
  founded : ∀ r, b₀.graph.size ≤ r → (st.builder.graph.kind r).intersectionMembers ≠ [] →
    ∃ place, st.types.get? place = some r ∧
      ∀ u ∈ (st.builder.graph.kind r).intersectionMembers,
        st.builder.Founded (st.askedAt producers place) u

/-- So it is with what the schemas ask for that have a type. -/
structure Orderly (producers : List Producer) (b₀ : Builder) (st : Conversion) : Prop extends
    Accounted producers b₀ (requests producers st) st

/-- Nodes and types of schemas are added, and documents become known. -/
structure Grown (st st' : Conversion) : Prop where
  builder : st.builder.Extends st'.builder
  get?_types : ∀ place r, st.types.get? place = some r → st'.types.get? place = some r
  resolver : st.resolver.Later st'.resolver

namespace Grown

theorem refl (st : Conversion) : Grown st st := ⟨.refl _, fun _ _ => id, .refl⟩

theorem trans (h : Grown st st') (h' : Grown st' st'') : Grown st st'' where
  builder := h.builder.trans h'.builder
  get?_types place r hr := h'.get?_types place r (h.get?_types place r hr)
  resolver := h.resolver.trans h'.resolver

instance : IsPreorder Conversion Grown where
  refl := .refl
  trans _ _ _ := .trans

theorem continues (h : Grown st st') : Continues st st' := ⟨h.builder.grows, h.get?_types⟩

end Grown

namespace Accounted

theorem members_lt (h : Accounted producers b₀ asked st) {u : NodeId} :
    ∀ m ∈ (st.builder.graph.kind u).unionMembers, m < st.builder.graph.size := fun _ hm =>
  h.wellFormed.lt_of_mem_children (Kind.mem_children_of_mem_unionMembers hm)

/-- What was asked for stays so if the node and its members do. -/
theorem founded_mono (h : Accounted producers b₀ asked st) {b : Builder}
    (hb : st.builder.Extends b)
    (hf : ∀ u ∈ (st.builder.graph.kind r).intersectionMembers, st.builder.Founded asked' u) :
    ∀ u ∈ (st.builder.graph.kind r).intersectionMembers, b.Founded asked' u := fun u hu =>
  (hf u hu).mono
    (h.wellFormed.lt_of_mem_children (Kind.mem_children_of_mem_intersectionMembers hu))
    h.members_lt hb

/-- Nodes are built. -/
theorem supply (h : Accounted producers b₀ asked st) {b : Builder}
    (hb : st.builder.Supplies asked' b) :
    Accounted producers b₀ (asked ++ asked') { st with builder := b } where
  shares := hb.shares
  wellFormed := hb.grows.wellFormed h.wellFormed
  classless r := by
    by_cases hr : r < st.builder.graph.size
    · rw [hb.grows.kind_eq r hr]
      exact h.classless r
    · exact hb.classless_new r (Nat.not_lt.1 hr)
  outer place r hr := (h.outer place r hr).mono hb.grows
  schemaAt := h.schemaAt
  constraintsOf_eq k hs hp := by
    rw [Requests.total_append, ← h.constraintsOf_eq k hs hp]
    exact hb.constraintsOf_eq k hs hp
  founded r hr hne := by
    have hlt : r < st.builder.graph.size := by
      obtain ⟨u, hu⟩ := List.exists_mem_of_ne_nil _ hne
      refine Nat.not_le.1 fun hge => ?_
      have hk := hb.isIntersection_new r hge
      rw [Kind.isIntersection_of_mem hu] at hk
      cases hk
    have hk : b.graph.kind r = st.builder.graph.kind r := hb.grows.kind_eq r hlt
    dsimp only at hne ⊢
    rw [hk] at hne ⊢
    obtain ⟨place, hplace, hf⟩ := h.founded r hr hne
    exact ⟨place, hplace, h.founded_mono hb.toExtends hf⟩

/-- Schemas that have a type stay where they are. -/
theorem askedAt_later (h : Accounted producers b₀ asked st) {resolver : Resolver}
    (hr : st.resolver.Later resolver) (hplace : st.types.get? place = some r) :
    askedAt producers { st with resolver } place = askedAt producers st place := by
  obtain ⟨v, hv⟩ := h.schemaAt place r hplace
  simp only [askedAt, hv, hr.schemaAt? hv]

theorem requests_later (h : Accounted producers b₀ asked st) {resolver : Resolver}
    (hr : st.resolver.Later resolver) :
    requests producers { st with resolver } = requests producers st := by
  refine congrArg List.flatten (List.map_congr_left fun place hplace => ?_)
  obtain ⟨r, hplace⟩ := OrderedMap.mem_keys_iff.1 hplace
  exact h.askedAt_later hr hplace

/-- Documents become known. -/
theorem later (h : Accounted producers b₀ asked st) {resolver : Resolver}
    (hr : st.resolver.Later resolver) :
    Accounted producers b₀ asked { st with resolver } :=
  { h with
    schemaAt := fun place r hplace => by
      obtain ⟨v, hv⟩ := h.schemaAt place r hplace
      exact ⟨v, hr.schemaAt? hv⟩
    founded := fun r hr' hne => by
      obtain ⟨place, hplace, hf⟩ := h.founded r hr' hne
      refine ⟨place, hplace, ?_⟩
      rw [h.askedAt_later hr hplace]
      exact hf }

/-- A schema gets a type. -/
theorem enter (h : Accounted producers b₀ asked st) (hnone : st.types.get? place = none)
    (hr : st.builder.graph.Outer r) {v : Json} (hv : st.resolver.schemaAt? place = some v) :
    Accounted producers b₀ asked { st with types := st.types.insert place r } where
  shares := h.shares
  wellFormed := h.wellFormed
  classless := h.classless
  outer p x hx := by
    replace hx := (OrderedMap.get?_insert ..).symm.trans hx
    split at hx
    · cases hx
      exact hr
    · exact h.outer p x hx
  schemaAt p x hx := by
    replace hx := (OrderedMap.get?_insert ..).symm.trans hx
    split at hx
    · next heq => exact ⟨v, heq ▸ hv⟩
    · exact h.schemaAt p x hx
  constraintsOf_eq := h.constraintsOf_eq
  founded x hx hne := by
    obtain ⟨p, hp, hf⟩ := h.founded x hx hne
    refine ⟨p, (OrderedMap.get?_insert ..).trans ?_, hf⟩
    rw [if_neg, hp]
    rintro rfl
    rw [hnone] at hp
    cases hp

/-- An intersection without members is made. -/
theorem pend (h : Accounted producers b₀ asked st) (a : Attributes) :
    Accounted producers b₀ asked { st with builder := (st.builder.newIntersection a).2 } := by
  have hchildren : ∀ c ∈ (Node.new (.intersection ∅) a).kind.children, c < st.builder.graph.size :=
    fun _ hc => absurd hc List.not_mem_nil
  have hextends : st.builder.Extends (st.builder.newIntersection a).2 :=
    Builder.extends_add h.shares hchildren
  have hnew : ∀ r, st.builder.graph.size ≤ r →
      (st.builder.newIntersection a).2.graph.kind r = .intersection ∅ ∨
        (st.builder.newIntersection a).2.graph.kind r = .nothing := by
    intro r hr
    rw [show (st.builder.newIntersection a).2.graph.kind r = _ from kind_push st.builder.graph _ r]
    split
    · exact .inl rfl
    · exact .inr (kind_eq_nothing_of_le hr)
  refine ⟨(Builder.shared_add h.shares hchildren).shares, hextends.grows.wellFormed h.wellFormed,
    fun r ps => ?_, fun p r hr => (h.outer p r hr).mono hextends.grows, h.schemaAt,
    fun k hs hp => (Builder.constraintsOf_add h.shares _ k).trans (h.constraintsOf_eq k hs hp),
    fun r hr hne => ?_⟩
  · by_cases hlt : r < st.builder.graph.size
    · rw [hextends.grows.kind_eq r hlt]
      exact h.classless r ps
    · rcases hnew r (Nat.not_lt.1 hlt) with hk | hk <;> simp [hk]
  · have hlt : r < st.builder.graph.size := by
      refine Nat.not_le.1 fun hge => hne ?_
      dsimp only
      rcases hnew r hge with hk | hk <;> rw [hk] <;> rfl
    have hk := hextends.grows.kind_eq r hlt
    dsimp only at hne ⊢
    rw [hk] at hne ⊢
    obtain ⟨place, hplace, hf⟩ := h.founded r hr hne
    exact ⟨place, hplace, h.founded_mono hextends hf⟩

end Accounted

theorem requests_enter (hnone : st.types.get? place = none) :
    requests producers { st with types := st.types.insert place r } =
      requests producers st ++ askedAt producers st place := by
  have hkeys : (st.types.insert place r).keys = st.types.keys ++ [place] := by
    rw [OrderedMap.keys_insert, if_neg]
    intro hmem
    obtain ⟨x, hx⟩ := OrderedMap.mem_keys_iff.1 hmem
    rw [hnone] at hx
    cases hx
  show (st.types.insert place r).keys.flatMap (askedAt producers st) = _
  rw [hkeys, List.flatMap_append, List.flatMap_singleton]
  rfl

theorem Grown.enter (hnone : st.types.get? place = none) :
    Grown st { st with types := st.types.insert place r } := by
  refine ⟨.refl _, fun p x hx => (OrderedMap.get?_insert ..).trans ?_, .refl⟩
  rw [if_neg, hx]
  rintro rfl
  rw [hnone] at hx
  cases hx

/-! ### Members -/

section

variable {members : List NodeId} {u : NodeId}

theorem attributes_setKind {g : Graph} (r : NodeId) (k : Kind) (x : NodeId) :
    (g.setKind r k).attributes x = g.attributes x := by
  by_cases hx : x < g.size
  · rw [attributes, setKind, node_modify g r x _ hx]
    split <;> rfl
  · have hx' : (g.setKind r k).size ≤ x := by
      rw [setKind, size_modify]
      exact Nat.not_lt.1 hx
    rw [attributes, attributes, node_eq_default_of_le hx', node_eq_default_of_le (Nat.not_lt.1 hx)]

theorem attributes_settled (hk : st.builder.graph.kind r = .intersection ∅) (x : NodeId) :
    (st.settled r members).builder.graph.attributes x = st.builder.graph.attributes x := by
  rw [builder_settled hk]
  exact attributes_setKind r _ x

theorem primitives_settled (hk : st.builder.graph.kind r = .intersection ∅) :
    (st.settled r members).builder.primitives = st.builder.primitives := by
  rw [builder_settled hk]

/-- What is no intersection keeps its kind. -/
theorem kind_settled_of_not {x : NodeId} (hk : st.builder.graph.kind r = .intersection ∅)
    (hx : ((st.settled r members).builder.graph.kind x).isIntersection = false) :
    (st.settled r members).builder.graph.kind x = st.builder.graph.kind x := by
  rw [kind_settled hk] at hx ⊢
  split at hx
  · cases hx
  · next hne => exact if_neg hne

theorem Grown.settled {st₁ : Conversion} (h : Grown st₁ st) (hr : st₁.builder.graph.size ≤ r)
    (hk : st.builder.graph.kind r = .intersection ∅)
    (hmembers : ∀ m ∈ members, m < st.builder.graph.size) : Grown st₁ (st.settled r members) where
  builder :=
    { grows := (continues_settled h.continues hr hk hmembers).grows
      shared := fun k x hx => by
        rw [primitives_settled hk]
        exact h.builder.shared k x hx
      listed := fun x hx cases hkx => by
        rw [attributes_settled hk]
        exact h.builder.listed x hx cases hkx }
  get?_types := h.get?_types
  resolver := h.resolver

theorem founded_settled (hk : st.builder.graph.kind r = .intersection ∅)
    (h : st.builder.Founded asked u) : (st.settled r members).builder.Founded asked u := by
  intro m hm hs
  rw [kind_settled_of_not hk (Kind.isIntersection_of_isUnion (Kind.isUnion_of_mem hm))] at hm
  have hkm := kind_settled_of_not hk (Kind.isIntersection_of_isScalar hs)
  rw [hkm] at hs
  obtain ⟨e, he, hp⟩ := h m hm hs
  exact ⟨e, he, (size_settled hk).symm ▸ hp.lt_size, hkm.trans hp.kind_eq,
    fun hprim => (primitives_settled hk).symm ▸ hp.shared hprim,
    fun cases hcases => (attributes_settled hk m).symm ▸ hp.listed cases hcases⟩

/-- The members of the type of a schema are set. -/
theorem Accounted.settled (h : Accounted producers b₀ asked st)
    (hk : st.builder.graph.kind r = .intersection ∅) (hplace : st.types.get? place = some r)
    (hmembers : ∀ u ∈ members, u < st.builder.graph.size)
    (hfounded : ∀ u ∈ members, st.builder.Founded (st.askedAt producers place) u) :
    Accounted producers b₀ asked (st.settled r members) where
  shares k x hx := by
    rw [primitives_settled hk] at hx
    obtain ⟨hprim, hlt, hkx⟩ := h.shares k x hx
    refine ⟨hprim, (size_settled hk).symm ▸ hlt, ?_⟩
    rw [kind_settled hk, if_neg, hkx]
    rintro rfl
    rw [← hkx, hk] at hprim
    cases hprim
  wellFormed := by
    rw [builder_settled hk]
    exact WellFormed.modify h.wellFormed fun _ c hc => hmembers c (SortedSet.mem_ofList.1 hc)
  classless x ps := by
    rw [kind_settled hk]
    split
    · simp
    · exact h.classless x ps
  outer p x hx := by
    obtain ⟨hlt, hkx⟩ := h.outer p x hx
    refine ⟨(size_settled hk).symm ▸ hlt, ?_⟩
    rw [kind_settled hk]
    split
    · exact .inr rfl
    · exact hkx
  schemaAt := h.schemaAt
  constraintsOf_eq k hs hp := by
    rw [← h.constraintsOf_eq k hs hp]
    exact Builder.constraintsOf_congr (primitives_settled hk) fun x _ =>
      congrArg Attributes.constraints (attributes_settled hk x)
  founded x hx hne := by
    rw [kind_settled hk] at hne ⊢
    split
    · next heq =>
      subst heq
      refine ⟨place, hplace, fun u hu => founded_settled hk (hfounded u ?_)⟩
      exact SortedSet.mem_ofList.1 hu
    · next hne' =>
      rw [if_neg hne'] at hne
      obtain ⟨p, hp, hf⟩ := h.founded x hx hne
      exact ⟨p, hp, fun u hu => founded_settled hk (hf u hu)⟩

end

end Conversion

end SchemaTypes
