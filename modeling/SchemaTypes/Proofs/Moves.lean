/-
  Conversion in steps.

  Whatever a conversion comes to, it only resolves references, builds nodes, and enters types for
  schemas that have none; the only intersections it makes are those that it enters.

  * `Builder.Develops`: nodes are built, but no intersections;
  * `Conversion.Move`, `Conversion.Later`: one such step, and what becomes of a conversion; the
    type that was entered for a schema never changes;
  * `Json.Below`, `Schema.below_of_get?`: what lies in a schema.
-/
import SchemaTypes.Proofs.Conversion
import SchemaTypes.Proofs.Retrieval

namespace SchemaTypes

open SchemaTypes.Graph

/-! ## Nodes that are no intersections -/

theorem Graph.kind_setKind {g : Graph} {r : NodeId} (hr : r < g.size) (k : Kind) (x : NodeId) :
    (g.setKind r k).kind x = if r = x then k else g.kind x := by
  split
  · next heq =>
    subst heq
    exact (kind_modify _ _ _ _ hr).trans (if_pos rfl)
  · next hne =>
    refine (kind_modify_cases g r x (k := k) fun _ => ?_).resolve_right fun h => hne h.1
    rfl

namespace Builder

variable {b b' b'' : Builder} {n : Node} {k : Kind} {r : NodeId}

/-- Nodes are added that are no intersections; those that were there stay, as far as intersections
    and shared nodes are concerned. -/
structure Develops (b b' : Builder) : Prop where
  size_le : b.graph.size ≤ b'.graph.size
  isIntersection_eq : ∀ r < b.graph.size,
    (b'.graph.kind r).isIntersection = (b.graph.kind r).isIntersection
  isIntersection_new : ∀ r, b.graph.size ≤ r → (b'.graph.kind r).isIntersection = false
  shares : b.Shares → b'.Shares

/-- Shared nodes stay shared if no primitive type changes. -/
theorem Shares.of_kinds (hb : b.Shares) (hp : b'.primitives = b.primitives)
    (hsize : b.graph.size ≤ b'.graph.size)
    (hkind : ∀ r < b.graph.size, (b.graph.kind r).isPrimitive = true →
      b'.graph.kind r = b.graph.kind r) : b'.Shares := by
  intro k r hr
  obtain ⟨hprim, hlt, hk⟩ := hb k r (hp ▸ hr)
  refine ⟨hprim, Nat.lt_of_lt_of_le hlt hsize, ?_⟩
  rw [hkind r hlt (by rw [hk, hprim]), hk]

/-- Nodes keep their kinds. -/
theorem develops_of_kinds (hp : b'.primitives = b.primitives)
    (hsize : b'.graph.size = b.graph.size) (hkind : ∀ r, b'.graph.kind r = b.graph.kind r) :
    b.Develops b' where
  size_le := Nat.le_of_eq hsize.symm
  isIntersection_eq r _ := by rw [hkind r]
  isIntersection_new r hr := by
    rw [hkind r, kind_eq_nothing_of_le hr]
    rfl
  shares hb := hb.of_kinds hp (Nat.le_of_eq hsize.symm) fun r _ _ => hkind r

theorem develops_add (hn : n.kind.isIntersection = false) : b.Develops (b.add n).2 := by
  have hkind : ∀ r, (b.add n).2.graph.kind r =
      if r = b.graph.size then n.kind else b.graph.kind r := kind_push b.graph n
  have hold : ∀ r < b.graph.size, (b.add n).2.graph.kind r = b.graph.kind r := by
    intro r hr
    rw [hkind r, if_neg (Nat.ne_of_lt hr)]
  have hsize : b.graph.size ≤ (b.add n).2.graph.size :=
    Nat.le_of_lt ((size_push b.graph n).symm ▸ Nat.lt_succ_self _)
  refine ⟨hsize, fun r hr => by rw [hold r hr], fun r hr => ?_, fun hb => ?_⟩
  · rw [hkind r]
    split
    · exact hn
    · rw [kind_eq_nothing_of_le hr]
      rfl
  · exact hb.of_kinds rfl hsize fun r hr _ => hold r hr

theorem develops_addAttributes (r : NodeId) (a : Attributes) :
    b.Develops (b.addAttributes r a) :=
  develops_of_kinds rfl (size_addAttributes ..) (kind_addAttributes b.graph r a)

theorem develops_primitive (hk : k.isIntersection = false) (a : Attributes) :
    b.Develops (b.primitive k a).2 := by
  have hadd : b.Develops (b.add (.new k a)).2 := develops_add (n := .new k a) hk
  unfold primitive
  split
  · next hprim =>
    split
    · exact develops_addAttributes ..
    · refine ⟨hadd.size_le, hadd.isIntersection_eq, hadd.isIntersection_new, fun hb k' r hr => ?_⟩
      replace hr : (b.primitives.insert k b.graph.size).get? k' = some r := hr
      rw [OrderedMap.get?_insert] at hr
      split at hr
      · next heq =>
        cases hr
        refine ⟨heq ▸ hprim, (size_push b.graph _).symm ▸ Nat.lt_succ_self _, ?_⟩
        exact (kind_push b.graph (.new k a) _).trans ((if_pos rfl).trans heq.symm)
      · exact hadd.shares hb k' r hr
  · exact hadd

theorem develops_setMembers (r : NodeId) (members : SortedSet NodeId) :
    b.Develops (b.setMembers r members) := by
  unfold setMembers
  split
  · next hr =>
    have hlt : r < b.graph.size := lt_size_of_isIntersection hr
    have hkind := kind_setKind hlt (.intersection members)
    have hsize : (b.graph.setKind r (.intersection members)).size = b.graph.size :=
      size_modify ..
    refine ⟨Nat.le_of_eq hsize.symm, fun x _ => ?_, fun x hx => ?_, fun hb => ?_⟩
    · show ((b.graph.setKind r (.intersection members)).kind x).isIntersection = _
      rw [hkind x]
      split
      · next heq =>
        rw [← heq, hr]
        rfl
      · rfl
    · show ((b.graph.setKind r (.intersection members)).kind x).isIntersection = _
      rw [hkind x, if_neg (Nat.ne_of_lt (Nat.lt_of_lt_of_le hlt hx)), kind_eq_nothing_of_le hx]
      rfl
    · refine hb.of_kinds rfl (Nat.le_of_eq hsize.symm) fun x _ hprim => ?_
      refine (hkind x).trans (if_neg ?_)
      rintro rfl
      rw [Kind.eq_intersection_of_isIntersection hr] at hprim
      cases hprim
  · exact develops_of_kinds rfl rfl fun _ => rfl

theorem develops_addTopLevel (name : String) (r : NodeId) :
    b.Develops (b.addTopLevel name r).2 := by
  have hkind : ∀ x, (b.graph.addTopLevel name r).2.kind x = b.graph.kind x := by
    intro x
    unfold Graph.addTopLevel
    split <;> rfl
  have hsize : (b.graph.addTopLevel name r).2.size = b.graph.size := by
    unfold Graph.addTopLevel
    split <;> rfl
  exact develops_of_kinds rfl hsize hkind

end Builder

/-- Entering what is there changes nothing. -/
theorem OrderedMap.insert_of_get? {κ ν : Type} [DecidableEq κ] {m : OrderedMap κ ν} {k : κ} {v : ν}
    (h : m.get? k = some v) : m.insert k v = m := by
  obtain ⟨entries, hnodup⟩ := m
  have hentries : ∀ l : List (κ × ν), l.lookup k = some v → insertEntry k v l = l := by
    intro l hl
    induction l with
    | nil => cases hl
    | cons e l ih =>
      obtain ⟨c, w⟩ := e
      rw [List.lookup_cons] at hl
      rw [insertEntry]
      by_cases hc : c = k
      · subst hc
        rw [beq_self_eq_true] at hl
        cases hl
        rw [if_pos rfl]
      · rw [beq_false_of_ne (Ne.symm hc)] at hl
        rw [if_neg hc, ih hl]
  simp only [insert, hentries entries h]

/-! ## What lies in a value -/

namespace Json

/-- A value is an item or a field of another. -/
inductive Child : Json → Json → Prop
  | item {items : List Json} {c : Json} (h : c ∈ items) : Child (array items) c
  | field {fields : Fields} {k : String} {c : Json} (h : (k, c) ∈ fields) : Child (object fields) c

/-- A value lies in another. -/
abbrev Below : Json → Json → Prop := Relation.TransGen Child

theorem Child.size_lt {v c : Json} (h : Child v c) : c.size < v.size := by
  cases h with
  | item h => exact size_lt_of_mem_items h
  | field h => exact size_lt_of_mem_fields h

theorem Below.size_lt {v c : Json} (h : Below v c) : c.size < v.size := by
  induction h with
  | single h => exact h.size_lt
  | tail _ h ih => exact Nat.lt_trans h.size_lt ih

theorem Below.of_lookup {fields : Fields} {k : String} {c : Json} (h : fields.lookup k = some c) :
    Below (object fields) c :=
  .single (.field (mem_of_lookup h))

theorem Below.item {v c : Json} {items : List Json} (h : Below v (array items)) (hc : c ∈ items) :
    Below v c :=
  h.tail (.item hc)

theorem Below.field {v : Json} {fields : Fields} {e : String × Json} (h : Below v (object fields))
    (he : e ∈ fields) : Below v e.2 :=
  h.tail (.field he)

end Json

namespace Schema

variable {s : Schema}

theorem below_of_get? {k : String} {c : Json} (h : s.get? k = some c) : Json.Below (.object s) c :=
  .of_lookup h

theorem below_properties {place : Reference} {properties : Json.Fields}
    (h : s.properties place = .ok properties) {e : String × Json} (he : e ∈ properties) :
    Json.Below (.object s) e.2 := by
  unfold Schema.properties at h
  split at h
  · cases h
    exact absurd he List.not_mem_nil
  · next fields hfields =>
    cases h
    exact (below_of_get? hfields).field he
  · cases h

theorem below_additional? {c : Json} (h : s.additional? = some c) : Json.Below (.object s) c := by
  unfold additional? at h
  split at h
  · next v hv =>
    cases h
    exact below_of_get? hv
  · obtain ⟨patterns, hpatterns, hc⟩ := Option.bind_eq_some_iff.1 h
    unfold Json.field? at hc
    split at hc
    · exact (below_of_get? hpatterns).trans (Json.Below.of_lookup hc)
    · cases hc

end Schema

namespace Conversion

variable {st st' : Conversion} {place : Reference} {r : NodeId}

/-! ## Moves -/

/-- The state with the type of all values for a schema. -/
def withAny (st : Conversion) (place : Reference) : Conversion where
  resolver := st.resolver
  builder := (st.builder.primitive .any ∅).2
  types := st.types.insert place (st.builder.primitive .any ∅).1

/-- A step of resolving, one of building that makes no intersection, or a type for a schema that
    had none: a new intersection, or the type of all values. -/
inductive Move (st : Conversion) : Conversion → Prop
  | resolve {r : Resolver} (h : st.resolver.Move r) : Move st { st with resolver := r }
  | build {b : Builder} (h : st.builder.Develops b) : Move st { st with builder := b }
  | begin {place : Reference} (a : Attributes) (h : st.types.get? place = none) :
      Move st (st.pended place a)
  | any {place : Reference} (h : st.types.get? place = none) : Move st (st.withAny place)

/-- What becomes of a conversion. -/
abbrev Later : Conversion → Conversion → Prop := Relation.ReflTransGen Move

theorem Later.resolver (h : st.Later st') : st.resolver.Later st'.resolver := by
  induction h with
  | refl => exact .refl
  | tail _ hmove ih =>
    cases hmove with
    | resolve h => exact ih.tail h
    | build => exact ih
    | begin => exact ih
    | any => exact ih

theorem Later.of_resolver {r : Resolver} (h : st.resolver.Later r) :
    st.Later { st with resolver := r } := by
  induction h with
  | refl => exact .refl
  | tail _ hmove ih => exact ih.tail (.resolve hmove)

/-- **The type of a schema never changes.** -/
theorem Later.get?_types (h : st.Later st') (hr : st.types.get? place = some r) :
    st'.types.get? place = some r := by
  have hinsert : ∀ {c : Conversion} {p : Reference} (x : NodeId), c.types.get? p = none →
      c.types.get? place = some r → (c.types.insert p x).get? place = some r := by
    intro c p x hnone hc
    rw [OrderedMap.get?_insert, if_neg, hc]
    rintro rfl
    rw [hc] at hnone
    cases hnone
  induction h with
  | refl => exact hr
  | tail _ hmove ih =>
    cases hmove with
    | resolve => exact ih
    | build => exact ih
    | begin a hnone => exact hinsert _ hnone ih
    | any hnone => exact hinsert _ hnone ih

end Conversion

end SchemaTypes
