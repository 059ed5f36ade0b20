/-
  Constraints on shared types.

  The types of numbers and of strings are shared, except those of listed strings: whoever asks for
  one gets the same node, and adds to the constraints on it.

  * `Attributes.constraints`: bounds, lengths, patterns, and what is said of URIs;
  * `Builder.constraintsOf`, `total`: the constraints on the node that is shared for a kind, and
    what becomes of them when the kind is asked for several times;
  * `Builder.Supplies`: what is built for given requests (`supplies_primitive`), and what without
    any (`supplies_add`, `supplies_addAttributes`).
-/
import SchemaTypes.Proofs.Promises

namespace SchemaTypes

/-! ## Constraints -/

namespace Attributes

variable {a b : Attributes}

/-- What the attributes say of numbers and strings themselves. -/
def constraints (a : Attributes) : Attributes :=
  { empty with
    uri := a.uri, minMax := a.minMax, minMaxLength := a.minMaxLength, pattern := a.pattern }

@[simp] theorem constraints_empty : (∅ : Attributes).constraints = ∅ := rfl

@[simp] theorem constraints_constraints : a.constraints.constraints = a.constraints := rfl

@[simp] theorem constraints_union (a b : Attributes) :
    (a ∪ b).constraints = a.constraints ∪ b.constraints := rfl

@[simp] theorem constraints_makeInferred (a : Attributes) : a.makeInferred.constraints = ∅ := rfl

@[simp] theorem empty_union_constraints (a : Attributes) : ∅ ∪ a.constraints = a.constraints := rfl

@[simp] theorem constraints_union_empty (a : Attributes) : a.constraints ∪ ∅ = a.constraints := by
  have hmerge : ∀ {α : Type} (f : α → α → α) x, mergeOptions f x none = x := fun f x => by
    cases x <;> rfl
  have hpattern : mergePatterns a.pattern none = a.pattern := by
    cases a.pattern <;> rfl
  show combine .union a.constraints empty = a.constraints
  simp only [combine, empty, hmerge]
  exact congrArg ({ a.constraints with pattern := · }) hpattern

end Attributes

/-! ## Kinds -/

namespace Kind

variable {k : Kind}

/-- Whether the values are numbers, or strings. -/
def isScalar : Kind → Bool
  | integer | double | string _ | formatted _ => true
  | _ => false

/-- Whether it is one of the kinds that conversion asks for. -/
def isSimple : Kind → Bool
  | any | null | bool | integer | double | string _ | formatted _ => true
  | _ => false

theorem children_of_isSimple (h : k.isSimple = true) : k.children = [] := by
  cases k <;> first | rfl | cases h

theorem isIntersection_of_isSimple (h : k.isSimple = true) : k.isIntersection = false := by
  cases k <;> first | rfl | cases h

theorem ne_record_of_isSimple (h : k.isSimple = true) (ps : Properties) : k ≠ .record ps := by
  rintro rfl
  cases h

end Kind

/-! ## Requests -/

/-- Kinds that are asked for, with constraints, in order. -/
abbrev Requests := List (Kind × Attributes)

namespace Requests

variable {asked asked' : Requests} {k : Kind} {a : Attributes}

/-- Constraints with those that are asked for with a kind. -/
def total (asked : Requests) (k : Kind) (a : Attributes) : Attributes :=
  ((asked.filter (·.1 = k)).map Prod.snd).foldl (· ∪ ·) a

theorem total_append : (asked ++ asked').total k a = asked'.total k (asked.total k a) := by
  simp only [total, List.filter_append, List.map_append, List.foldl_append]

theorem total_singleton_self : total [(k, a)] k b = b ∪ a := by
  simp [total]

theorem total_singleton_of_ne {k' : Kind} (h : k' ≠ k) : total [(k', a)] k b = b := by
  simp [total, h]

end Requests

/-! ## What is built -/

namespace Builder

open SchemaTypes.Graph

variable {b b' b'' : Builder} {asked asked' : Requests} {k : Kind} {a : Attributes} {r : NodeId}

/-- The constraints on the node that is shared for a kind. -/
def constraintsOf (b : Builder) (k : Kind) : Attributes :=
  match b.primitives.get? k with
  | some r => (b.graph.attributes r).constraints
  | none => ∅

/-- Nodes are added; shared nodes stay, and so do constraints on listed strings. -/
structure Extends (b b' : Builder) : Prop where
  grows : b.graph.Grows b'.graph
  shared : ∀ k r, b.primitives.get? k = some r → b'.primitives.get? k = some r
  listed : ∀ r < b.graph.size, ∀ cases, b.graph.kind r = .string (some cases) →
    (b'.graph.attributes r).constraints = (b.graph.attributes r).constraints

namespace Extends

theorem refl (b : Builder) : b.Extends b := ⟨.refl _, fun _ _ => id, fun _ _ _ _ => rfl⟩

theorem trans (h : b.Extends b') (h' : b'.Extends b'') : b.Extends b'' where
  grows := h.grows.trans h'.grows
  shared k r hr := h'.shared k r (h.shared k r hr)
  listed r hr cases hk := by
    have hlt := Nat.lt_of_lt_of_le hr h.grows.size_le
    rw [h'.listed r hlt cases ((h.grows.kind_eq r hr).trans hk), h.listed r hr cases hk]

end Extends

/-- Nodes are added, for some of which kinds are asked for; none of them is an intersection or a
    class.  What is asked for adds to the constraints on shared nodes, and nothing else does. -/
structure Supplies (b : Builder) (asked : Requests) (b' : Builder) : Prop extends
    Extends b b' where
  shares : b'.Shares
  isIntersection_new : ∀ r, b.graph.size ≤ r → (b'.graph.kind r).isIntersection = false
  classless_new : ∀ r, b.graph.size ≤ r → ∀ ps, b'.graph.kind r ≠ .record ps
  constraintsOf_eq : ∀ k, k.isScalar = true → k.isPrimitive = true →
    b'.constraintsOf k = asked.total k (b.constraintsOf k)

theorem Supplies.refl (hb : b.Shares) : b.Supplies [] b where
  toExtends := .refl b
  shares := hb
  isIntersection_new r hr := by
    rw [kind_eq_nothing_of_le hr]
    rfl
  classless_new r hr ps := by
    rw [kind_eq_nothing_of_le hr]
    simp
  constraintsOf_eq _ _ _ := rfl

theorem Supplies.trans (h : b.Supplies asked b') (h' : b'.Supplies asked' b'') :
    b.Supplies (asked ++ asked') b'' where
  toExtends := h.toExtends.trans h'.toExtends
  shares := h'.shares
  isIntersection_new r hr := by
    by_cases hlt : r < b'.graph.size
    · rw [h'.grows.kind_eq r hlt]
      exact h.isIntersection_new r hr
    · exact h'.isIntersection_new r (Nat.not_lt.1 hlt)
  classless_new r hr := by
    by_cases hlt : r < b'.graph.size
    · rw [h'.grows.kind_eq r hlt]
      exact h.classless_new r hr
    · exact h'.classless_new r (Nat.not_lt.1 hlt)
  constraintsOf_eq k hs hp := by
    rw [h'.constraintsOf_eq k hs hp, h.constraintsOf_eq k hs hp, Requests.total_append]

/-- What is asked for does not matter beyond what it adds to the constraints. -/
theorem Supplies.congr (h : b.Supplies asked b')
    (hasked : ∀ k, k.isScalar = true → ∀ c, asked.total k c = asked'.total k c) :
    b.Supplies asked' b' :=
  { h with constraintsOf_eq := fun k hs hp => (h.constraintsOf_eq k hs hp).trans (hasked k hs _) }

/-- The constraints on shared nodes stay if those on the nodes do. -/
theorem constraintsOf_congr (hp : b'.primitives = b.primitives)
    (h : ∀ r, b.primitives.get? k = some r →
      (b'.graph.attributes r).constraints = (b.graph.attributes r).constraints) :
    b'.constraintsOf k = b.constraintsOf k := by
  unfold constraintsOf
  rw [hp]
  cases hr : b.primitives.get? k with
  | none => rfl
  | some r => exact h r hr

theorem constraintsOf_of_get? (h : b.primitives.get? k = some r) :
    b.constraintsOf k = (b.graph.attributes r).constraints := by
  simp only [constraintsOf, h]

/-! ### Further nodes -/

theorem attributes_push {g : Graph} {n : Node} (r : NodeId) :
    (g.push n).attributes r = if r = g.size then n.attributes else g.attributes r := by
  rw [attributes, node_push]
  split <;> rfl

theorem extends_add (hb : b.Shares) {n : Node} (hn : ∀ c ∈ n.kind.children, c < b.graph.size) :
    b.Extends (b.add n).2 where
  grows := (shared_add hb hn).grows
  shared _ _ := id
  listed r hr _ _ :=
    congrArg Attributes.constraints ((attributes_push r).trans (if_neg (Nat.ne_of_lt hr)))

theorem constraintsOf_add (hb : b.Shares) (n : Node) (k : Kind) :
    (b.add n).2.constraintsOf k = b.constraintsOf k :=
  constraintsOf_congr rfl fun r hr => congrArg Attributes.constraints
    ((attributes_push r).trans (if_neg (Nat.ne_of_lt (hb k r hr).2.1)))

theorem supplies_add (hb : b.Shares) {n : Node} (hn : ∀ c ∈ n.kind.children, c < b.graph.size)
    (hi : n.kind.isIntersection = false) (hc : ∀ ps, n.kind ≠ .record ps) :
    b.Supplies [] (b.add n).2 := by
  have hnew : ∀ r, b.graph.size ≤ r →
      (b.add n).2.graph.kind r = n.kind ∨ (b.add n).2.graph.kind r = .nothing := by
    intro r hr
    rw [show (b.add n).2.graph = b.graph.push n from rfl, kind_push]
    split
    · exact .inl rfl
    · exact .inr (kind_eq_nothing_of_le hr)
  refine ⟨extends_add hb hn, (shared_add hb hn).shares, fun r hr => ?_, fun r hr ps => ?_,
    fun k _ _ => constraintsOf_add hb n k⟩
  · rcases hnew r hr with h | h <;> rw [h]
    · exact hi
    · rfl
  · rcases hnew r hr with h | h <;> rw [h]
    · exact hc ps
    · simp

/-! ### Further attributes -/

theorem constraints_addAttributes {g : Graph} {s r : NodeId} (hr : r < g.size) (a : Attributes) :
    ((g.addAttributes s a).attributes r).constraints =
      if s = r then (g.attributes r).constraints ∪ a.constraints
      else (g.attributes r).constraints := by
  unfold Graph.addAttributes
  split
  · next ha =>
    obtain rfl := eq_of_beq ha
    simp
  · rw [attributes, setAttributes, node_modify g s r _ hr]
    split
    · next heq =>
      subst heq
      rfl
    · rfl

/-- The constraints on a shared node change where attributes are added to it. -/
theorem constraintsOf_addAttributes (hb : b.Shares) (r : NodeId) (a : Attributes) (k : Kind) :
    (b.addAttributes r a).constraintsOf k =
      if b.primitives.get? k = some r then b.constraintsOf k ∪ a.constraints
      else b.constraintsOf k := by
  cases hs : b.primitives.get? k with
  | none =>
    rw [if_neg (by simp)]
    exact constraintsOf_congr rfl fun s hs' => absurd (hs.symm.trans hs') (by simp)
  | some s =>
    rw [constraintsOf_of_get? hs, constraintsOf_of_get? (b := b.addAttributes r a) hs]
    refine (constraints_addAttributes (hb k s hs).2.1 a).trans ?_
    simp only [Option.some.injEq, eq_comm]

/-- Attributes are added to any node but listed strings. -/
theorem supplies_addAttributes_of (hb : b.Shares) (a : Attributes)
    (hr : ∀ cases, b.graph.kind r ≠ .string (some cases))
    (hasked : ∀ k, k.isScalar = true → k.isPrimitive = true →
      (b.addAttributes r a).constraintsOf k = asked.total k (b.constraintsOf k)) :
    b.Supplies asked (b.addAttributes r a) := by
  have hgrows := grows_addAttributes b.graph r a
  have hnew : ∀ s, b.graph.size ≤ s → (b.addAttributes r a).graph.kind s = .nothing := fun s hs =>
    (kind_addAttributes b.graph r a s).trans (kind_eq_nothing_of_le hs)
  refine ⟨⟨hgrows, fun _ _ => id, fun s hs cases hks => ?_⟩, hb.grows hgrows rfl, fun s hs => ?_,
    fun s hs ps => ?_, hasked⟩
  · refine (constraints_addAttributes hs a).trans (if_neg ?_)
    rintro rfl
    exact hr cases hks
  · rw [hnew s hs]
    rfl
  · rw [hnew s hs]
    simp

/-- Attributes are added to a node that is no number and no string. -/
theorem supplies_addAttributes (hb : b.Shares) (hr : (b.graph.kind r).isScalar = false)
    (a : Attributes) : b.Supplies [] (b.addAttributes r a) := by
  refine supplies_addAttributes_of hb a (fun cases hk => ?_) fun k hk _ => ?_
  · rw [hk] at hr
    cases hr
  · rw [constraintsOf_addAttributes hb, if_neg]
    · rfl
    · intro hs
      rw [← (hb k r hs).2.2, hr] at hk
      cases hk

/-- A kind is asked for again: its node gets further constraints. -/
theorem supplies_shared (hb : b.Shares) (hr : b.primitives.get? k = some r) (a : Attributes) :
    b.Supplies [(k, a.constraints)] (b.addAttributes r a) := by
  obtain ⟨hprim, -, hk⟩ := hb k r hr
  refine supplies_addAttributes_of hb a (fun cases hks => ?_) fun k' _ _ => ?_
  · rw [← hk, hks] at hprim
    cases hprim
  · rw [constraintsOf_addAttributes hb]
    split
    · next hs =>
      obtain rfl : k = k' := hk.symm.trans (hb k' r hs).2.2
      rw [Requests.total_singleton_self]
    · next hs =>
      rw [Requests.total_singleton_of_ne]
      rintro rfl
      exact hs hr

/-! ### Kinds that are asked for -/

/-- The node that is had for a kind, asked for with constraints. -/
structure Provides (b : Builder) (k : Kind) (c : Attributes) (r : NodeId) : Prop where
  lt_size : r < b.graph.size
  kind_eq : b.graph.kind r = k
  shared : k.isPrimitive = true → b.primitives.get? k = some r
  listed : ∀ cases, k = .string (some cases) → (b.graph.attributes r).constraints = c

theorem Provides.mono {c : Attributes} (h : b.Provides k c r) (hb : b.Extends b') :
    b'.Provides k c r where
  lt_size := Nat.lt_of_lt_of_le h.lt_size hb.grows.size_le
  kind_eq := (hb.grows.kind_eq r h.lt_size).trans h.kind_eq
  shared hk := hb.shared k r (h.shared hk)
  listed cases hk :=
    (hb.listed r h.lt_size cases (h.kind_eq.trans hk)).trans (h.listed cases hk)

/-- The builder with a new node that is shared from then on. -/
def share (b : Builder) (k : Kind) (a : Attributes) : Builder :=
  { (b.add (.new k a)).2 with primitives := b.primitives.insert k b.graph.size }

/-- A kind is asked for the first time. -/
theorem supplies_share (hnone : b.primitives.get? k = none) (hshares : (b.share k a).Shares)
    (hadd : b.Supplies [] (b.add (.new k a)).2) :
    b.Supplies [(k, a.constraints)] (b.share k a) := by
  have hget : ∀ k', (b.share k a).primitives.get? k' =
      if k' = k then some b.graph.size else b.primitives.get? k' :=
    fun _ => OrderedMap.get?_insert ..
  have hnew : (b.share k a).graph.attributes b.graph.size = a :=
    (attributes_push _).trans (if_pos rfl)
  refine ⟨⟨hadd.grows, fun k' r hr => ?_, hadd.listed⟩, hshares, hadd.isIntersection_new,
    hadd.classless_new, fun k' hs hp => ?_⟩
  · rw [hget, if_neg, hr]
    rintro rfl
    rw [hnone] at hr
    cases hr
  · by_cases heq : k' = k
    · subst heq
      rw [Requests.total_singleton_self, constraintsOf_of_get? ((hget k').trans (if_pos rfl)), hnew]
      simp only [constraintsOf, hnone, Attributes.empty_union_constraints]
    · rw [Requests.total_singleton_of_ne (Ne.symm heq)]
      have hold := hadd.constraintsOf_eq k' hs hp
      simp only [constraintsOf, hget, if_neg heq] at hold ⊢
      exact hold

/-- **A simple kind is asked for.** -/
theorem supplies_primitive (hb : b.Shares) (hk : k.isSimple = true) (a : Attributes) :
    b.Supplies [(k, a.constraints)] (b.primitive k a).2 ∧
      (b.primitive k a).2.Provides k a.constraints (b.primitive k a).1 := by
  have hchildren := Kind.children_of_isSimple hk
  have hshared : Shared b k (b.primitive k a) := shared_primitive hb hchildren
  have hadd : b.Supplies [] (b.add (.new k a)).2 :=
    supplies_add hb (n := .new k a)
      (fun c hc => absurd (hchildren ▸ hc : c ∈ []) List.not_mem_nil)
      (Kind.isIntersection_of_isSimple hk) (Kind.ne_record_of_isSimple hk)
  unfold primitive at hshared ⊢
  split at hshared
  · next hprim =>
    rw [if_pos hprim]
    have hlisted : ∀ cases, k ≠ .string (some cases) := by
      rintro cases rfl
      cases hprim
    split at hshared
    · next r hr =>
      exact ⟨supplies_shared hb hr a, hshared.lt_size, hshared.kind_eq, fun _ => hr,
        fun cases h => absurd h (hlisted cases)⟩
    · next hnone =>
      refine ⟨supplies_share hnone hshared.shares hadd, hshared.lt_size, hshared.kind_eq,
        fun _ => ?_, fun cases h => absurd h (hlisted cases)⟩
      exact (OrderedMap.get?_insert ..).trans (if_pos rfl)
  · next hprim =>
    rw [if_neg hprim]
    refine ⟨?_, hshared.lt_size, hshared.kind_eq, fun h => absurd h hprim, fun cases _ => ?_⟩
    · refine { hadd with constraintsOf_eq := fun k' hs hp => ?_ }
      have hne : k ≠ k' := by
        rintro rfl
        exact hprim hp
      exact (hadd.constraintsOf_eq k' hs hp).trans (Requests.total_singleton_of_ne hne).symm
    · exact congrArg Attributes.constraints ((attributes_push _).trans (if_pos rfl))

end Builder

end SchemaTypes
