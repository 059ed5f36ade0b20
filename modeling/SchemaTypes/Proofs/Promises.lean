/-
  What the types of schemas will admit, while they are still being made.

  An intersection that has been entered for a schema has no members until the schema is
  converted, so what other types admit can only be said of the graphs that may come of it.

  * `Promises`: a node admits certain values in every graph that settles what is pending, if
    the types of schemas admit there what is valid against the schemas;
  * `Sound`: the types entered for schemas that are not pending promise what the schemas accept;
  * `Continues`: further nodes and types of schemas;
  * `Leads`: a step keeps to all this, with its rules (`Leads.bind` and the others).
-/
import SchemaTypes.Conversion
import SchemaTypes.Proofs.Resolving
import SchemaTypes.Proofs.Simulation

namespace SchemaTypes

open SchemaTypes.Graph

/-! ## Shared primitive types -/

namespace Builder

variable {b b' : Builder} {k : Kind} {attributes : Attributes}

/-- The nodes that are shared for primitive types are of these types. -/
def Shares (b : Builder) : Prop :=
  ∀ k r, b.primitives.get? k = some r →
    k.isPrimitive = true ∧ r < b.graph.size ∧ b.graph.kind r = k

theorem Shares.grows (hb : b.Shares) (h : b.graph.Grows b'.graph)
    (hp : b'.primitives = b.primitives) : b'.Shares := by
  intro k r hr
  obtain ⟨hprim, hlt, hk⟩ := hb k r (hp ▸ hr)
  exact ⟨hprim, Nat.lt_of_lt_of_le hlt h.size_le, (h.kind_eq r hlt).trans hk⟩

/-- A node of a kind without children, and what becomes of the graph. -/
structure Shared (b : Builder) (k : Kind) (x : NodeId × Builder) : Prop where
  grows : b.graph.Grows x.2.graph
  shares : x.2.Shares
  lt_size : x.1 < x.2.graph.size
  kind_eq : x.2.graph.kind x.1 = k

theorem shared_add (hb : b.Shares) {n : Node} (hn : ∀ c ∈ n.kind.children, c < b.graph.size) :
    Shared b n.kind (b.add n) := by
  have hgrows : b.graph.Grows (b.graph.push n) := grows_push fun c hc => Nat.lt_succ_of_lt (hn c hc)
  refine ⟨hgrows, hb.grows hgrows rfl, ?_, ?_⟩
  · exact (size_push b.graph n).symm ▸ Nat.lt_succ_self _
  · exact (kind_push b.graph n _).trans (if_pos rfl)

theorem shared_primitive (hb : b.Shares) (hk : k.children = []) :
    Shared b k (b.primitive k attributes) := by
  have hadd : Shared b k (b.add (.new k attributes)) := by
    refine shared_add hb (n := .new k attributes) fun c hc => ?_
    exact absurd (hk ▸ hc : c ∈ []) List.not_mem_nil
  unfold primitive
  split
  · next hprim =>
    split
    · next r hr =>
      have hgrows := grows_addAttributes b.graph r attributes
      obtain ⟨-, hlt, hkind⟩ := hb k r hr
      exact ⟨hgrows, hb.grows hgrows rfl, Nat.lt_of_lt_of_le hlt hgrows.size_le,
        (hgrows.kind_eq r hlt).trans hkind⟩
    · refine ⟨hadd.grows, fun k' r hr => ?_, hadd.lt_size, hadd.kind_eq⟩
      replace hr : (b.primitives.insert k b.graph.size).get? k' = some r := hr
      rw [OrderedMap.get?_insert] at hr
      split at hr
      · next heq =>
        cases hr
        exact ⟨heq ▸ hprim, hadd.lt_size, heq ▸ hadd.kind_eq⟩
      · exact hadd.shares k' r hr
  · exact hadd

end Builder

namespace Conversion

/-! ## Promises -/

/-- Schemas whose types are intersections without members yet. -/
abbrev Pending := List (Reference × NodeId)

/-- A graph that may come of another: the nodes that are not pending have their kinds. -/
def Settles (pending : Pending) (g h : Graph) : Prop :=
  ∀ r < g.size, r ∉ pending.map Prod.snd → h.kind r = g.kind r

/-- The types of the schemas that were entered admit in a graph what is valid against the
    schemas, as `B` says. -/
structure Backs (ρ : Reading) (doc : Json) (s : Conversion) (h : Graph) (B : Json → Json → Prop) :
    Prop where
  admits : ∀ p r c, s.types.get? p = some r → doc.follow doc p.path = some c →
    ∀ w, B c w → h.Admits ρ r w
  not_false : ∀ w, ¬B (.bool false) w

/-- The node will admit the values that satisfy `C`, where that may depend on what is valid
    against schemas. -/
structure Promises (ρ : Reading) (doc : Json) (pending : Pending) (s : Conversion) (r : NodeId)
    (C : (Json → Json → Prop) → Json → Prop) : Prop where
  lt_size : r < s.builder.graph.size
  admits : ∀ h, Settles pending s.builder.graph h → ∀ B, Backs ρ doc s h B →
    ∀ w, C B w → h.Admits ρ r w

/-- Some of the nodes will admit each of the values that satisfy `C`. -/
structure Covers (ρ : Reading) (doc : Json) (pending : Pending) (s : Conversion)
    (rs : List NodeId) (C : (Json → Json → Prop) → Json → Prop) : Prop where
  lt_size : ∀ r ∈ rs, r < s.builder.graph.size
  admits : ∀ h, Settles pending s.builder.graph h → ∀ B, Backs ρ doc s h B →
    ∀ w, C B w → ∃ r ∈ rs, h.Admits ρ r w

/-- The state is as it should be, apart from the schemas that are pending. -/
structure Sound (ρ : Reading) (doc : Json) (a : Address) (pending : Pending) (s : Conversion) :
    Prop where
  serves : s.resolver.Serves a doc
  shares : s.builder.Shares
  kind_pending : ∀ e ∈ pending, s.builder.graph.kind e.2 = .intersection ∅
  lt_size : ∀ p r, s.types.get? p = some r → r < s.builder.graph.size
  promises : ∀ p r c, s.types.get? p = some r → (p, r) ∉ pending →
    doc.follow doc p.path = some c →
    Promises ρ doc pending s r fun B w => c.Accepts ρ.formats doc B w

/-- Nodes and types of schemas are added. -/
structure Continues (s s' : Conversion) : Prop where
  grows : s.builder.graph.Grows s'.builder.graph
  get?_types : ∀ p r, s.types.get? p = some r → s'.types.get? p = some r

/-- From a sound state the step leads on, if it succeeds, to a sound state, with a result that
    satisfies `Q`. -/
def Leads {α : Type} (ρ : Reading) (doc : Json) (a : Address) (pending : Pending)
    (m : ConversionM α) (s : Conversion) (Q : α → Conversion → Prop) : Prop :=
  Ensures m s fun x s' => Sound ρ doc a pending s' ∧ Continues s s' ∧ Q x s'

variable {ρ : Reading} {doc : Json} {a : Address} {pending : Pending} {s s' s'' : Conversion}
  {r : NodeId} {C C' : (Json → Json → Prop) → Json → Prop}

/-! ## Continuation -/

namespace Continues

theorem refl (s : Conversion) : Continues s s := ⟨.refl _, fun _ _ => id⟩

theorem trans (h : Continues s s') (h' : Continues s' s'') : Continues s s'' where
  grows := h.grows.trans h'.grows
  get?_types p r hr := h'.get?_types p r (h.get?_types p r hr)

instance : IsPreorder Conversion Continues where
  refl := .refl
  trans _ _ _ := .trans

theorem settles {h : Graph} (hs : Continues s s') (hh : Settles pending s'.builder.graph h) :
    Settles pending s.builder.graph h := fun r hr hp => by
  rw [hh r (Nat.lt_of_lt_of_le hr hs.grows.size_le) hp, hs.grows.kind_eq r hr]

theorem backs {h : Graph} {B : Json → Json → Prop} (hs : Continues s s')
    (hB : Backs ρ doc s' h B) : Backs ρ doc s h B where
  admits p r c hr := hB.admits p r c (hs.get?_types p r hr)
  not_false := hB.not_false

end Continues

namespace Promises

theorem mono (h : Promises ρ doc pending s r C) (hs : Continues s s') :
    Promises ρ doc pending s' r C where
  lt_size := Nat.lt_of_lt_of_le h.lt_size hs.grows.size_le
  admits g hg B hB := h.admits g (hs.settles hg) B (hs.backs hB)

theorem imp (h : Promises ρ doc pending s r C) (hC : ∀ B w, C' B w → C B w) :
    Promises ρ doc pending s r C' where
  lt_size := h.lt_size
  admits g hg B hB w hw := h.admits g hg B hB w (hC B w hw)

/-- What the kind of a node says is kept unless the node is pending. -/
theorem of_kind {k : Kind} (hs : Sound ρ doc a pending s) (hr : r < s.builder.graph.size)
    (hk : s.builder.graph.kind r = k) (hne : k ≠ .intersection ∅)
    (hC : ∀ h, Settles pending s.builder.graph h → ∀ B, Backs ρ doc s h B →
      ∀ w, C B w → k.Admits ρ (h.Admits ρ) w) :
    Promises ρ doc pending s r C where
  lt_size := hr
  admits h hh B hB w hw := by
    have hp : r ∉ pending.map Prod.snd := fun hp => by
      obtain ⟨e, he, rfl⟩ := List.mem_map.1 hp
      exact hne (hk.symm.trans (hs.kind_pending e he))
    rw [admits_iff, hh r hr hp, hk]
    exact hC h hh B hB w hw

/-- The type of a schema promises what is valid against it. -/
theorem of_types {p : Reference} {c : Json} (hs : Sound ρ doc a pending s)
    (hr : s.types.get? p = some r) (hc : doc.follow doc p.path = some c) :
    Promises ρ doc pending s r fun B w => B c w where
  lt_size := hs.lt_size p r hr
  admits _ _ _ hB w hw := hB.admits p r c hr hc w hw

end Promises

namespace Covers

variable {rs rs' : List NodeId}

theorem mono (h : Covers ρ doc pending s rs C) (hs : Continues s s') :
    Covers ρ doc pending s' rs C where
  lt_size r hr := Nat.lt_of_lt_of_le (h.lt_size r hr) hs.grows.size_le
  admits g hg B hB := h.admits g (hs.settles hg) B (hs.backs hB)

theorem singleton (h : Promises ρ doc pending s r C) : Covers ρ doc pending s [r] C where
  lt_size _ hx := List.mem_singleton.1 hx ▸ h.lt_size
  admits g hg B hB w hw := ⟨r, List.mem_singleton_self r, h.admits g hg B hB w hw⟩

/-- Nodes are not needed where no value satisfies the condition. -/
theorem nil (hC : ∀ B w, ¬C B w) : Covers ρ doc pending s [] C where
  lt_size _ hx := absurd hx List.not_mem_nil
  admits _ _ B _ w hw := absurd hw (hC B w)

theorem append (h : Covers ρ doc pending s rs C) (h' : Covers ρ doc pending s rs' C') :
    Covers ρ doc pending s (rs ++ rs') fun B w => C B w ∨ C' B w where
  lt_size r hr := (List.mem_append.1 hr).elim (h.lt_size r) (h'.lt_size r)
  admits g hg B hB w hw := by
    rcases hw with hw | hw
    · obtain ⟨r, hr, hv⟩ := h.admits g hg B hB w hw
      exact ⟨r, List.mem_append_left rs' hr, hv⟩
    · obtain ⟨r, hr, hv⟩ := h'.admits g hg B hB w hw
      exact ⟨r, List.mem_append_right rs hr, hv⟩

theorem imp (h : Covers ρ doc pending s rs C) (hC : ∀ B w, C' B w → C B w) :
    Covers ρ doc pending s rs C' where
  lt_size := h.lt_size
  admits g hg B hB w hw := h.admits g hg B hB w (hC B w hw)

end Covers

/-! ## Rules -/

namespace Leads

variable {α β : Type} {m : ConversionM α} {Q R : α → Conversion → Prop}

theorem andThen {f : α → ConversionM β} {R : β → Conversion → Prop}
    (h : Leads ρ doc a pending m s Q)
    (hf : ∀ x s', Sound ρ doc a pending s' → Continues s s' → Q x s' → Ensures (f x) s' R) :
    Ensures (m >>= f) s R :=
  Upholds.andThen h hf

theorem continued (h : Leads ρ doc a pending m s' Q) (hs : Continues s s') :
    Ensures m s' fun x s'' => Sound ρ doc a pending s'' ∧ Continues s s'' ∧ Q x s'' :=
  Upholds.continued h hs

theorem bind {f : α → ConversionM β} {R : β → Conversion → Prop}
    (h : Leads ρ doc a pending m s Q)
    (hf : ∀ x s', Sound ρ doc a pending s' → Continues s s' → Q x s' →
      Leads ρ doc a pending (f x) s' R) :
    Leads ρ doc a pending (m >>= f) s R :=
  Upholds.bind h hf

theorem mono (h : Leads ρ doc a pending m s Q)
    (hQ : ∀ x s', Sound ρ doc a pending s' → Continues s s' → Q x s' → R x s') :
    Leads ρ doc a pending m s R :=
  Upholds.mono h hQ

theorem pure (hs : Sound ρ doc a pending s) {x : α} (hx : Q x s) :
    Leads ρ doc a pending (pure x) s Q :=
  Upholds.pure hs hx

theorem map {f : α → β} {R : β → Conversion → Prop}
    (h : Leads ρ doc a pending m s fun x s' => R (f x) s') :
    Leads ρ doc a pending (f <$> m) s R :=
  Upholds.map h

theorem throw {e : ConversionError} : Leads ρ doc a pending (throw e : ConversionM α) s Q :=
  ensures_throw

theorem lift (hs : Sound ρ doc a pending s) (x : Except ConversionError α) :
    Leads ρ doc a pending (liftM x) s fun y _ => x = .ok y :=
  Upholds.lift hs x

/-- Steps of resolving. -/
theorem resolving {m : ResolverM α} {Q : α → Prop} (hs : Sound ρ doc a pending s)
    (hm : Ensures m s.resolver fun x r => r.Serves a doc ∧ Q x) :
    Leads ρ doc a pending (Conversion.resolving m) s fun x _ => Q x := by
  intro x s' hx
  have hfst := congrArg Prod.fst hx
  obtain ⟨hserves, hQ⟩ := hm x (m.run s.resolver).2 (Prod.ext hfst rfl)
  obtain rfl := congrArg Prod.snd hx
  have hcont : Continues s { s with resolver := (m.run s.resolver).2 } := ⟨.refl _, fun _ _ => id⟩
  exact ⟨⟨hserves, hs.shares, hs.kind_pending, hs.lt_size, fun p r c hr hnp hc =>
    (hs.promises p r c hr hnp hc).mono hcont⟩, hcont, hQ⟩

/-- Steps of building. -/
theorem build {f : Builder → α × Builder} (hs : Sound ρ doc a pending s)
    (hg : s.builder.graph.Grows (f s.builder).2.graph) (hp : (f s.builder).2.Shares)
    (hQ : ∀ s', Sound ρ doc a pending s' → Continues s s' → s'.builder = (f s.builder).2 →
      Q (f s.builder).1 s') :
    Leads ρ doc a pending (Conversion.build f) s Q := by
  have hcont : Continues s { s with builder := (f s.builder).2 } := ⟨hg, fun _ _ => id⟩
  have hsound : Sound ρ doc a pending { s with builder := (f s.builder).2 } :=
    { serves := hs.serves
      shares := hp
      kind_pending := fun e he => by
        have hk := hs.kind_pending e he
        have hlt : e.2 < s.builder.graph.size :=
          lt_size_of_isIntersection (congrArg Kind.isIntersection hk)
        exact (hg.kind_eq e.2 hlt).trans hk
      lt_size := fun p r hr => Nat.lt_of_lt_of_le (hs.lt_size p r hr) hg.size_le
      promises := fun p r c hr hnp hc => (hs.promises p r c hr hnp hc).mono hcont }
  intro x s' hx
  cases hx
  exact ⟨hsound, hcont, hQ _ hsound hcont rfl⟩

/-- A node of a kind, other than an intersection without members. -/
theorem shared {f : Builder → NodeId × Builder} {k : Kind} (hs : Sound ρ doc a pending s)
    (hf : Builder.Shared s.builder k (f s.builder)) (hne : k ≠ .intersection ∅)
    (hC : ∀ h, Settles pending s.builder.graph h → ∀ B, Backs ρ doc s h B →
      ∀ w, C B w → k.Admits ρ (h.Admits ρ) w) :
    Leads ρ doc a pending (Conversion.build f) s fun r s' => Promises ρ doc pending s' r C := by
  refine build hs hf.grows hf.shares fun s' hs' hcont hb => ?_
  refine .of_kind hs' ?_ ?_ hne fun h hh B hB => hC h (hcont.settles hh) B (hcont.backs hB)
  · exact hb ▸ hf.lt_size
  · exact hb ▸ hf.kind_eq

/-- A type without children. -/
theorem primitive {k : Kind} {attributes : Attributes} (hs : Sound ρ doc a pending s)
    (hne : k ≠ .intersection ∅) (hk : k.children = [])
    (hC : ∀ A B w, C B w → k.Admits ρ A w) :
    Leads ρ doc a pending (Conversion.build (·.primitive k attributes)) s
      fun r s' => Promises ρ doc pending s' r C :=
  shared hs (Builder.shared_primitive hs.shares hk) hne fun _ _ B _ w => hC _ B w

/-- A union of nodes that cover the values. -/
theorem union {rs : List NodeId} {attributes : Attributes} (hs : Sound ρ doc a pending s)
    (hrs : Covers ρ doc pending s rs C) :
    Leads ρ doc a pending (Conversion.build (·.union (.ofList rs) attributes)) s
      fun r s' => Promises ρ doc pending s' r C := by
  refine shared hs (Builder.shared_add hs.shares (n := .new (.union (.ofList rs)) attributes) ?_)
    (by simp [Node.new]) ?_
  · exact fun c hc => hrs.lt_size c (SortedSet.mem_ofList.1 hc)
  · intro h hh B hB w hw
    obtain ⟨r, hr, hv⟩ := hrs.admits h hh B hB w hw
    exact ⟨r, SortedSet.mem_ofList.2 hr, hv⟩

/-- A part of a type that is only made where values need it. -/
theorem optional_andThen {c : Prop} [Decidable c] {m : ConversionM NodeId}
    {f : List NodeId → ConversionM β} {Q : List NodeId → Conversion → Prop}
    {R : β → Conversion → Prop} (hs : Sound ρ doc a pending s)
    (hm : c → Leads ρ doc a pending m s fun r s' => Q [r] s') (hn : ¬c → Q [] s)
    (hf : ∀ rs s', Sound ρ doc a pending s' → Continues s s' → Q rs s' → Ensures (f rs) s' R) :
    Ensures (if c then do let rs ← Pure.pure [← m]; f rs else do let rs ← Pure.pure []; f rs)
      s R :=
  Upholds.optional_andThen hm (fun hc => ⟨hs, hn hc⟩) (.refl s) hf

theorem optional {c : Prop} [Decidable c] {m : ConversionM NodeId}
    {f : List NodeId → ConversionM β} {Q : List NodeId → Conversion → Prop}
    {R : β → Conversion → Prop} (hs : Sound ρ doc a pending s)
    (hm : c → Leads ρ doc a pending m s fun r s' => Q [r] s') (hn : ¬c → Q [] s)
    (hf : ∀ rs s', Sound ρ doc a pending s' → Continues s s' → Q rs s' →
      Leads ρ doc a pending (f rs) s' R) :
    Leads ρ doc a pending
      (if c then do let rs ← Pure.pure [← m]; f rs else do let rs ← Pure.pure []; f rs) s R :=
  Upholds.optional hs hm hn hf

/-- Attributes may change. -/
theorem addAttributes {attributes : Attributes} (hs : Sound ρ doc a pending s) :
    Leads ρ doc a pending (change (·.addAttributes r attributes)) s fun _ _ => True := by
  have hgrows := grows_addAttributes s.builder.graph r attributes
  exact build (f := fun b => ((), b.addAttributes r attributes)) hs hgrows
    (hs.shares.grows hgrows rfl) fun _ _ _ _ => trivial

end Leads

end Conversion

end SchemaTypes
