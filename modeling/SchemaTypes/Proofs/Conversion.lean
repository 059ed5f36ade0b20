/-
  Conversion rejects no valid value.

  * `schemaType_spec`: an intersection that was entered for a schema, and then got its members,
    promises all that the schema accepts;
  * `converts_typeOf`: so schemas are converted to types that promise what is valid, however deep
    they lie;
  * `conversion_keeps_values`: what is valid against a top level of a document is admitted by its
    type.
-/
import SchemaTypes.Proofs.Operands

namespace SchemaTypes.Conversion

open SchemaTypes.Graph

variable {ρ : Reading} {doc : Json} {a : Address} {pending : Pending} {st : Conversion}
  {P : Json → Prop} {convert : Converter} {s : Schema} {l : Location} {attributes : Attributes}

/-! ## Pending schemas -/

theorem Promises.pend {r : NodeId} {C : (Json → Json → Prop) → Json → Prop} {e : Reference × NodeId}
    (h : Promises ρ doc pending st r C) (he : st.builder.graph.size ≤ e.2) :
    Promises ρ doc (e :: pending) st r C where
  lt_size := h.lt_size
  admits g hg := h.admits g fun x hx hp => by
    refine hg x hx fun hmem => ?_
    rcases List.mem_cons.1 hmem with rfl | hmem
    · exact absurd hx (Nat.not_lt.2 he)
    · exact hp hmem

/-- The state with a new intersection for a schema. -/
def pended (st : Conversion) (place : Reference) (attributes : Attributes) : Conversion where
  resolver := st.resolver
  builder := (st.builder.newIntersection attributes).2
  types := st.types.insert place st.builder.graph.size

/-- A schema without a type becomes pending. -/
theorem sound_pended {place : Reference} (hs : Sound ρ doc a pending st)
    (hnone : st.types.get? place = none) (attributes : Attributes) :
    Sound ρ doc a ((place, st.builder.graph.size) :: pending) (st.pended place attributes) ∧
      Continues st (st.pended place attributes) := by
  have hshared : Builder.Shared st.builder (.intersection ∅)
      (st.builder.newIntersection attributes) :=
    Builder.shared_add hs.shares (n := .new (.intersection ∅) attributes)
      fun _ hc => absurd hc List.not_mem_nil
  have hcont : Continues st (st.pended place attributes) := by
    refine ⟨hshared.grows, fun p r hr => (OrderedMap.get?_insert ..).trans ?_⟩
    rw [if_neg, hr]
    rintro rfl
    rw [hnone] at hr
    cases hr
  refine ⟨⟨hs.serves, hshared.shares, fun e he => ?_, fun p r hr => ?_, fun p r c hr hnp hc => ?_⟩,
    hcont⟩
  · rcases List.mem_cons.1 he with rfl | he
    · exact hshared.kind_eq
    · have hk := hs.kind_pending e he
      have hlt := lt_size_of_isIntersection (congrArg Kind.isIntersection hk)
      exact (hshared.grows.kind_eq e.2 hlt).trans hk
  · replace hr := (OrderedMap.get?_insert ..).symm.trans hr
    split at hr
    · cases hr
      exact hshared.lt_size
    · exact Nat.lt_of_lt_of_le (hs.lt_size p r hr) hshared.grows.size_le
  · replace hr := (OrderedMap.get?_insert ..).symm.trans hr
    split at hr
    · next heq =>
      cases hr
      exact absurd (heq ▸ List.mem_cons_self) hnp
    · have hnp : (p, r) ∉ pending := fun h => hnp (List.mem_cons_of_mem _ h)
      exact ((hs.promises p r c hr hnp hc).pend (Nat.le_refl _)).mono hcont

/-- The state in which a node has got its members. -/
def settled (st : Conversion) (r : NodeId) (members : List NodeId) : Conversion :=
  { st with builder := st.builder.setMembers r (.ofList members) }

section

variable {place : Reference} {r : NodeId} {members : List NodeId}
  {C : (Json → Json → Prop) → Json → Prop}

theorem builder_settled (hk : st.builder.graph.kind r = .intersection ∅) :
    (st.settled r members).builder = { st.builder with
      graph := st.builder.graph.setKind r (.intersection (.ofList members)) } := by
  simp [settled, Builder.setMembers, hk, Kind.isIntersection]

theorem kind_settled (hk : st.builder.graph.kind r = .intersection ∅) (x : NodeId) :
    (st.settled r members).builder.graph.kind x =
      if r = x then .intersection (.ofList members) else st.builder.graph.kind x := by
  have hlt : r < st.builder.graph.size :=
    lt_size_of_isIntersection (congrArg Kind.isIntersection hk)
  rw [builder_settled hk]
  split
  · next heq =>
    subst heq
    exact (kind_modify _ _ _ _ hlt).trans (if_pos rfl)
  · next hne =>
    refine (kind_modify_cases st.builder.graph r x (k := .intersection (.ofList members))
      fun _ => ?_).resolve_right fun h => hne h.1
    rfl

theorem size_settled (hk : st.builder.graph.kind r = .intersection ∅) :
    (st.settled r members).builder.graph.size = st.builder.graph.size := by
  rw [builder_settled hk]
  exact size_modify ..

theorem Promises.settled {x : NodeId} (hk : st.builder.graph.kind r = .intersection ∅)
    (h : Promises ρ doc ((place, r) :: pending) st x C) :
    Promises ρ doc pending (st.settled r members) x C where
  lt_size := (size_settled hk).symm ▸ h.lt_size
  admits g hg B hB := by
    refine h.admits g (fun y hy hp => ?_) B ⟨hB.admits, hB.not_false⟩
    have hne : r ≠ y := fun heq => hp (heq ▸ List.mem_cons_self)
    rw [hg y ((size_settled hk).symm ▸ hy) fun hmem => hp (List.mem_cons_of_mem _ hmem),
      kind_settled hk, if_neg hne]

/-- **A pending schema whose members promise what it accepts is pending no more.** -/
theorem sound_settled (hs : Sound ρ doc a ((place, r) :: pending) st)
    (hnp : r ∉ pending.map Prod.snd)
    (hmembers : ∀ m ∈ members, Promises ρ doc ((place, r) :: pending) st m C)
    (hC : ∀ c, doc.follow doc place.path = some c → ∀ B w, c.Accepts ρ.formats doc B w → C B w) :
    Sound ρ doc a pending (st.settled r members) ∧
      Promises ρ doc pending (st.settled r members) r C := by
  have hk := hs.kind_pending (place, r) List.mem_cons_self
  have hlt : r < st.builder.graph.size :=
    lt_size_of_isIntersection (congrArg Kind.isIntersection hk)
  have hr : Promises ρ doc pending (st.settled r members) r C := by
    refine ⟨(size_settled hk).symm ▸ hlt, fun h hh B hB w hw => ?_⟩
    rw [admits_iff, hh r ((size_settled hk).symm ▸ hlt) hnp, kind_settled hk, if_pos rfl]
    intro m hm
    have hm : Promises ρ doc pending (st.settled r members) m C :=
      (hmembers m (SortedSet.mem_ofList.1 hm)).settled hk
    exact hm.admits h hh B hB w hw
  refine ⟨⟨hs.serves, ?_, fun e he => ?_, fun p x hx => ?_, fun p x c hx hxp hc => ?_⟩, hr⟩
  · intro k x hx
    rw [builder_settled hk] at hx
    obtain ⟨hprim, hxlt, hkx⟩ := hs.shares k x hx
    refine ⟨hprim, (size_settled hk).symm ▸ hxlt, ?_⟩
    rw [kind_settled hk, if_neg, hkx]
    rintro rfl
    rw [← hkx, hk] at hprim
    cases hprim
  · rw [kind_settled hk, if_neg fun heq => hnp (List.mem_map.2 ⟨e, he, heq.symm⟩)]
    exact hs.kind_pending e (List.mem_cons_of_mem _ he)
  · exact (size_settled hk).symm ▸ hs.lt_size p x hx
  · by_cases heq : (p, x) = (place, r)
    · cases heq
      exact hr.imp (hC c hc)
    · refine (hs.promises p x c hx (fun hmem => ?_) hc).settled hk
      exact (List.mem_cons.1 hmem).elim heq hxp

theorem continues_settled {st₀ : Conversion} (h : Continues st₀ st)
    (hr : st₀.builder.graph.size ≤ r) (hk : st.builder.graph.kind r = .intersection ∅)
    (hmembers : ∀ m ∈ members, m < st.builder.graph.size) :
    Continues st₀ (st.settled r members) where
  grows :=
    { size_le := (size_settled hk).symm ▸ h.grows.size_le
      kind_eq := fun x hx => by
        rw [kind_settled hk, if_neg, h.grows.kind_eq x hx]
        rintro rfl
        exact absurd hx (Nat.not_lt.2 hr)
      topLevels_eq := by
        rw [builder_settled hk]
        exact h.grows.topLevels_eq
      lt_size := fun x hx c hc => by
        rw [size_settled hk]
        rw [kind_settled hk] at hc
        split at hc
        · exact hmembers c (SortedSet.mem_ofList.1 hc)
        · exact h.grows.lt_size x hx c hc }
  get?_types := h.get?_types

end

/-! ## Schemas -/

theorem ensures_build {α : Type} {f : Builder → α × Builder} {Q : α → Conversion → Prop}
    (h : Q (f st.builder).1 { st with builder := (f st.builder).2 }) :
    Ensures (build f) st Q := by
  intro x s' hx
  cases hx
  exact h

theorem schemaType_spec (hdoc : doc.WithoutIds) (hc : Converts ρ doc a P convert)
    (hl : Placed doc a P l s) {producers : List Producer} (hs : Sound ρ doc a pending st)
    (hnone : st.types.get? l.canonical = none) :
    Leads ρ doc a pending (schemaType convert producers s l attributes) st fun r st' =>
      st'.types.get? l.canonical = some r ∧
        Promises ρ doc pending st' r fun B w => s.Accepts ρ.formats doc B w := by
  unfold schemaType
  refine Ensures.bind (ensures_lift fun allowed ha => ?_)
  extract_lets included produced
  refine Ensures.bind (ensures_lift fun attributes _ => ?_)
  refine Ensures.bind (ensures_build ?_)
  refine Ensures.bind (ensures_modify ?_)
  obtain ⟨hs₀, h₀⟩ := sound_pended hs hnone attributes
  have hnp : st.builder.graph.size ∉ pending.map Prod.snd := fun hmem => by
    obtain ⟨e, he, heq⟩ := List.mem_map.1 hmem
    have hlt := lt_size_of_isIntersection (congrArg Kind.isIntersection (hs.kind_pending e he))
    exact absurd hlt (Nat.not_lt.2 (Nat.le_of_eq heq.symm))
  have hr : (st.pended l.canonical attributes).types.get? l.canonical =
      some st.builder.graph.size := (OrderedMap.get?_insert ..).trans (if_pos rfl)
  refine Leads.optional_andThen hs₀ (Q := Fits ρ doc _ s)
    (fun _ => (ownUnion_spec hc hl ha hs₀).mono fun r s' _ _ hr => .singleton hr)
    (fun _ _ hr => absurd hr List.not_mem_nil) fun own s₁ hs₁ h₁ hown => ?_
  refine (ofKeyword_spec hs₁ fun v hv => (targetType_spec hdoc hc hl hv hs₁).fits).andThen
    fun target s₂ hs₂ h₂ htarget => ?_
  refine (ofKeyword_spec hs₂ fun v hv => allOfTypes_spec hc hl hv hs₂).andThen
    fun all s₃ hs₃ h₃ hall => ?_
  refine (ofKeyword_spec hs₃ fun v hv => (oneOfType_spec hc hl hv hs₃).fits).andThen
    fun one s₄ hs₄ h₄ hone => ?_
  refine (ofKeyword_spec hs₄ fun v hv => (anyOfType_spec hc hl hv hs₄).fits).andThen
    fun any s₅ hs₅ h₅ hany => ?_
  refine Ensures.bind (ensures_modify (ensures_pure ?_))
  have hcont := ((h₂.trans h₃).trans h₄).trans h₅
  have hfits : Fits ρ doc _ s (own ++ target ++ all ++ one ++ any) s₅ :=
    ((((hown.mono hcont).append (((htarget.mono h₃).mono h₄).mono h₅)).append
      ((hall.mono h₄).mono h₅)).append (hone.mono h₅)).append hany
  obtain ⟨hsound, hpromise⟩ := sound_settled hs₅ hnp hfits fun c hc => by
    cases hl.follow_eq.symm.trans hc
    exact fun _ _ => id
  refine ⟨hsound, continues_settled (h₀.trans (h₁.trans hcont)) (Nat.le_refl _)
    (hs₅.kind_pending _ List.mem_cons_self) fun m hm => (hfits m hm).lt_size, ?_, hpromise⟩
  exact (h₁.trans hcont).get?_types _ _ hr

theorem ensures_known {place : Reference} {Q : Option NodeId → Conversion → Prop}
    (h : Q (st.types.get? place) st) : Ensures (known? place) st Q := by
  intro x s' hx
  cases hx
  exact h

/-- A type is entered for a schema, or was before. -/
theorem enter_spec {place : Reference} {r : NodeId} {c : Json} (hs : Sound ρ doc a pending st)
    (hplace : st.types.get? place = none ∨ st.types.get? place = some r)
    (hc : doc.follow doc place.path = some c)
    (hr : Promises ρ doc pending st r fun B w => c.Accepts ρ.formats doc B w) :
    Leads ρ doc a pending (enter place r) st fun _ st' => st'.types.get? place = some r := by
  have hget : ∀ p, (st.types.insert place r).get? p =
      if p = place then some r else st.types.get? p := fun p => OrderedMap.get?_insert ..
  have hcont : Continues st { st with types := st.types.insert place r } := by
    refine ⟨.refl _, fun p x hx => (hget p).trans ?_⟩
    split
    · next heq =>
      subst heq
      rcases hplace with h | h <;> rw [h] at hx
      · cases hx
      · exact hx
    · exact hx
  refine ensures_modify ⟨⟨hs.serves, hs.shares, hs.kind_pending, fun p x hx => ?_,
    fun p x d hx hnp hd => ?_⟩, hcont, (hget place).trans (if_pos rfl)⟩
  · replace hx := (hget p).symm.trans hx
    split at hx
    · cases hx
      exact hr.lt_size
    · exact hs.lt_size p x hx
  · replace hx := (hget p).symm.trans hx
    split at hx
    · next heq =>
      subst heq
      cases hx
      cases hc.symm.trans hd
      exact hr.mono hcont
    · exact (hs.promises p x d hx hnp hd).mono hcont

theorem enter_pure_spec {place : Reference} {r : NodeId} {c : Json}
    (hs : Sound ρ doc a pending st)
    (hplace : st.types.get? place = none ∨ st.types.get? place = some r)
    (hc : doc.follow doc place.path = some c)
    (hr : Promises ρ doc pending st r fun B w => c.Accepts ρ.formats doc B w) :
    Leads ρ doc a pending (do enter place r; return r) st fun r st' =>
      Promises ρ doc pending st' r fun B w => B c w :=
  (enter_spec hs hplace hc hr).bind fun _ _ hs' _ hr => .pure hs' (.of_types hs' hr hc)

/-- **Schemas are converted to types that promise what is valid against them.** -/
theorem converts_typeOf (hdoc : doc.WithoutIds) (hkeys : doc.KeysDistinct)
    (hplain : ∀ s, P (.object s) → Schema.Plain s)
    (huses : ∀ s c, P (.object s) → Schema.Uses doc s c → P c) {producers : List Producer}
    (depth : Nat) : Converts ρ doc a P (typeOf producers depth) := by
  induction depth with
  | zero => exact fun _ _ _ _ _ _ _ _ _ => .throw
  | succ depth ih =>
    intro pending st l c attributes hs hl hc hP
    unfold typeOf
    refine Ensures.bind (ensures_known ?_)
    cases hknown : st.types.get? l.canonical with
    | some r => exact Leads.pure hs (.of_types hs hknown hc)
    | none =>
      have hfinish : ∀ {r st'}, Sound ρ doc a pending st' → Continues st st' →
          (st'.types.get? l.canonical = none ∨ st'.types.get? l.canonical = some r) →
          Promises ρ doc pending st' r (fun B w => c.Accepts ρ.formats doc B w) →
          Ensures (do enter l.canonical r; return r) st' fun r st' =>
            Sound ρ doc a pending st' ∧ Continues st st' ∧
              Promises ρ doc pending st' r fun B w => B c w := by
        intro r st' hs' h' hplace hr
        exact (enter_pure_spec hs' hplace hc hr).continued h'
      dsimp only
      split
      · have hany : Leads ρ doc a pending (build (·.primitive .any ∅)) st fun r st' =>
            Promises ρ doc pending st' r fun B w => (Json.bool true).Accepts ρ.formats doc B w :=
          .primitive hs (by simp) rfl fun _ _ _ _ => trivial
        refine Ensures.bind fun r st' hm => ?_
        obtain ⟨hs', h', hr⟩ := hany r st' hm
        have htypes : st'.types = st.types := by
          cases hm
          rfl
        exact hfinish hs' h' (.inl (htypes.symm ▸ hknown)) hr
      · exact Ensures.bind ensures_throw
      · refine Ensures.bind (ensures_lift fun s hv => ?_)
        obtain rfl := Reference.checkObject_eq_ok.1 hv
        have hids : (Json.object s).WithoutIds :=
          Json.follow_induction hdoc (fun h hk => h.child? hk) hdoc hc
        refine Ensures.bind (ensures_lift fun l' hl' => ?_)
        have hl'eq : l.withId (s.get? "$id") = .ok l := Location.withId_of_forall_ne hids.1
        cases hl'eq.symm.trans hl'
        have hplaced : Placed doc a P l s :=
          { liesIn := hl
            follow_eq := hc
            keysDistinct := Json.follow_induction hkeys (fun h hk => h.child? hk) hkeys hc
            plain := hplain s hP
            uses := fun c => huses s c hP
            plain_of_uses := hplain }
        refine (schemaType_spec hdoc ih hplaced hs hknown).andThen fun r st' hs' h' hr => ?_
        exact hfinish hs' h' (.inr hr.1) hr.2

/-! ## Top levels -/

/-- The type of a name will admit the values that satisfy `C`. -/
def Named (ρ : Reading) (doc : Json) (st : Conversion) (name : String)
    (C : (Json → Json → Prop) → Json → Prop) : Prop :=
  ∃ r, st.builder.graph.topLevel? name = some r ∧ Promises ρ doc [] st r C

variable {name : String} {C : (Json → Json → Prop) → Json → Prop}

theorem Named.mono {st' : Conversion} (h : Named ρ doc st name C) (hst : Continues st st') :
    Named ρ doc st' name C := by
  obtain ⟨r, hr, hC⟩ := h
  exact ⟨r, (congrArg (·.get? name) hst.grows.topLevels_eq).trans hr, hC.mono hst⟩

/-- The state in which the top levels of the graph are others. -/
def withTopLevels (st : Conversion) (topLevels : OrderedMap String NodeId) : Conversion :=
  { st with builder := { st.builder with graph := { st.builder.graph with topLevels } } }

theorem Promises.withTopLevels {r : NodeId} (h : Promises ρ doc pending st r C)
    (topLevels : OrderedMap String NodeId) :
    Promises ρ doc pending (st.withTopLevels topLevels) r C where
  lt_size := h.lt_size
  admits g hg B hB := h.admits g hg B ⟨hB.admits, hB.not_false⟩

theorem Sound.withTopLevels (hs : Sound ρ doc a pending st)
    (topLevels : OrderedMap String NodeId) :
    Sound ρ doc a pending (st.withTopLevels topLevels) where
  serves := hs.serves
  shares := hs.shares
  kind_pending := hs.kind_pending
  lt_size := hs.lt_size
  promises p r c hr hnp hc := (hs.promises p r c hr hnp hc).withTopLevels topLevels

/-- A top level is added, unless there is one of its name. -/
theorem addTopLevel_spec {r : NodeId} (hs : Sound ρ doc a [] st) :
    Ensures (build (·.addTopLevel name r)) st fun _ st' => Sound ρ doc a [] st' ∧
      (∀ other C, Named ρ doc st other C → Named ρ doc st' other C) ∧
      (st.builder.graph.topLevel? name = none → ∀ C, Promises ρ doc [] st r C →
        Named ρ doc st' name C) ∧
      ∀ other, other ≠ name → st'.builder.graph.topLevel? other =
        st.builder.graph.topLevel? other := by
  refine ensures_build ?_
  by_cases h : st.builder.graph.topLevels.contains name = true
  · have hadd : st.builder.addTopLevel name r = (false, st.builder) := by
      simp [Builder.addTopLevel, addTopLevel, h]
    rw [hadd]
    refine ⟨hs, fun _ _ => id, fun hnone => ?_, fun _ _ => rfl⟩
    obtain ⟨x, hx⟩ := Option.isSome_iff_exists.1 h
    cases hnone.symm.trans hx
  · have hadd : (st.builder.addTopLevel name r).2 =
        (st.withTopLevels (st.builder.graph.topLevels.insert name r)).builder := by
      simp [Builder.addTopLevel, addTopLevel, h, withTopLevels]
    rw [hadd]
    have hget : ∀ other, (st.builder.graph.topLevels.insert name r).get? other =
        if other = name then some r else st.builder.graph.topLevel? other :=
      fun _ => OrderedMap.get?_insert ..
    refine ⟨hs.withTopLevels _, ?_, fun hnone C hr => ?_, fun other hne => ?_⟩
    · rintro other C ⟨x, hx, hC⟩
      refine ⟨x, (hget other).trans ?_, hC.withTopLevels _⟩
      rw [if_neg, hx]
      rintro rfl
      exact h (Option.isSome_iff_exists.2 ⟨x, hx⟩)
    · exact ⟨r, (hget name).trans (if_pos rfl), hr.withTopLevels _⟩
    · exact (hget other).trans (if_neg hne)

theorem addTopLevels_spec (hdoc : doc.WithoutIds) {producers : List Producer} {depth : Nat}
    (hc : Converts ρ doc a P (typeOf producers depth)) {references : List (String × Reference)}
    (ha : ∀ e ∈ references, e.2.address = some a)
    (hP : ∀ e ∈ references, ∀ v, e.2.lookup doc = .ok v → P v) (hs : Sound ρ doc a [] st) :
    Ensures (addTopLevels producers depth references) st fun _ st' => Sound ρ doc a [] st' ∧
      (∀ name C, Named ρ doc st name C → Named ρ doc st' name C) ∧
      ∀ name ref v, references.lookup name = some ref → ref.lookup doc = .ok v →
        st.builder.graph.topLevel? name = none → Named ρ doc st' name fun B w => B v w := by
  induction references generalizing st with
  | nil => exact ensures_pure ⟨hs, fun _ _ => id, fun _ _ _ h => (by cases h)⟩
  | cons e rest ih =>
    obtain ⟨name, ref⟩ := e
    have href := ha (name, ref) List.mem_cons_self
    unfold addTopLevels
    have hresolve := Resolver.resolveTopLevel_spec hdoc href hs.serves
    refine (Leads.resolving hs hresolve).andThen fun x s₁ hs₁ h₁ ht => ?_
    obtain ⟨v, l⟩ := x
    have hfollow := Reference.follow_of_lookup ht.lookup_eq
    rw [← ht.path_eq] at hfollow
    refine (hc _ hs₁ ht.liesIn hfollow (hP _ List.mem_cons_self v ht.lookup_eq)).andThen
      fun r s₂ hs₂ h₂ hr => ?_
    refine Ensures.bind (Ensures.bind ((addTopLevel_spec hs₂).mono ?_))
    rintro _ s₃ ⟨hs₃, hkeep, hnew, hother⟩
    refine ensures_pure ((ih (fun e he => ha e (List.mem_cons_of_mem _ he))
      (fun e he => hP e (List.mem_cons_of_mem _ he)) hs₃).mono ?_)
    rintro _ s₄ ⟨hs₄, hkeep₄, hnew₄⟩
    have hnames : ∀ other, s₂.builder.graph.topLevel? other = st.builder.graph.topLevel? other :=
      fun other => congrArg (·.get? other) (h₁.trans h₂).grows.topLevels_eq
    refine ⟨hs₄, fun other C hC => ?_, fun other ref' v' hlookup hv' hnone => ?_⟩
    · exact hkeep₄ other C (hkeep other C (hC.mono (h₁.trans h₂)))
    · rw [List.lookup_cons] at hlookup
      split at hlookup
      · next heq =>
        obtain rfl := eq_of_beq heq
        cases hlookup
        cases ht.lookup_eq.symm.trans hv'
        exact hkeep₄ _ _ (hnew ((hnames _).trans hnone) _ hr)
      · next hne =>
        have hne : other ≠ name := fun h => by simp [h] at hne
        exact hnew₄ other ref' v' hlookup hv' ((hother other hne).trans ((hnames _).trans hnone))

/-- In a graph that a sound state has come to, types admit what is valid. -/
theorem Sound.backs (hs : Sound ρ doc a [] st) :
    Backs ρ doc st st.builder.graph (Valid ρ.formats doc) := by
  have hadmits : ∀ c w, Valid ρ.formats doc c w → ∀ p r, st.types.get? p = some r →
      doc.follow doc p.path = some c → st.builder.graph.Admits ρ r w := by
    intro c w hw
    -- by induction on validity: what is valid below is admitted, so that promises can be kept
    refine hw.induction (P := fun c w => ∀ p r, st.types.get? p = some r →
      doc.follow doc p.path = some c → st.builder.graph.Admits ρ r w) ?_
    intro c w hw p r hr hc
    refine (hs.promises p r c hr List.not_mem_nil hc).admits _ (fun _ _ _ => rfl) _ ⟨?_, ?_⟩ w hw
    · exact fun p r c hr hc w hw => hw.2 p r hr hc
    · exact fun w hw => absurd (valid_iff.1 hw.1) Bool.false_ne_true
  exact ⟨fun p r c hr hc w hw => hadmits c w hw p r hr hc,
    fun w hw => absurd (valid_iff.1 hw) Bool.false_ne_true⟩

/-- **Conversion rejects no valid value.**  A document without identifiers may refer to itself
    in any way; if its top levels can be converted, and the schemas that they lead to are plain,
    then whatever is valid against a top level is admitted by the type of its name. -/
theorem conversion_keeps_values (ρ : Reading) {doc : Json} {a : Address} {resolver : Resolver}
    {producers : List Producer} {depth : Nat} {allOptional : Bool}
    {references : List (String × Reference)} {st : Conversion} (hserves : resolver.Serves a doc)
    (hkeys : doc.KeysDistinct) (hids : doc.WithoutIds)
    (ha : ∀ e ∈ references, e.2.address = some a)
    (hplain : ∀ e ∈ references, ∀ c, e.2.lookup doc = .ok c →
      ∀ s, Reaches doc c (.object s) → Schema.Plain s)
    (hrun : (addTopLevels producers depth references).run ⟨resolver, .new allOptional, ∅⟩ =
      (.ok (), st))
    {name : String} {ref : Reference} (href : references.lookup name = some ref) {c : Json}
    (hc : ref.lookup doc = .ok c) {v : Json} (hv : Valid ρ.formats doc c v) :
    st.builder.graph.AdmitsAt ρ name v := by
  have hs : Sound ρ doc a [] ⟨resolver, .new allOptional, ∅⟩ :=
    { serves := hserves
      shares := fun _ _ h => (by cases h)
      kind_pending := fun _ h => absurd h List.not_mem_nil
      lt_size := fun _ _ h => (by cases h)
      promises := fun _ _ _ h => (by cases h) }
  have hconverts : Converts ρ doc a
      (fun d => ∃ e ∈ references, ∃ c, e.2.lookup doc = .ok c ∧ Reaches doc c d)
      (typeOf producers depth) := by
    refine converts_typeOf hids hkeys ?_ ?_ depth
    · rintro s ⟨e, he, c, hc, hs⟩
      exact hplain e he c hc s hs
    · rintro s d ⟨e, he, c, hc, hs⟩ hd
      exact ⟨e, he, c, hc, .step hs hd⟩
  obtain ⟨hst, -, hnamed⟩ := addTopLevels_spec hids hconverts ha
    (fun e he c hc => ⟨e, he, c, hc, .refl⟩) hs () st hrun
  obtain ⟨r, hr, hpromise⟩ := hnamed name ref c href hc rfl
  exact ⟨r, hr, hpromise.admits _ (fun _ _ _ => rfl) _ hst.backs v hv⟩

/-! ## A document that refers to itself -/

theorem get?_singleton {k k' : String} {v v' : Json} (h : Schema.get? [(k, v)] k' = some v') :
    k' = k ∧ v' = v := by
  simpa using mem_of_lookup h

/-- A schema of objects in which everything is valid against the schema itself. -/
def forest : Schema := [("additionalProperties", .object [("$ref", .string "#")])]

theorem plain_singleton {k : String} {v : Json} (hk : k ∈ ["additionalProperties", "$ref"])
    (hv : ∀ text, v = .string text → (Reference.parse text).address = none) :
    Schema.Plain [(k, v)] := by
  have hkeys : ∀ {k' v'}, Schema.get? [(k, v)] k' = some v' →
      k' ∈ ["additionalProperties", "$ref"] := fun h => (get?_singleton h).1 ▸ hk
  exact
    { isScalar_enum := fun _ h => absurd (hkeys h) (by decide)
      isScalar_const := fun _ h => absurd (hkeys h) (by decide)
      type_of_const := fun _ _ h => absurd (hkeys h) (by decide)
      required := fun _ h => absurd (hkeys h) (by decide)
      items := fun _ h => absurd (hkeys h) (by decide)
      patternProperties := Option.eq_none_iff_forall_ne_some.2 fun _ h =>
        absurd (hkeys h) (by decide)
      ref := fun text h => hv text (get?_singleton h).2.symm }

theorem reaches_forest {c : Json} (h : Reaches (.object forest) (.object forest) c) :
    c = .object forest ∨ c = .object [("$ref", .string "#")] := by
  induction h with
  | refl => exact .inl rfl
  | step _ hd ih =>
    rcases ih with h | h
    · cases h
      cases hd with
      | property h => cases h
      | additional h => exact .inr (get?_singleton h).2
      | items h => exact absurd (get?_singleton h).1 (by decide)
      | operand ho h => exact absurd ((get?_singleton h).1 ▸ ho) (by decide)
      | ref h => exact absurd (get?_singleton h).1 (by decide)
    · cases h
      cases hd with
      | property h => cases h
      | additional h => exact absurd (get?_singleton h).1 (by decide)
      | items h => exact absurd (get?_singleton h).1 (by decide)
      | operand ho h => exact absurd ((get?_singleton h).1 ▸ ho) (by decide)
      | ref h hc =>
        cases (get?_singleton h).2
        have href : (Reference.parse "#").lookup (.object forest) = .ok (.object forest) := rfl
        exact .inl (Except.ok.inj (hc.symm.trans href))

theorem accepts_singleton {formats : Format → String → Prop} {A : Json → Json → Prop}
    {k : String} {v w : Json} (hk : k ∈ ["additionalProperties", "$ref"])
    (hadditional : k = "additionalProperties" → ∀ fields, w = .object fields →
      ∀ e ∈ fields, A v e.2)
    (href : k = "$ref" → ∀ text, v = .string text →
      ∃ c, (Reference.parse text).lookup doc = .ok c ∧ A c w) :
    Schema.Accepts [(k, v)] formats doc A w := by
  have hkeys : ∀ {k' v'}, Schema.get? [(k, v)] k' = some v' →
      k' ∈ ["additionalProperties", "$ref"] := fun h => (get?_singleton h).1 ▸ hk
  have hnone : ∀ {k'}, k' ∉ ["additionalProperties", "$ref"] → Schema.get? [(k, v)] k' = none :=
    fun h => Option.eq_none_iff_forall_ne_some.2 fun _ h' => h (hkeys h')
  have hdeclared : ∀ name c, Schema.declared? [(k, v)] name ≠ some c := by
    intro name c
    simp [Schema.declared?, hnone]
  have hformat : ∀ f, Schema.format? [(k, v)] ≠ some f := by
    intro f
    simp [Schema.format?, hnone]
  exact
    { type := fun _ h => absurd (hkeys h) (by decide)
      enum := fun _ h => absurd (hkeys h) (by decide)
      const := fun _ h => absurd (hkeys h) (by decide)
      format := fun f _ h => absurd h (hformat f)
      required := fun _ _ h => absurd (hkeys h) (by decide)
      properties := fun _ _ _ _ c h => absurd h (hdeclared _ c)
      additional := fun c fields hc hw e he _ => by
        obtain ⟨hk, rfl⟩ := get?_singleton hc
        exact hadditional hk.symm fields hw e he
      items := fun _ _ h => absurd (hkeys h) (by decide)
      ref := fun text ht => href (get?_singleton ht).1.symm text (get?_singleton ht).2.symm
      allOf := fun _ h => absurd (hkeys h) (by decide)
      oneOf := fun _ h => absurd (hkeys h) (by decide)
      anyOf := fun _ h => absurd (hkeys h) (by decide) }

theorem valid_forest {formats : Format → String → Prop} {fields : Json.Fields}
    (h : ∀ e ∈ fields, Valid formats (.object forest) (.object forest) e.2) :
    Valid formats (.object forest) (.object forest) (.object fields) := by
  refine valid_iff.2 (accepts_singleton (by decide) ?_ fun hk => ?_)
  · rintro - _ ⟨⟩ e he
    refine valid_iff.2 (accepts_singleton (by decide) (fun hk => ?_) ?_)
    · exact absurd hk (by decide)
    · rintro - _ ⟨⟩
      exact ⟨_, rfl, h e he⟩
  · exact absurd hk (by decide)

/-- What becomes of the schema. -/
def forestRun : Except ConversionError Unit × Conversion :=
  (addTopLevels [] 5 [("Forest", ⟨some (.relative "forest.json"), [.root]⟩)]).run
    ⟨.ofFetcher fun _ _ => .ok (.object forest), .new, ∅⟩

/-- An object with an object in it is admitted by the type of the schema. -/
theorem conversion_keeps_forest :
    forestRun.1 = .ok () ∧
      Valid (fun _ _ => False) (.object forest) (.object forest)
        (.object [("tree", .object [])]) ∧
      forestRun.2.builder.graph.AdmitsAt (.closed fun _ _ => False) "Forest"
        (.object [("tree", .object [])]) := by
  have hok : forestRun.1 = .ok () := by
    have h : forestRun.1.isOk = true := by decide +kernel
    cases hrun : forestRun.1 with
    | ok => rfl
    | error e =>
      rw [hrun] at h
      cases h
  have hv : Valid (fun _ _ => False) (.object forest) (.object forest)
      (.object [("tree", .object [])]) :=
    valid_forest fun e he => List.mem_singleton.1 he ▸ valid_forest (by simp)
  have hserves : (Resolver.ofFetcher fun _ _ => .ok (.object forest)).Serves
      (.relative "forest.json") (.object forest) := Resolver.serves_ofFetcher fun _ => rfl
  refine ⟨hok, hv, conversion_keeps_values (.closed fun _ _ => False) hserves ?_ ?_ ?_ ?_
    (Prod.ext hok rfl) rfl rfl hv⟩
  · exact ⟨by decide, ⟨by decide, trivial, trivial⟩, trivial⟩
  · exact ⟨fun _ h => absurd (get?_singleton h).1 (by decide),
      ⟨fun _ h => absurd (get?_singleton h).1 (by decide), trivial, trivial⟩, trivial⟩
  · exact fun e he => List.mem_singleton.1 he ▸ rfl
  · intro e he c hc s hs
    obtain rfl := List.mem_singleton.1 he
    have hroot : (⟨some (.relative "forest.json"), [.root]⟩ : Reference).lookup (.object forest) =
        .ok (.object forest) := rfl
    cases hroot.symm.trans hc
    rcases reaches_forest hs with h | h
    · cases h
      exact plain_singleton (by decide) fun _ h => by cases h
    · cases h
      refine plain_singleton (by decide) fun _ h => ?_
      cases h
      rfl

end SchemaTypes.Conversion
