/-
  Conversion answers what schemas ask for.

  * `Builds`: a step that only builds, for certain requests, with its rules;
  * `Keeps`: a step that leads from an orderly state to one, if it succeeds;
  * `keeps_itemTypes`, `keeps_objectType` and the others: one lemma for each part of a type, given
    that the schemas below are converted so;
  * `keeps_typeOf`, `ensures_addTopLevels`: so are schemas, and top levels.
-/
import SchemaTypes.Proofs.Alike
import SchemaTypes.Proofs.Requests

namespace SchemaTypes.Conversion

open SchemaTypes.Graph

variable {producers : List Producer} {b₀ : Builder} {asked asked' : Requests}
  {st st' : Conversion} {convert : Converter} {s : Schema} {l : Location} {a : Attributes}
  {r : NodeId} {α β : Type}

/-! ## Steps that build -/

/-- If a step succeeds, then it has built what is asked for and done nothing else, with a result
    that satisfies the predicate. -/
def Builds (asked : Requests) (m : ConversionM α) (st : Conversion) (Q : α → Builder → Prop) :
    Prop :=
  Ensures m st fun x st' => ∃ b, st' = { st with builder := b } ∧ st.builder.Supplies asked b ∧ Q x b

namespace Builds

variable {m : ConversionM α} {Q : α → Builder → Prop}

theorem bind {f : α → ConversionM β} {R : β → Builder → Prop} (h : Builds asked m st Q)
    (hf : ∀ x b, st.builder.Supplies asked b → Q x b →
      Builds asked' (f x) { st with builder := b } R) :
    Builds (asked ++ asked') (m >>= f) st R := by
  refine h.seq ?_
  rintro x _ ⟨b, rfl, hb, hx⟩
  refine (hf x b hb hx).mono ?_
  rintro y _ ⟨b', rfl, hb', hy⟩
  exact ⟨b', rfl, hb.trans hb', hy⟩

theorem mono {R : α → Builder → Prop} (h : Builds asked m st Q)
    (hQ : ∀ x b, st.builder.Supplies asked b → Q x b → R x b) : Builds asked m st R :=
  Ensures.mono h fun x _ ⟨b, heq, hb, hx⟩ => ⟨b, heq, hb, hQ x b hb hx⟩

theorem pure (hb : st.builder.Shares) {x : α} (hx : Q x st.builder) :
    Builds [] (Pure.pure x) st Q :=
  ensures_pure ⟨st.builder, rfl, .refl hb, hx⟩

theorem build {f : Builder → α × Builder} (hf : st.builder.Supplies asked (f st.builder).2)
    (hx : Q (f st.builder).1 (f st.builder).2) : Builds asked (build f) st Q :=
  ensures_build ⟨(f st.builder).2, rfl, hf, hx⟩

/-- A part that is asked for only where it is needed. -/
theorem optional_andThen {c : Prop} [Decidable c] {f : List α → ConversionM β}
    {Q : List α → Builder → Prop} {R : β → Conversion → Prop} {m : ConversionM α}
    (hb : st.builder.Shares) (hm : c → Builds asked m st fun x b => Q [x] b)
    (hn : ¬c → Q [] st.builder)
    (hf : ∀ xs b, st.builder.Supplies (if c then asked else []) b → Q xs b →
      Ensures (f xs) { st with builder := b } R) :
    Ensures (if c then do let xs ← Pure.pure [← m]; f xs else do let xs ← Pure.pure []; f xs)
      st R := by
  split
  · next hc =>
    refine (hm hc).seq ?_
    rintro x _ ⟨b, rfl, hb, hx⟩
    exact Ensures.bind (ensures_pure (hf [x] b ((if_pos hc).symm ▸ hb) hx))
  · next hc =>
    exact Ensures.bind (ensures_pure (hf [] st.builder ((if_neg hc).symm ▸ .refl hb) (hn hc)))

/-- A simple type is asked for. -/
theorem primitive {k : Kind} (hb : st.builder.Shares) (hk : k.isSimple = true) :
    Builds [(k, a.constraints)] (Conversion.build (·.primitive k a)) st fun r b =>
      b.Answers [(k, a.constraints)] r := by
  obtain ⟨hsupplies, hprovides⟩ := Builder.supplies_primitive hb hk a
  exact build hsupplies ⟨_, List.mem_singleton_self _, hprovides⟩

end Builds

/-- Several simple types are asked for. -/
theorem builds_mapM_primitive {kinds : List (Primitive × Kind × Attributes)}
    (hk : ∀ e ∈ kinds, e.2.1.isSimple = true) (hb : st.builder.Shares) :
    Builds (kinds.map fun e => (e.2.1, e.2.2.constraints))
      (kinds.mapM fun e => build (·.primitive e.2.1 e.2.2)) st fun rs b =>
        ∀ r ∈ rs, b.Answers (kinds.map fun e => (e.2.1, e.2.2.constraints)) r := by
  induction kinds generalizing st with
  | nil => exact .pure hb fun _ hr => absurd hr List.not_mem_nil
  | cons e kinds ih =>
    rw [List.mapM_cons, List.map_cons, ← List.singleton_append]
    refine (Builds.primitive hb (hk e List.mem_cons_self)).bind fun r b hs hr => ?_
    rw [← List.append_nil (kinds.map fun e => (e.2.1, e.2.2.constraints))]
    refine (ih (fun e he => hk e (List.mem_cons_of_mem _ he)) hs.shares).bind
      fun rs b' hs' hrs => ?_
    refine .pure hs'.shares fun x hx => ?_
    rcases List.mem_cons.1 hx with rfl | hx
    · exact hr.mono hs'.toExtends fun _ => List.mem_append_left _
    · exact (hrs x hx).mono (.refl _) fun _ he => List.mem_append_right _ (by simpa using he)

theorem builds_plainTypes {included : List Primitive} {numbers : Attributes}
    (hb : st.builder.Shares) :
    Builds (Schema.plainTypes included numbers.constraints) (plainTypes included numbers) st
      fun rs b => ∀ r ∈ rs, b.Answers (Schema.plainTypes included numbers.constraints) r := by
  let kinds : List (Primitive × Kind × Attributes) :=
    [(.null, .null, ∅), (.number, .double, numbers), (.integer, .integer, numbers),
      (.boolean, .bool, ∅)]
  have hasked : Schema.plainTypes included numbers.constraints =
      (kinds.filter fun e => decide (e.1 ∈ included)).map fun e => (e.2.1, e.2.2.constraints) := by
    show ((kinds.map fun e => (e.1, e.2.1, e.2.2.constraints)).filter
      fun e => decide (e.1 ∈ included)).map Prod.snd = _
    rw [List.filter_map, List.map_map]
    rfl
  rw [hasked]
  refine builds_mapM_primitive (fun e he => ?_) hb
  have he := (List.mem_filter.1 he).1
  simp only [kinds, List.mem_cons, List.not_mem_nil, or_false] at he
  rcases he with rfl | rfl | rfl | rfl <;> rfl

theorem stringType_eq (s : Schema) (a : Attributes) :
    stringType s a = build (·.primitive s.stringKind a) := by
  unfold stringType Schema.stringKind
  cases s.cases? with
  | some cases => rfl
  | none => cases s.format? <;> rfl

/-! ## Orderly states -/

/-- From an orderly state the step leads to one, if it succeeds, with a result that satisfies the
    predicate. -/
abbrev Keeps (producers : List Producer) (b₀ : Builder) (m : ConversionM α) (st : Conversion)
    (Q : α → Conversion → Prop) : Prop :=
  Upholds (Orderly producers b₀) Grown m st Q

/-- What a step builds is what was still asked for. -/
theorem Builds.keeps {m : ConversionM α} {Q : α → Builder → Prop} (hm : Builds asked' m st Q)
    (hs : Accounted producers b₀ asked st) (hasked : requests producers st = asked ++ asked') :
    Keeps producers b₀ m st fun x st' => Q x st'.builder := by
  refine Ensures.mono hm ?_
  rintro x _ ⟨b, rfl, hb, hx⟩
  have hrequests : requests producers { st with builder := b } = asked ++ asked' := hasked
  exact ⟨⟨hrequests ▸ hs.supply hb⟩, ⟨hb.toExtends, fun _ _ => id, .refl⟩, hx⟩

section

variable (hs : Orderly producers b₀ st)

include hs

/-- Nothing is asked for. -/
theorem keeps_build {f : Builder → α × Builder} (hf : st.builder.Supplies [] (f st.builder).2) :
    Keeps producers b₀ (build f) st fun x st' =>
      x = (f st.builder).1 ∧ st'.builder = (f st.builder).2 :=
  (Builds.build (Q := fun x b => x = (f st.builder).1 ∧ b = (f st.builder).2) hf
    ⟨rfl, rfl⟩).keeps hs.toAccounted (List.append_nil _).symm

theorem keeps_addAttributes (hr : (st.builder.graph.kind r).isScalar = false) :
    Keeps producers b₀ (change (·.addAttributes r a)) st fun _ _ => True :=
  (keeps_build (f := fun b => ((), b.addAttributes r a)) hs
    (Builder.supplies_addAttributes hs.shares hr a)).mono fun _ _ _ _ _ => trivial

/-- A new node that is neither an intersection nor a class. -/
theorem keeps_add {n : Node} (hn : ∀ c ∈ n.kind.children, c < st.builder.graph.size)
    (hi : n.kind.isIntersection = false) (hc : ∀ ps, n.kind ≠ .record ps) :
    Keeps producers b₀ (build (·.add n)) st fun r st' =>
      r < st'.builder.graph.size ∧ st'.builder.graph.kind r = n.kind := by
  have hshared := Builder.shared_add hs.shares hn
  refine (keeps_build hs (Builder.supplies_add hs.shares hn hi hc)).mono ?_
  rintro r st' - - ⟨rfl, hb⟩
  rw [hb]
  exact ⟨hshared.lt_size, hshared.kind_eq⟩

/-- The type of all values is asked for without constraints. -/
theorem keeps_any : Keeps producers b₀ (build (·.primitive .any ∅)) st fun r st' =>
    st'.builder.graph.Outer r := by
  obtain ⟨hsupplies, hprovides⟩ := Builder.supplies_primitive (k := .any) hs.shares rfl ∅
  refine (keeps_build hs (hsupplies.congr fun k hk c => ?_)).mono ?_
  · refine Requests.total_singleton_of_ne ?_
    rintro rfl
    cases hk
  · rintro r st' - - ⟨rfl, hb⟩
    rw [hb]
    exact ⟨hprovides.lt_size, .inl hprovides.kind_eq⟩

/-- References are resolved. -/
theorem keeps_resolving {m : ResolverM α} {Q : α → Resolver → Prop}
    (hm : Passes Resolver.Move (fun _ => True) m st.resolver Q) :
    Keeps producers b₀ (resolving m) st fun x st' => Q x st'.resolver := by
  intro x st' hx
  have hfst := congrArg Prod.fst hx
  have hQ := hm.ensures x (m.run st.resolver).2 (Prod.ext hfst rfl)
  obtain rfl := congrArg Prod.snd hx
  have hlater : st.resolver.Later (m.run st.resolver).2 := hm.reaches
  have hrequests : requests producers { st with resolver := (m.run st.resolver).2 } =
      requests producers st := hs.requests_later hlater
  exact ⟨⟨hrequests ▸ hs.later hlater⟩, ⟨.refl _, fun _ _ => id, hlater⟩, hQ⟩

end

/-! ## Converters -/

/-- The schema is what the canonical reference of the location stands for, unless that has a type
    already. -/
def Denotes (st : Conversion) (l : Location) (v : Json) : Prop :=
  st.resolver.schemaAt? l.canonical = some v ∨ (st.types.get? l.canonical).isSome

theorem Grown.isSome_get? {place : Reference} (h : Grown st st')
    (hplace : (st.types.get? place).isSome) : (st'.types.get? place).isSome := by
  obtain ⟨r, hr⟩ := Option.isSome_iff_exists.1 hplace
  exact Option.isSome_iff_exists.2 ⟨r, h.get?_types place r hr⟩

theorem Denotes.mono {v : Json} (h : st.Denotes l v) (hst : Grown st st') : st'.Denotes l v :=
  h.imp hst.resolver.schemaAt? hst.isSome_get?

/-- The converter keeps states orderly, and enters the types that it makes. -/
def Answering (producers : List Producer) (b₀ : Builder) (convert : Converter) : Prop :=
  ∀ {st : Conversion} {l : Location} {v : Json} (a : Attributes),
    Orderly producers b₀ st → st.Denotes l v →
      Keeps producers b₀ (convert v l a) st fun r st' =>
        st'.builder.graph.Outer r ∧ (st'.types.get? l.canonical).isSome

/-! ## Arrays -/

theorem keeps_itemTypes (hc : Answering producers b₀ convert) {items : List Json} {i : Nat}
    (hitems : ∀ j v, items[j]? = some v →
      st.resolver.schemaAt? (l.push [toString (i + j)]).canonical = some v)
    (hs : Orderly producers b₀ st) :
    Keeps producers b₀ (itemTypes convert l a i items) st fun rs st' =>
      ∀ r ∈ rs, st'.builder.graph.Outer r := by
  induction items generalizing st i with
  | nil => exact .pure hs fun _ hr => absurd hr List.not_mem_nil
  | cons v rest ih =>
    unfold itemTypes
    refine (Upholds.lift hs _).bind fun _ s₁ hs₁ h₁ _ => ?_
    refine (hc a hs₁ (.inl (h₁.resolver.schemaAt? (hitems 0 v rfl)))).bind
      fun r s₂ hs₂ h₂ hr => ?_
    refine (ih (fun j w hj => ?_) hs₂).bind fun rs s₃ hs₃ h₃ hrs => ?_
    · have hj := hitems (j + 1) w hj
      rw [show i + (j + 1) = i + 1 + j by omega] at hj
      exact (h₁.trans h₂).resolver.schemaAt? hj
    · refine .pure hs₃ fun x hx => ?_
      rcases List.mem_cons.1 hx with rfl | hx
      · exact hr.1.mono h₃.builder.grows
      · exact hrs x hx

/-- The items of an array have its canonical reference, with their indices. -/
theorem schemaAt?_item {resolver : Resolver} {items : List Json}
    (h : resolver.schemaAt? l.canonical = some (.array items)) (j : Nat) (v : Json)
    (hv : items[j]? = some v) :
    resolver.schemaAt? (l.push [toString (0 + j)]).canonical = some v := by
  refine Resolver.schemaAt?_push h ?_
  have hchild : (Json.array items).child? (toString j) = some v := by
    rw [Json.child?, Json.position?_toString]
    exact hv
  rw [Nat.zero_add]
  exact Json.part?_of_child? hchild

/-- The value of a keyword has the canonical reference of the schema, with the keyword. -/
theorem schemaAt?_keyword {resolver : Resolver} {k : String} {v : Json}
    (h : resolver.schemaAt? l.canonical = some (.object s)) (hv : s.get? k = some v) :
    resolver.schemaAt? (l.push [k]).canonical = some v :=
  Resolver.schemaAt?_push h (Json.part?_of_child? hv)

/-- A node that is no number and no string, so that attributes may be added to it. -/
def Inert (st : Conversion) (r : NodeId) : Prop :=
  r < st.builder.graph.size ∧ (st.builder.graph.kind r).isScalar = false

theorem inert_of_outer (h : st.builder.graph.Outer r) : st.Inert r := ⟨h.1, h.isScalar_eq⟩

theorem Inert.mono (h : st.Inert r) (hst : Grown st st') : st'.Inert r := by
  refine ⟨Nat.lt_of_lt_of_le h.1 hst.builder.grows.size_le, ?_⟩
  rw [hst.builder.grows.kind_eq r h.1]
  exact h.2

/-- A new node whose children are there. -/
theorem keeps_add_inert {n : Node} (hs : Orderly producers b₀ st)
    (hn : ∀ c ∈ n.kind.children, c < st.builder.graph.size) (hi : n.kind.isIntersection = false)
    (hc : ∀ ps, n.kind ≠ .record ps) (hk : n.kind.isScalar = false) :
    Keeps producers b₀ (build (·.add n)) st fun r st' => st'.Inert r :=
  (keeps_add hs hn hi hc).mono fun _ _ _ _ ⟨hlt, hkind⟩ => ⟨hlt, hkind ▸ hk⟩

theorem keeps_itemType (hc : Answering producers b₀ convert)
    (hplace : st.resolver.schemaAt? l.canonical = some (.object s))
    (hs : Orderly producers b₀ st) :
    Keeps producers b₀ (itemType convert s l a) st fun r st' => st'.Inert r := by
  unfold itemType
  split
  · exact (keeps_any hs).mono fun _ _ _ _ => inert_of_outer
  · next items hitems =>
    refine (keeps_itemTypes hc (schemaAt?_item (schemaAt?_keyword hplace hitems)) hs).bind
      fun rs s₁ hs₁ _ hrs => ?_
    exact keeps_add_inert (n := .new (.union (.ofList rs)) ∅) hs₁
      (fun c hc => (hrs c (SortedSet.mem_ofList.1 hc)).1) rfl (by simp [Node.new]) rfl
  · next v _ hv =>
    split
    · exact (hc a hs (.inl (schemaAt?_keyword hplace hv))).mono
        fun _ _ _ _ hr => inert_of_outer hr.1
    · exact .throw

theorem keeps_arrayType (hc : Answering producers b₀ convert)
    (hplace : st.resolver.schemaAt? l.canonical = some (.object s))
    (hs : Orderly producers b₀ st) :
    Keeps producers b₀ (arrayType convert s l a) st fun r st' => st'.Inert r := by
  unfold arrayType
  refine (keeps_itemType hc hplace hs).bind fun items s₁ hs₁ _ hitems => ?_
  refine (keeps_addAttributes hs₁ hitems.2).bind fun _ s₂ hs₂ h₂ _ => ?_
  exact keeps_add_inert (n := .new (.array items) ∅) hs₂
    (fun c hc => List.mem_singleton.1 hc ▸ (hitems.mono h₂).1) rfl (by simp [Node.new]) rfl

/-! ## Objects -/

/-- The types of properties are places of nodes. -/
def Within (st : Conversion) (ps : Properties) : Prop :=
  ∀ name p, ps.get? name = some p → p.type < st.builder.graph.size

theorem Within.mono {ps : Properties} (h : st.Within ps) (hst : Grown st st') : st'.Within ps :=
  fun name p hp => Nat.lt_of_lt_of_le (h name p hp) hst.builder.grows.size_le

theorem Within.insert {ps : Properties} {p : Property} (h : st.Within ps)
    (hp : p.type < st.builder.graph.size) (name : String) : st.Within (ps.insert name p) := by
  intro name' p' hp'
  rw [OrderedMap.get?_insert] at hp'
  split at hp'
  · cases hp'
    exact hp
  · exact h name' p' hp'

/-- A property that comes a second time has its type already. -/
theorem keeps_declaredProperties (hc : Answering producers b₀ convert) {required : List String}
    {properties fields : Json.Fields} {ps : Properties}
    (hplace : st.resolver.schemaAt? (l.push ["properties"]).canonical = some (.object properties))
    (hfields : ∀ name, (st.types.get? (l.push ["properties", name]).canonical).isSome ∨
      fields.lookup name = properties.lookup name)
    (hs : Orderly producers b₀ st) (hps : st.Within ps) :
    Keeps producers b₀ (declaredProperties convert l required fields ps) st fun ps' st' =>
      st'.Within ps' := by
  induction fields generalizing st ps with
  | nil => exact .pure hs hps
  | cons e rest ih =>
    obtain ⟨name, v⟩ := e
    unfold declaredProperties
    refine (Upholds.lift hs _).bind fun _ s₁ hs₁ h₁ _ => ?_
    have hdenotes : st.Denotes (l.push ["properties", name]) v := by
      refine (hfields name).elim .inr fun hlookup => .inl ?_
      have hv : properties.lookup name = some v := by
        rw [← hlookup]
        exact List.lookup_cons_self
      rw [← List.singleton_append, ← Location.push_push]
      exact schemaAt?_keyword hplace hv
    refine (hc _ hs₁ (hdenotes.mono h₁)).bind fun r s₂ hs₂ h₂ hr => ?_
    obtain ⟨hr, hentered⟩ := hr
    have h₁₂ := h₁.trans h₂
    refine ih (h₁₂.resolver.schemaAt? hplace) (fun other => ?_) hs₂
      ((hps.mono h₁₂).insert (p := ⟨r, decide (name ∉ required)⟩) hr.1 name)
    by_cases heq : other = name
    · exact .inl (heq ▸ hentered)
    · refine (hfields other).imp h₁₂.isSome_get? fun hlookup => ?_
      rw [← hlookup, List.lookup_cons, beq_false_of_ne heq]

theorem keeps_additionalType (hc : Answering producers b₀ convert)
    (hplace : st.resolver.schemaAt? l.canonical = some (.object s))
    (hs : Orderly producers b₀ st) :
    Keeps producers b₀ (additionalType convert s l a) st fun additional st' =>
      ∀ r ∈ additional, r < st'.builder.graph.size := by
  have hsome : ∀ {st' : Conversion} {r x : NodeId}, st'.builder.graph.Outer r → some r = some x →
      x < st'.builder.graph.size := fun hr hx => Option.some.inj hx ▸ hr.1
  unfold additionalType
  split
  · exact .map ((keeps_any hs).mono fun _ _ _ _ hr _ => hsome hr)
  · exact .map ((keeps_any hs).mono fun _ _ _ _ hr _ => hsome hr)
  · exact .pure hs fun _ hr => by cases hr
  · next v _ _ hv =>
    refine (Upholds.lift hs _).bind fun _ s₁ hs₁ h₁ _ => ?_
    have hpart : (Json.object s).part? "additionalProperties" = some v := by
      rw [Json.part?, if_pos rfl, hv]
    have hschema := h₁.resolver.schemaAt? (Resolver.schemaAt?_push hplace hpart)
    exact .map ((hc _ hs₁ (.inl hschema)).mono fun _ _ _ _ hr _ => hsome hr.1)

theorem within_withUndeclared {place : Reference} {required : List String}
    {additional : Option NodeId} {ps ps' : Properties} (hps : st.Within ps)
    (hadd : ∀ r ∈ additional, r < st.builder.graph.size)
    (h : withUndeclared place required additional ps = .ok ps') : st.Within ps' := by
  unfold withUndeclared at h
  split at h
  · cases h
    exact hps
  · cases h
  · next r _ =>
    cases h
    exact List.foldlRecOn (motive := st.Within) _ _ hps fun qs hqs name _ =>
      hqs.insert (p := ⟨r, false⟩) (hadd r rfl) name

/-- The declared properties have the canonical reference of the schema, with `properties`. -/
theorem schemaAt?_properties {resolver : Resolver} {properties : Json.Fields}
    (h : resolver.schemaAt? l.canonical = some (.object s)) {place : Reference}
    (hproperties : s.properties place = .ok properties) (hne : properties ≠ []) :
    resolver.schemaAt? (l.push ["properties"]).canonical = some (.object properties) := by
  unfold Schema.properties at hproperties
  split at hproperties
  · cases hproperties
    exact absurd rfl hne
  · next hget =>
    cases hproperties
    exact schemaAt?_keyword h hget
  · cases hproperties

theorem keeps_objectType (hc : Answering producers b₀ convert)
    (hplace : st.resolver.schemaAt? l.canonical = some (.object s))
    (hs : Orderly producers b₀ st) :
    Keeps producers b₀ (objectType convert s l a) st fun r st' => st'.Inert r := by
  unfold objectType
  refine (Upholds.lift hs _).bind fun required s₁ hs₁ h₁ _ => ?_
  refine (Upholds.lift hs₁ _).bind fun properties s₂ hs₂ h₂ hproperties => ?_
  have hplace₂ := (h₁.trans h₂).resolver.schemaAt? hplace
  dsimp only
  have hempty : s₂.Within ∅ := fun _ _ h => by cases h
  have hdeclared : ∀ required, Keeps producers b₀ (declaredProperties convert l required
      (s.orderedProperties properties) ∅) s₂ fun ps st' => st'.Within ps := by
    intro required
    cases properties with
    | nil =>
      rw [show s.orderedProperties [] = [] from List.mergeSort_nil]
      exact .pure hs₂ hempty
    | cons e rest =>
      exact keeps_declaredProperties hc (schemaAt?_properties hplace₂ hproperties (by simp))
        (fun name => .inr (s.lookup_orderedProperties _ name)) hs₂ hempty
  refine (hdeclared _).bind fun ps s₃ hs₃ h₃ hps => ?_
  refine (keeps_additionalType hc (h₃.resolver.schemaAt? hplace₂) hs₃).bind
    fun additional s₄ hs₄ h₄ hadd => ?_
  refine (Upholds.lift hs₄ _).bind fun ps' s₅ hs₅ h₅ hwith => ?_
  have hadd₅ : ∀ r ∈ additional, r < s₅.builder.graph.size := fun r hr =>
    Nat.lt_of_lt_of_le (hadd r hr) h₅.builder.grows.size_le
  have hps' := within_withUndeclared ((hps.mono h₄).mono h₅) hadd₅ hwith
  refine keeps_add_inert (n := .new (.object (s₅.builder.adjust ps') additional) a) hs₅ ?_ rfl
    (by simp [Node.new]) rfl
  intro c hc
  rcases List.mem_append.1 hc with hc | hc
  · obtain ⟨name, p, hp, rfl⟩ := Properties.exists_of_mem_types hc
    rw [get?_adjust] at hp
    obtain ⟨q, hq, rfl⟩ := Option.map_eq_some_iff.1 hp
    exact hps' name q hq
  · exact hadd₅ c (Option.mem_toList.1 hc)

/-! ## Unions -/

/-- The node is there, and the numbers and strings among its members were asked for. -/
def Suits (st : Conversion) (asked : Requests) (u : NodeId) : Prop :=
  u < st.builder.graph.size ∧ st.builder.Founded asked u

theorem Suits.mono {u : NodeId} (h : st.Suits asked u) (hs : Orderly producers b₀ st)
    (hst : Grown st st') : st'.Suits asked u :=
  ⟨Nat.lt_of_lt_of_le h.1 hst.builder.grows.size_le, h.2.mono h.1 hs.members_lt hst.builder⟩

theorem suits_of_outer (h : st.builder.graph.Outer r) : st.Suits asked r := by
  refine ⟨h.1, fun m hm => ?_⟩
  rw [h.unionMembers_eq] at hm
  exact absurd hm List.not_mem_nil

/-- A union of nodes, those that are numbers or strings being asked for. -/
theorem keeps_union {rs : List NodeId} (hs : Orderly producers b₀ st)
    (hlt : ∀ r ∈ rs, r < st.builder.graph.size)
    (hrs : ∀ r ∈ rs, (st.builder.graph.kind r).isScalar = true → st.builder.Answers asked r) :
    Keeps producers b₀ (build (·.union (.ofList rs) a)) st fun u st' => st'.Suits asked u := by
  refine (keeps_add (n := .new (.union (.ofList rs)) a) hs
    (fun c hc => hlt c (SortedSet.mem_ofList.1 hc)) rfl (by simp [Node.new])).mono ?_
  rintro u st' - hst ⟨hu, hk⟩
  refine ⟨hu, fun m hm hscalar => ?_⟩
  rw [hk] at hm
  have hm : m ∈ rs := SortedSet.mem_ofList.1 hm
  rw [hst.builder.grows.kind_eq m (hlt m hm)] at hscalar
  exact (hrs m hm hscalar).mono hst.builder fun _ => id

/-- A union of types of schemas. -/
theorem keeps_outerUnion {rs : List NodeId} (hs : Orderly producers b₀ st)
    (hrs : ∀ r ∈ rs, st.builder.graph.Outer r) :
    Keeps producers b₀ (build (·.union (.ofList rs) a)) st fun u st' => st'.Suits asked u := by
  refine keeps_union hs (fun r hr => (hrs r hr).1) fun r hr hk => ?_
  rw [(hrs r hr).isScalar_eq] at hk
  cases hk

/-- The simple types of a schema are asked for, and then it goes on. -/
theorem simpleTypes_andThen {included : List Primitive} {numbers strings : Attributes}
    {f : List NodeId → List NodeId → ConversionM β} {R : β → Conversion → Prop}
    (hb : st.builder.Shares)
    (hasked : asked = s.simpleTypes included numbers.constraints strings.constraints)
    (hf : ∀ plain others b, st.builder.Supplies asked b →
      (∀ r ∈ plain ++ others, b.Answers asked r) →
        Ensures (f plain others) { st with builder := b } R) :
    Ensures (do
      let plain ← plainTypes included numbers
      if .string ∈ included then do
        let others ← pure [← stringType s strings]
        f plain others
      else do
        let others ← pure []
        f plain others) st R := by
  subst hasked
  refine (builds_plainTypes hb).seq ?_
  rintro plain _ ⟨b₁, rfl, hb₁, hplain⟩
  let others : Requests :=
    if .string ∈ included then [(s.stringKind, strings.constraints)] else []
  have hstring : .string ∈ included → Builds [(s.stringKind, strings.constraints)]
      (stringType s strings) { st with builder := b₁ } fun r b =>
        ∀ x ∈ [r], b.Answers others x := by
    intro hin
    rw [stringType_eq, show others = _ from if_pos hin]
    exact (Builds.primitive hb₁.shares s.isSimple_stringKind).mono
      fun r b _ hr x hx => List.mem_singleton.1 hx ▸ hr
  refine Builds.optional_andThen (Q := fun rs b => ∀ r ∈ rs, b.Answers others r) hb₁.shares
    hstring (fun _ _ hr => absurd hr List.not_mem_nil) fun rs b hb hrs => ?_
  refine hf plain rs b (hb₁.trans hb) fun r hr => ?_
  rcases List.mem_append.1 hr with hr | hr
  · exact (hplain r hr).mono hb.toExtends fun _ => List.mem_append_left _
  · exact (hrs r hr).mono (.refl b) fun _ => List.mem_append_right _

/-- **The union of what a schema describes itself asks for its simple types.** -/
theorem keeps_ownUnion (hc : Answering producers b₀ convert)
    {allowed : Option (List Primitive)} {produced : List Produced}
    (hplace : st.resolver.schemaAt? l.canonical = some (.object s))
    (hs : Accounted producers b₀ asked st)
    (hasked : asked' = s.simpleTypes (s.included allowed)
      (partOf produced (·.forNumber)).constraints (partOf produced (·.forString)).constraints)
    (hrequests : requests producers st = asked ++ asked') :
    Keeps producers b₀ (ownUnion convert s l allowed produced a) st fun u st' =>
      st'.Suits asked' u := by
  unfold ownUnion
  extract_lets included inferred
  refine simpleTypes_andThen hs.shares hasked fun plain others b hb hanswers => ?_
  have hlt : ∀ r ∈ plain ++ others, r < b.graph.size := fun r hr => by
    obtain ⟨e, -, hp⟩ := hanswers r hr
    exact hp.lt_size
  refine Upholds.continued (r := Grown) ?_ ⟨hb.toExtends, fun _ _ => id, .refl⟩
  have hs₁ : Orderly producers b₀ { st with builder := b } :=
    ⟨(show requests producers { st with builder := b } = _ from hrequests) ▸ hs.supply hb⟩
  generalize hst : ({ st with builder := b } : Conversion) = s₁ at hs₁
  obtain rfl : b = s₁.builder := hst ▸ rfl
  replace hplace : s₁.resolver.schemaAt? l.canonical = some (.object s) := hst ▸ hplace
  refine Upholds.optional (Q := fun rs st' => ∀ r ∈ rs, st'.Inert r) hs₁
    (fun _ => (keeps_arrayType hc hplace hs₁).mono fun r st' _ _ hr x hx => ?_)
    (fun _ _ hr => absurd hr List.not_mem_nil) fun arrays s₂ hs₂ h₂ harrays => ?_
  · exact (List.mem_singleton.1 hx).symm ▸ hr
  refine Upholds.optional (Q := fun rs st' => ∀ r ∈ rs, st'.Inert r) hs₂
    (fun _ => (keeps_objectType hc (h₂.resolver.schemaAt? hplace) hs₂).mono
      fun r st' _ _ hr x hx => ?_)
    (fun _ _ hr => absurd hr List.not_mem_nil) fun objects s₃ hs₃ h₃ hobjects => ?_
  · exact (List.mem_singleton.1 hx).symm ▸ hr
  have hinert : ∀ r ∈ arrays ++ objects, s₃.Inert r := fun r hr =>
    (List.mem_append.1 hr).elim (fun hr => (harrays r hr).mono h₃) (hobjects r)
  have h₁₃ := (h₂.trans h₃).builder
  rw [List.append_assoc (plain ++ others)]
  refine keeps_union hs₃ (fun r hr => ?_) fun r hr hk => ?_
  · rcases List.mem_append.1 hr with hr | hr
    · exact Nat.lt_of_lt_of_le (hlt r hr) h₁₃.grows.size_le
    · exact (hinert r hr).1
  · rcases List.mem_append.1 hr with hr | hr
    · exact (hanswers r hr).mono h₁₃ fun _ => id
    · rw [(hinert r hr).2] at hk
      cases hk

/-! ## References and operands -/

theorem keeps_targetType (hc : Answering producers b₀ convert) {ref : Json}
    (hs : Orderly producers b₀ st) :
    Keeps producers b₀ (targetType convert l a ref) st fun r st' => st'.builder.graph.Outer r := by
  unfold targetType
  split
  · refine (keeps_resolving hs (Resolver.passes_resolve (fun _ _ => trivial) l _)).bind
      fun x s₁ hs₁ _ hfinds => ?_
    exact (hc _ hs₁ (.inl hfinds.shows.schemaAt?)).mono fun _ _ _ _ hr => hr.1
  · exact .throw

theorem keeps_operandTypes (hc : Answering producers b₀ convert) {operation : String}
    {operands : Json} (hplace : st.resolver.schemaAt? l.canonical = some (.object s))
    (hoperands : s.get? operation = some operands) (hs : Orderly producers b₀ st) :
    Keeps producers b₀ (operandTypes convert l a operation operands) st fun rs st' =>
      ∀ r ∈ rs, st'.builder.graph.Outer r := by
  unfold operandTypes
  split
  · exact keeps_itemTypes hc (schemaAt?_item (schemaAt?_keyword hplace hoperands)) hs
  · exact .throw

theorem keeps_forM_addAttributes {es : List (NodeId × Attributes)}
    (hes : ∀ e ∈ es, st.Inert e.1) (hs : Orderly producers b₀ st) :
    Keeps producers b₀ (es.forM fun e => change (·.addAttributes e.1 e.2)) st
      fun _ _ => True := by
  induction es generalizing st with
  | nil => exact .pure hs trivial
  | cons e es ih =>
    refine (keeps_addAttributes hs (hes e List.mem_cons_self).2).bind fun _ s₁ hs₁ h₁ _ => ?_
    exact ih (fun e he => (hes e (List.mem_cons_of_mem _ he)).mono h₁) hs₁

theorem keeps_caseAttributes {members : List NodeId} {produced : List Produced}
    (hr : st.Inert r) (hmembers : ∀ m ∈ members, st.Inert m) (hs : Orderly producers b₀ st) :
    Keeps producers b₀ (caseAttributes l r members produced a) st fun _ _ => True := by
  induction produced generalizing st a with
  | nil => exact .pure hs trivial
  | cons p rest ih =>
    unfold caseAttributes
    refine (keeps_addAttributes hs hr.2).bind fun _ s₁ hs₁ h₁ _ => ?_
    have hr₁ := hr.mono h₁
    have hmembers₁ := fun m hm => (hmembers m hm).mono h₁
    dsimp only
    split
    · exact ih hr₁ hmembers₁ hs₁
    · next cases _ =>
      split
      · exact Ensures.bind ensures_throw
      · refine (keeps_forM_addAttributes (fun e he => ?_) hs₁).bind fun _ s₂ hs₂ h₂ _ => ?_
        · exact hmembers₁ e.1 (List.of_mem_zip he).1
        · exact ih (hr₁.mono h₂) (fun m hm => (hmembers₁ m hm).mono h₂) hs₂

theorem keeps_oneOfType (hc : Answering producers b₀ convert) {producers' : List Producer}
    {included : List Primitive} {operands : Json}
    (hplace : st.resolver.schemaAt? l.canonical = some (.object s))
    (hoperands : s.get? "oneOf" = some operands) (hr : st.Inert r)
    (hs : Orderly producers b₀ st) :
    Keeps producers b₀ (oneOfType convert producers' s l included a r operands) st
      fun u st' => st'.Suits asked u := by
  unfold oneOfType
  refine (keeps_operandTypes hc hplace hoperands hs).bind fun rs s₁ hs₁ h₁ hrs => ?_
  refine (keeps_caseAttributes (hr.mono h₁) (fun m hm => inert_of_outer (hrs m hm)) hs₁).bind
    fun unionAttributes s₂ hs₂ h₂ _ => ?_
  exact keeps_outerUnion hs₂ fun r hr => (hrs r hr).mono h₂.builder.grows

theorem keeps_anyOfType (hc : Answering producers b₀ convert) {operands : Json}
    (hplace : st.resolver.schemaAt? l.canonical = some (.object s))
    (hoperands : s.get? "anyOf" = some operands) (hs : Orderly producers b₀ st) :
    Keeps producers b₀ (anyOfType convert l a operands) st fun u st' => st'.Suits asked u := by
  unfold anyOfType
  refine (keeps_operandTypes hc hplace hoperands hs).bind fun rs s₁ hs₁ _ hrs => ?_
  exact keeps_outerUnion hs₁ hrs

/-! ## Schemas -/

/-- Members of the type of a schema that asks for something. -/
def Suited (asked : Requests) (rs : List NodeId) (st : Conversion) : Prop :=
  ∀ u ∈ rs, st.Suits asked u

namespace Suited

variable {rs rs' : List NodeId}

theorem nil : Suited asked [] st := fun _ hu => absurd hu List.not_mem_nil

theorem singleton {u : NodeId} (h : st.Suits asked u) : Suited asked [u] st := fun _ hx =>
  (List.mem_singleton.1 hx).symm ▸ h

theorem append (h : Suited asked rs st) (h' : Suited asked rs' st) :
    Suited asked (rs ++ rs') st := fun u hu =>
  (List.mem_append.1 hu).elim (h u) (h' u)

theorem mono (h : Suited asked rs st) (hs : Orderly producers b₀ st) (hst : Grown st st') :
    Suited asked rs st' := fun u hu => (h u hu).mono hs hst

end Suited

theorem keeps_ofKeyword {keyword : String} {f : Json → ConversionM (List NodeId)}
    (hs : Orderly producers b₀ st)
    (hf : ∀ v, s.get? keyword = some v → Keeps producers b₀ (f v) st (Suited asked)) :
    Keeps producers b₀ (ofKeyword s keyword f) st (Suited asked) := by
  unfold ofKeyword
  split
  · next v hv => exact hf v hv
  · exact .pure hs .nil

theorem keeps_single {m : ConversionM NodeId}
    (hm : Keeps producers b₀ m st fun u st' => st'.Suits asked u) :
    Keeps producers b₀ (do return [← m]) st (Suited asked) :=
  hm.bind fun _ _ hs₁ _ hu => .pure hs₁ (.singleton hu)

/-- A schema gets an intersection, and what it asks for is asked for. -/
theorem accounted_pended (hs : Orderly producers b₀ st) {place : Reference}
    (hnone : st.types.get? place = none)
    (hplace : st.resolver.schemaAt? place = some (.object s)) (a : Attributes) :
    Accounted producers b₀ (requests producers st) (st.pended place a) ∧
      requests producers (st.pended place a) =
        requests producers st ++ Schema.asked producers s place := by
  have hnew : Builder.Shared st.builder (.intersection ∅) (st.builder.newIntersection a) :=
    Builder.shared_add hs.shares (n := .new (.intersection ∅) a)
      fun _ hc => absurd hc List.not_mem_nil
  have houter : (st.builder.newIntersection a).2.graph.Outer st.builder.graph.size :=
    ⟨hnew.lt_size, .inr (congrArg Kind.isIntersection hnew.kind_eq)⟩
  have hrequests : requests producers (st.pended place a) =
      requests producers st ++ askedAt producers st place := requests_enter hnone
  refine ⟨(hs.toAccounted.pend a).enter hnone houter hplace, hrequests.trans ?_⟩
  simp only [askedAt, hplace]

theorem grown_pended (hs : Orderly producers b₀ st) {place : Reference}
    (hnone : st.types.get? place = none) (a : Attributes) : Grown st (st.pended place a) := by
  have hextends : st.builder.Extends (st.builder.newIntersection a).2 :=
    Builder.extends_add hs.shares (n := .new (.intersection ∅) a)
      fun _ hc => absurd hc List.not_mem_nil
  have hbuilt : Grown st { st with builder := (st.builder.newIntersection a).2 } :=
    ⟨hextends, fun _ _ => id, .refl⟩
  exact hbuilt.trans (.enter hnone)

/-- The type of a schema gets its members. -/
theorem orderly_settled (hs : Orderly producers b₀ st) {place : Reference} {rs : List NodeId}
    (hk : st.builder.graph.kind r = .intersection ∅) (hr : st.types.get? place = some r)
    (hrs : Suited (st.askedAt producers place) rs st) :
    Orderly producers b₀ (st.settled r rs) :=
  ⟨hs.toAccounted.settled hk hr (fun u hu => (hrs u hu).1) fun u hu => (hrs u hu).2⟩

theorem keeps_schemaType (hc : Answering producers b₀ convert)
    (hplace : st.resolver.schemaAt? l.canonical = some (.object s))
    (hnone : st.types.get? l.canonical = none) (hs : Orderly producers b₀ st) :
    Keeps producers b₀ (schemaType convert producers s l a) st fun r st' =>
      st'.builder.graph.Outer r ∧ st'.types.get? l.canonical = some r := by
  unfold schemaType
  refine Ensures.bind (ensures_lift fun allowed hallowed => ?_)
  extract_lets included produced
  refine Ensures.bind (ensures_lift fun attributes _ => ?_)
  refine Ensures.bind (ensures_build ?_)
  refine Ensures.bind (ensures_modify ?_)
  let asked := Schema.asked producers s l.canonical
  let r := st.builder.graph.size
  obtain ⟨hs₀, hrequests⟩ := accounted_pended hs hnone hplace attributes
  have h₀ := grown_pended hs hnone attributes
  have hr : (st.pended l.canonical attributes).types.get? l.canonical = some r :=
    (OrderedMap.get?_insert ..).trans (if_pos rfl)
  have hk : (st.pended l.canonical attributes).builder.graph.kind r = .intersection ∅ :=
    (kind_push st.builder.graph _ _).trans (if_pos rfl)
  replace hplace : (st.pended l.canonical attributes).resolver.schemaAt? l.canonical =
      some (.object s) := hplace
  show Ensures _ (st.pended l.canonical attributes) _
  generalize st.pended l.canonical attributes = st₀ at hs₀ hrequests h₀ hr hk hplace
  refine Upholds.optional_andThen (r := Grown) (I := Orderly producers b₀) (Q := Suited asked)
    (fun hcv => ?_) (fun hcv => ?_) (.refl _) fun own s₁ hs₁ h₁ hown => ?_
  · exact (keeps_ownUnion hc hplace hs₀ (Schema.asked_of_constrainsValues hallowed hcv)
      hrequests).mono fun u _ _ _ hu => .singleton hu
  · rw [Schema.asked_of_not_constrainsValues hallowed hcv, List.append_nil] at hrequests
    exact ⟨⟨hrequests ▸ hs₀⟩, .nil⟩
  have hplace₁ := h₁.resolver.schemaAt? hplace
  refine Upholds.andThen (Q := Suited asked) (keeps_ofKeyword hs₁ fun v _ => keeps_single
    ((keeps_targetType hc hs₁).mono fun _ _ _ _ => suits_of_outer))
    fun target s₂ hs₂ h₂ htarget => ?_
  have hplace₂ := h₂.resolver.schemaAt? hplace₁
  refine Upholds.andThen (Q := Suited asked) (keeps_ofKeyword hs₂ fun v hv =>
    (keeps_operandTypes hc hplace₂ hv hs₂).mono fun _ _ _ _ h u hu => suits_of_outer (h u hu))
    fun all s₃ hs₃ h₃ hall => ?_
  have hplace₃ := h₃.resolver.schemaAt? hplace₂
  have h₀₃ := (h₁.trans h₂).trans h₃
  have hinert : s₃.Inert r := inert_of_outer (hs₃.outer _ _ (h₀₃.get?_types _ _ hr))
  refine Upholds.andThen (Q := Suited asked) (keeps_ofKeyword hs₃ fun v hv => keeps_single
    (keeps_oneOfType hc hplace₃ hv hinert hs₃)) fun one s₄ hs₄ h₄ hone => ?_
  refine Upholds.andThen (Q := Suited asked) (keeps_ofKeyword hs₄ fun v hv => keeps_single
    (keeps_anyOfType hc (h₄.resolver.schemaAt? hplace₃) hv hs₄)) fun any s₅ hs₅ h₅ hany => ?_
  refine Ensures.bind (ensures_modify (ensures_pure ?_))
  have h₃₅ := h₄.trans h₅
  have h₀₅ := h₀₃.trans h₃₅
  have hsuited : Suited asked (own ++ target ++ all ++ one ++ any) s₅ :=
    ((((hown.mono hs₁ (h₂.trans (h₃.trans h₃₅))).append (htarget.mono hs₂ (h₃.trans h₃₅))).append
      (hall.mono hs₃ h₃₅)).append (hone.mono hs₄ h₅)).append hany
  have hk₅ : s₅.builder.graph.kind r = .intersection ∅ :=
    (h₀₅.builder.grows.kind_eq r (lt_size_of_isIntersection (congrArg _ hk))).trans hk
  have hr₅ := h₀₅.get?_types _ _ hr
  have hasked : s₅.askedAt producers l.canonical = asked := by
    simp only [askedAt, h₀₅.resolver.schemaAt? hplace, asked]
  have hsettled := orderly_settled hs₅ hk₅ hr₅ (hasked.symm ▸ hsuited)
  refine ⟨hsettled, ?_, hsettled.outer _ _ hr₅, hr₅⟩
  exact (h₀.trans h₀₅).settled (Nat.le_refl _) hk₅ fun u hu => (hsuited u hu).1

/-- A type is entered for a schema that asks for nothing. -/
theorem orderly_enter (hs : Orderly producers b₀ st) {place : Reference}
    (hnone : st.types.get? place = none) (hr : st.builder.graph.Outer r) {v : Json}
    (hv : st.resolver.schemaAt? place = some v) (hasked : st.askedAt producers place = []) :
    Orderly producers b₀ { st with types := st.types.insert place r } := by
  have hrequests : requests producers { st with types := st.types.insert place r } =
      requests producers st := by
    rw [requests_enter hnone, hasked, List.append_nil]
  exact ⟨hrequests ▸ hs.toAccounted.enter hnone hr hv⟩

/-- The type of all values is entered for a schema that admits them. -/
theorem keeps_true {place : Reference} (hs : Orderly producers b₀ st)
    (hnone : st.types.get? place = none)
    (hplace : st.resolver.schemaAt? place = some (.bool true)) :
    Keeps producers b₀ (do let r ← build (·.primitive .any ∅); enter place r; return r) st
      fun r st' => st'.builder.graph.Outer r ∧ (st'.types.get? place).isSome := by
  let st₁ : Conversion := { st with builder := (st.builder.primitive .any ∅).2 }
  obtain ⟨hs₁, h₁, hr⟩ := keeps_any hs (st.builder.primitive .any ∅).1 st₁ rfl
  refine Ensures.bind (ensures_build (Ensures.bind (ensures_modify (ensures_pure ?_))))
  have hasked : st₁.askedAt producers place = [] := by
    simp only [askedAt, show st₁.resolver.schemaAt? place = _ from hplace]
  refine ⟨orderly_enter hs₁ hnone hr hplace hasked, h₁.trans (.enter hnone), hr, ?_⟩
  exact Option.isSome_of_eq_some ((OrderedMap.get?_insert ..).trans (if_pos rfl))

/-- **Schemas are converted so**, at any depth. -/
theorem keeps_typeOf (depth : Nat) : Answering producers b₀ (typeOf producers depth) := by
  induction depth with
  | zero => exact fun _ _ _ => .throw
  | succ depth ih =>
    intro st l v a hs hl
    unfold typeOf
    refine Ensures.bind (ensures_known ?_)
    cases hknown : st.types.get? l.canonical with
    | some r => exact Upholds.pure hs ⟨hs.outer _ r hknown, Option.isSome_of_eq_some hknown⟩
    | none =>
      have hplace : st.resolver.schemaAt? l.canonical = some v :=
        hl.resolve_right (by rw [hknown]; simp)
      dsimp only
      split
      · exact keeps_true hs hknown hplace
      · exact Ensures.bind ensures_throw
      · refine Ensures.bind (ensures_lift fun s hv => ?_)
        obtain rfl := Reference.checkObject_eq_ok.1 hv
        refine Ensures.bind (ensures_lift fun l' hl' => ?_)
        have hcanonical := canonical_withId hl'
        refine (keeps_schemaType ih (hcanonical ▸ hplace) (hcanonical ▸ hknown) hs).andThen
          fun r s₁ hs₁ h₁ hr => ?_
        obtain ⟨hr, hentered⟩ := hr
        rw [hcanonical] at hentered
        intro x st' hx
        rw [run_enter_pure hentered] at hx
        cases hx
        exact ⟨hs₁, h₁, hr, Option.isSome_of_eq_some hentered⟩

/-! ## Top levels -/

theorem orderly_start {resolver : Resolver} {b : Builder} (hb : b.Tidy) :
    Orderly producers b ⟨resolver, b, ∅⟩ where
  shares := hb.shares
  wellFormed := hb.wellFormed
  classless := hb.classless
  outer _ _ h := by cases h
  schemaAt _ _ h := by cases h
  constraintsOf_eq _ _ _ := rfl
  founded r hr hne := by
    rw [kind_eq_nothing_of_le hr] at hne
    exact absurd rfl hne

theorem orderly_withTopLevels (hs : Orderly producers b₀ st)
    {topLevels : OrderedMap String NodeId}
    (ht : ∀ r ∈ topLevels.values, r < st.builder.graph.size) :
    Orderly producers b₀ (st.withTopLevels topLevels) where
  shares := hs.shares
  wellFormed := ⟨hs.wellFormed.1, ht⟩
  classless := hs.classless
  outer := hs.outer
  schemaAt := hs.schemaAt
  constraintsOf_eq := hs.constraintsOf_eq
  founded r hr hne := by
    obtain ⟨place, hplace, hf⟩ := hs.founded r hr hne
    refine ⟨place, hplace, fun u hu m hm hk => ?_⟩
    obtain ⟨e, he, hp⟩ := hf u hu m hm hk
    exact ⟨e, he, hp.lt_size, hp.kind_eq, hp.shared, hp.listed⟩

theorem ensures_addTopLevel {name : String} (hs : Orderly producers b₀ st)
    (hr : r < st.builder.graph.size) :
    Ensures (build (·.addTopLevel name r)) st fun _ st' => Orderly producers b₀ st' := by
  refine ensures_build ?_
  by_cases h : st.builder.graph.topLevels.contains name = true
  · have hadd : st.builder.addTopLevel name r = (false, st.builder) := by
      simp [Builder.addTopLevel, Graph.addTopLevel, h]
    rw [hadd]
    exact hs
  · have hadd : (st.builder.addTopLevel name r).2 =
        (st.withTopLevels (st.builder.graph.topLevels.insert name r)).builder := by
      simp [Builder.addTopLevel, Graph.addTopLevel, h, withTopLevels]
    rw [hadd]
    refine orderly_withTopLevels hs fun x hx => ?_
    obtain ⟨⟨key, _⟩, hentry, rfl⟩ := List.mem_map.1 hx
    have hget := OrderedMap.get?_eq_some_iff.2 hentry
    rw [OrderedMap.get?_insert] at hget
    split at hget
    · cases hget
      exact hr
    · exact hs.wellFormed.lt_of_topLevel hget

/-- **Top levels are converted to an orderly state**, if that succeeds. -/
theorem ensures_addTopLevels (depth : Nat) {references : List (String × Reference)}
    (hs : Orderly producers b₀ st) :
    Ensures (addTopLevels producers depth references) st fun _ st' =>
      Orderly producers b₀ st' := by
  induction references generalizing st with
  | nil => exact ensures_pure hs
  | cons e rest ih =>
    obtain ⟨name, ref⟩ := e
    unfold addTopLevels
    refine (keeps_resolving hs (Resolver.passes_resolveTopLevel (fun _ _ => trivial) ref)).andThen
      fun x s₁ hs₁ _ hfinds => ?_
    obtain ⟨v, l⟩ := x
    refine (keeps_typeOf depth _ hs₁ (.inl hfinds.shows.schemaAt?)).andThen
      fun r s₂ hs₂ _ hr => ?_
    exact (ensures_addTopLevel hs₂ hr.1.1).discard.seq fun _ s₃ hs₃ => ih hs₃

end SchemaTypes.Conversion
