/-
  Converters that do the same.

  The types of a schema are made of the types of the schemas in it, and of those that it refers to.
  Two converters that do the same for these do the same for the schema: they lead to one state by
  the moves of a conversion, whether they fail or not.

  * `Alike`, `ConvertsAlike`: two versions of a step, and two converters, that do the same;
  * `alike_itemTypes`, `alike_objectType` and the others: one lemma for each part of a type;
  * `agrees_schemaType`, `agrees_typeOf`, `alike_addTopLevels`: so it is for schemas, and for top
    levels.
-/
import SchemaTypes.Proofs.Moves

namespace SchemaTypes

/-! ## Errors of keywords -/

section

variable {e : ConversionError} {s : Schema} {place : Reference}

theorem exists_of_mapM_error {ε α β : Type} {f : α → Except ε β} {xs : List α} {e : ε}
    (h : xs.mapM f = .error e) : ∃ x ∈ xs, f x = .error e := by
  induction xs with
  | nil => cases h
  | cons x xs ih =>
    rw [List.mapM_cons] at h
    rcases except_bind_eq_error.1 h with h | ⟨y, -, h⟩
    · exact ⟨x, List.mem_cons_self, h⟩
    · rcases except_bind_eq_error.1 h with h | ⟨ys, -, h⟩
      · obtain ⟨x', hx', hf⟩ := ih h
        exact ⟨x', List.mem_cons_of_mem x hx', hf⟩
      · cases h

theorem ordinary_typeNames {v : Json} (h : Schema.typeNames place v = .error e) :
    e.Ordinary := by
  unfold Schema.typeNames at h
  split at h
  · cases h
  · obtain ⟨item, -, h⟩ := exists_of_mapM_error h
    split at h <;> cases h
    exact fun _ hp => by cases hp
  · cases h
    exact fun _ hp => by cases hp

theorem ordinary_types? (h : s.types? place = .error e) : e.Ordinary := by
  unfold Schema.types? at h
  split at h
  · cases h
  · rcases except_bind_eq_error.1 h with h | ⟨names, -, h⟩
    · exact ordinary_typeNames h
    · split at h
      · cases h
        exact fun _ hp => by cases hp
      · rcases except_bind_eq_error.1 h with h | ⟨types, -, h⟩
        · obtain ⟨name, -, h⟩ := exists_of_mapM_error h
          split at h <;> cases h
          exact fun _ hp => by cases hp
        · cases h

theorem ordinary_properties (h : s.properties place = .error e) : e.Ordinary := by
  unfold Schema.properties at h
  split at h <;> cases h
  exact fun _ hp => by cases hp

theorem ordinary_required (h : s.required place = .error e) : e.Ordinary := by
  unfold Schema.required at h
  split at h
  · cases h
  · cases h
  · obtain ⟨item, -, h⟩ := exists_of_mapM_error h
    split at h <;> cases h
    exact fun _ hp => by cases hp
  · cases h
    exact fun _ hp => by cases hp

theorem ordinary_withUndeclared {required : List String} {additional : Option NodeId}
    {ps : Properties} (h : Conversion.withUndeclared place required additional ps = .error e) :
    e.Ordinary := by
  unfold Conversion.withUndeclared at h
  split at h <;> cases h
  exact fun _ hp => by cases hp

theorem ordinary_typeAttributes {produced : List Produced} {a : Attributes}
    (h : Conversion.typeAttributes s place produced a = .error e) : e.Ordinary := by
  unfold Conversion.typeAttributes at h
  split at h
  · cases h
  · split at h <;> cases h
    exact fun _ hp => by cases hp

end

namespace Conversion

variable {P : ConversionError → Prop} {α β : Type} {st st' : Conversion}
  {convert convert' : Converter} {s : Schema} {l : Location} {a : Attributes}

/-! ## Steps that do the same -/

/-- Two versions of a step lead to one state, by moves. -/
abbrev Alike (P : ConversionError → Prop) (m m' : ConversionM α) (st : Conversion) : Prop :=
  Agrees Move P m m' st fun _ _ => True

theorem alike_build {f : Builder → α × Builder} (hf : ∀ b : Builder, b.Develops (f b).2) :
    Alike P (build f) (build f) st :=
  Passes.modifyGet (.single (.build (hf st.builder))) trivial

theorem alike_change {f : Builder → Builder} (hf : ∀ b : Builder, b.Develops (f b)) :
    Alike P (change f) (change f) st :=
  Passes.modify (.single (.build (hf st.builder))) trivial

theorem alike_lift {x : Except ConversionError α} (hx : ∀ e, x = .error e → P e) :
    Alike P (liftM x) (liftM x) st :=
  Passes.lift hx fun _ _ => trivial

theorem run_resolving (m : ResolverM α) : (resolving m).run st =
    ((m.run st.resolver).1, { st with resolver := (m.run st.resolver).2 }) := rfl

theorem passes_resolving {m : ResolverM α} {Q : α → Resolver → Prop}
    (hm : Passes Resolver.Move P m st.resolver Q) :
    Passes Move P (resolving m) st fun x st' => Q x st'.resolver := by
  have hrun : (resolving m).run st = ((m.run st.resolver).1.mapError id,
      { st with resolver := (m.run st.resolver).2 }) := by
    rw [run_resolving]
    cases (m.run st.resolver).1 <;> rfl
  exact hm.of_part ({ st with resolver := · }) hrun (Later.of_resolver hm.reaches) (fun _ => id)
    fun _ _ => id

/-- A part of a type that is made only where it is needed. -/
theorem alike_optional {c : Prop} [Decidable c] {m m' : ConversionM NodeId}
    {f f' : List NodeId → ConversionM β} {R : β → Conversion → Prop} (hm : c → Alike P m m' st)
    (hf : ∀ rs st', st.Later st' → Agrees Move P (f rs) (f' rs) st' R) :
    Agrees Move P
      (if c then do let rs ← Pure.pure [← m]; f rs else do let rs ← Pure.pure []; f rs)
      (if c then do let rs ← Pure.pure [← m']; f' rs else do let rs ← Pure.pure []; f' rs)
      st R := by
  split
  · next hc =>
    refine (hm hc).bind fun r st₁ h₁ _ => ?_
    exact (Passes.pure (Q := fun rs st₂ => st₁ = st₂) rfl).bind fun rs st₂ h₂ _ =>
      hf rs st₂ (h₁.trans h₂)
  · exact (Passes.pure (Q := fun _ _ => True) trivial).bind fun rs st₁ h₁ _ => hf rs st₁ h₁

/-- Two converters do the same for a schema, whatever becomes of the conversion first. -/
def ConvertsAlike (P : ConversionError → Prop) (convert convert' : Converter) (st : Conversion)
    (v : Json) : Prop :=
  ∀ st', st.Later st' → ∀ l a, Alike P (convert v l a) (convert' v l a) st'

theorem ConvertsAlike.later {v : Json} (h : ConvertsAlike P convert convert' st v)
    (hst : st.Later st') : ConvertsAlike P convert convert' st' v :=
  fun st'' h'' => h st'' (hst.trans h'')

/-- They do so for all that lies in a schema. -/
def ConvertsBelow (P : ConversionError → Prop) (convert convert' : Converter) (st : Conversion)
    (s : Schema) : Prop :=
  ∀ v, Json.Below (.object s) v → ConvertsAlike P convert convert' st v

theorem ConvertsBelow.later (h : ConvertsBelow P convert convert' st s) (hst : st.Later st') :
    ConvertsBelow P convert convert' st' s :=
  fun v hv => (h v hv).later hst

/-! ## Arrays -/

theorem alike_itemTypes (hP : ∀ e, e.Ordinary → P e) {items : List Json} {i : Nat}
    (h : ∀ v ∈ items, ConvertsAlike P convert convert' st v) :
    Alike P (itemTypes convert l a i items) (itemTypes convert' l a i items) st := by
  induction items generalizing st i with
  | nil => exact Passes.pure trivial
  | cons v items ih =>
    unfold itemTypes
    refine (alike_lift fun e he => hP e (plain_checkSchema he).1).bind fun _ st₁ h₁ _ => ?_
    refine (h v List.mem_cons_self st₁ h₁ _ _).bind fun r st₂ h₂ _ => ?_
    refine (ih fun w hw => ?_).bind fun rs st₃ _ _ => Passes.pure trivial
    exact (h w (List.mem_cons_of_mem v hw)).later (h₁.trans h₂)

theorem alike_itemType (hP : ∀ e, e.Ordinary → P e)
    (h : ConvertsBelow P convert convert' st s) :
    Alike P (itemType convert s l a) (itemType convert' s l a) st := by
  unfold itemType
  split
  · exact alike_build fun _ => Builder.develops_primitive rfl _
  · next items hitems =>
    refine (alike_itemTypes hP fun v hv => h v ?_).bind fun rs st₁ _ _ => ?_
    · exact (Schema.below_of_get? hitems).item hv
    · exact alike_build fun _ => Builder.develops_add rfl
  · next v _ hv =>
    split
    · exact h v (Schema.below_of_get? hv) st .refl _ _
    · exact Passes.throw (hP _ fun _ hp => by cases hp)

theorem alike_arrayType (hP : ∀ e, e.Ordinary → P e)
    (h : ConvertsBelow P convert convert' st s) :
    Alike P (arrayType convert s l a) (arrayType convert' s l a) st := by
  unfold arrayType
  refine (alike_itemType hP h).bind fun items st₁ _ _ => ?_
  refine (alike_change fun _ => Builder.develops_addAttributes _ _).bind fun _ st₂ _ _ => ?_
  exact alike_build fun _ => Builder.develops_add rfl

/-! ## Objects -/

theorem alike_declaredProperties (hP : ∀ e, e.Ordinary → P e) {required : List String}
    {fields : Json.Fields} {ps : Properties}
    (h : ∀ e ∈ fields, ConvertsAlike P convert convert' st e.2) :
    Alike P (declaredProperties convert l required fields ps)
      (declaredProperties convert' l required fields ps) st := by
  induction fields generalizing st ps with
  | nil => exact Passes.pure trivial
  | cons e fields ih =>
    obtain ⟨name, v⟩ := e
    unfold declaredProperties
    refine (alike_lift fun e he => hP e (plain_checkSchema he).1).bind fun _ st₁ h₁ _ => ?_
    refine (h (name, v) List.mem_cons_self st₁ h₁ _ _).bind fun r st₂ h₂ _ => ?_
    exact ih fun e he => (h e (List.mem_cons_of_mem _ he)).later (h₁.trans h₂)

theorem alike_additionalType (hP : ∀ e, e.Ordinary → P e)
    (h : ConvertsBelow P convert convert' st s) :
    Alike P (additionalType convert s l a) (additionalType convert' s l a) st := by
  have hany : Alike P (some <$> build (·.primitive .any ∅)) (some <$> build (·.primitive .any ∅))
      st := (alike_build fun _ => Builder.develops_primitive rfl _).map
  unfold additionalType
  split
  · exact hany
  · exact hany
  · exact Passes.pure trivial
  · next v _ _ hv =>
    refine (alike_lift fun e he => hP e (plain_checkSchema he).1).bind fun _ st₁ h₁ _ => ?_
    exact (h v (Schema.below_additional? hv) st₁ h₁ _ _).map

theorem alike_objectType (hP : ∀ e, e.Ordinary → P e)
    (h : ConvertsBelow P convert convert' st s) :
    Alike P (objectType convert s l a) (objectType convert' s l a) st := by
  unfold objectType
  refine (alike_lift fun e he => hP e (ordinary_required he)).bind fun required st₁ h₁ _ => ?_
  refine (Passes.lift (Q := fun properties _ => s.properties l.canonical = .ok properties)
    (fun e he => hP e (ordinary_properties he)) fun _ => id).bind fun properties st₂ h₂ hps => ?_
  dsimp only
  have hordered : ∀ e ∈ s.orderedProperties properties, e ∈ properties := fun e he =>
    (List.mergeSort_perm _ _).mem_iff.1 he
  refine (alike_declaredProperties hP fun e he => ?_).bind fun ps st₃ h₃ _ => ?_
  · exact (h e.2 (Schema.below_properties hps (hordered e he))).later (h₁.trans h₂)
  have h₁₃ := (h₁.trans h₂).trans h₃
  refine (alike_additionalType hP (h.later h₁₃)).bind fun additional st₄ _ _ => ?_
  refine (alike_lift fun e he => hP e (ordinary_withUndeclared he)).bind fun ps st₅ _ _ => ?_
  exact alike_build fun _ => Builder.develops_add rfl

/-! ## Members -/

theorem alike_mapM_primitive {kinds : List (Primitive × Kind × Attributes)}
    (hk : ∀ e ∈ kinds, e.2.1.isIntersection = false) :
    Alike P (kinds.mapM fun e => build (·.primitive e.2.1 e.2.2))
      (kinds.mapM fun e => build (·.primitive e.2.1 e.2.2)) st := by
  induction kinds generalizing st with
  | nil => exact Passes.pure trivial
  | cons e kinds ih =>
    rw [List.mapM_cons]
    have he := hk e List.mem_cons_self
    refine (alike_build fun _ => Builder.develops_primitive he _).bind fun r st₁ _ _ => ?_
    refine (ih fun e he => hk e (List.mem_cons_of_mem _ he)).bind fun rs st₂ _ _ => ?_
    exact Passes.pure trivial

theorem alike_plainTypes {included : List Primitive} {numbers : Attributes} :
    Alike P (plainTypes included numbers) (plainTypes included numbers) st := by
  unfold plainTypes
  refine alike_mapM_primitive fun e he => ?_
  have he := (List.mem_filter.1 he).1
  simp only [List.mem_cons, List.not_mem_nil, or_false] at he
  rcases he with rfl | rfl | rfl | rfl <;> rfl

theorem alike_stringType : Alike P (stringType s a) (stringType s a) st := by
  unfold stringType
  split <;> exact alike_build fun _ => Builder.develops_primitive rfl _

theorem alike_ownUnion (hP : ∀ e, e.Ordinary → P e) {allowed : Option (List Primitive)}
    {produced : List Produced} (h : ConvertsBelow P convert convert' st s) :
    Alike P (ownUnion convert s l allowed produced a) (ownUnion convert' s l allowed produced a)
      st := by
  unfold ownUnion
  dsimp only
  refine alike_plainTypes.bind fun plain st₁ h₁ _ => ?_
  refine alike_optional (fun _ => alike_stringType) fun strings st₂ h₂ => ?_
  have h₁₂ := h₁.trans h₂
  refine alike_optional (fun _ => alike_arrayType hP (h.later h₁₂)) fun arrays st₃ h₃ => ?_
  have h₁₃ := h₁₂.trans h₃
  refine alike_optional (fun _ => alike_objectType hP (h.later h₁₃)) fun objects st₄ _ => ?_
  exact alike_build fun _ => Builder.develops_add rfl

/-! ## References and operands -/

/-- Two converters do the same for whatever `$ref` is found to lead to. -/
def ConvertsTarget (P : ConversionError → Prop) (convert convert' : Converter) (st : Conversion)
    (s : Schema) : Prop :=
  ∀ st', st.Later st' → ∀ text, s.get? "$ref" = some (.string text) →
    ∀ v l, st'.resolver.Finds (Reference.parse text) l v →
      ∀ a, Alike P (convert v l a) (convert' v l a) st'

theorem ConvertsTarget.later (h : ConvertsTarget P convert convert' st s) (hst : st.Later st') :
    ConvertsTarget P convert convert' st' s :=
  fun st'' h'' => h st'' (hst.trans h'')

theorem alike_targetType (hP : ∀ e, e.Ordinary → P e) {ref : Json}
    (href : s.get? "$ref" = some ref) (h : ConvertsTarget P convert convert' st s) :
    Alike P (targetType convert l a ref) (targetType convert' l a ref) st := by
  unfold targetType
  split
  · next text =>
    refine (passes_resolving (Resolver.passes_resolve hP l _)).bind fun x st₁ h₁ hfinds => ?_
    exact h st₁ h₁ text href x.1 x.2 hfinds _
  · exact Passes.throw (hP _ fun _ hp => by cases hp)

theorem alike_operandTypes (hP : ∀ e, e.Ordinary → P e) {operation : String} {operands : Json}
    (hoperands : s.get? operation = some operands) (h : ConvertsBelow P convert convert' st s) :
    Alike P (operandTypes convert l a operation operands)
      (operandTypes convert' l a operation operands) st := by
  unfold operandTypes
  split
  · next items =>
    exact alike_itemTypes hP fun v hv => h v ((Schema.below_of_get? hoperands).item hv)
  · exact Passes.throw (hP _ fun _ hp => by cases hp)

theorem alike_forM_addAttributes {es : List (NodeId × Attributes)} :
    Alike P (es.forM fun e => change (·.addAttributes e.1 e.2))
      (es.forM fun e => change (·.addAttributes e.1 e.2)) st :=
  Passes.forM fun _ _ => alike_change fun _ => Builder.develops_addAttributes _ _

theorem alike_caseAttributes (hP : ∀ e, e.Ordinary → P e) {r : NodeId} {members : List NodeId}
    {produced : List Produced} :
    Alike P (caseAttributes l r members produced a) (caseAttributes l r members produced a) st := by
  induction produced generalizing st a with
  | nil => exact Passes.pure trivial
  | cons p rest ih =>
    unfold caseAttributes
    refine (alike_change fun _ => Builder.develops_addAttributes _ _).bind fun _ st₁ _ _ => ?_
    dsimp only
    split
    · exact ih
    · split
      · exact (Passes.throw (Q := fun _ _ => True) (hP _ fun _ hp => by cases hp)).bind
          fun _ _ _ _ => alike_forM_addAttributes.bind fun _ _ _ _ => ih
      · exact alike_forM_addAttributes.bind fun _ _ _ _ => ih

theorem alike_oneOfType (hP : ∀ e, e.Ordinary → P e) {producers : List Producer}
    {included : List Primitive} {r : NodeId} {operands : Json}
    (hoperands : s.get? "oneOf" = some operands) (h : ConvertsBelow P convert convert' st s) :
    Alike P (oneOfType convert producers s l included a r operands)
      (oneOfType convert' producers s l included a r operands) st := by
  unfold oneOfType
  refine (alike_operandTypes hP hoperands h).bind fun rs st₁ _ _ => ?_
  refine (alike_caseAttributes hP).bind fun unionAttributes st₂ _ _ => ?_
  exact alike_build fun _ => Builder.develops_add rfl

theorem alike_anyOfType (hP : ∀ e, e.Ordinary → P e) {operands : Json}
    (hoperands : s.get? "anyOf" = some operands) (h : ConvertsBelow P convert convert' st s) :
    Alike P (anyOfType convert l a operands) (anyOfType convert' l a operands) st := by
  unfold anyOfType
  refine (alike_operandTypes hP hoperands h).bind fun rs st₁ _ _ => ?_
  exact alike_build fun _ => Builder.develops_add rfl

theorem alike_ofKeyword {keyword : String} {f f' : Json → ConversionM (List NodeId)}
    (hf : ∀ v, s.get? keyword = some v → Alike P (f v) (f' v) st) :
    Alike P (ofKeyword s keyword f) (ofKeyword s keyword f') st := by
  unfold ofKeyword
  split
  · next v hv => exact hf v hv
  · exact Passes.pure trivial

theorem alike_single {m m' : ConversionM NodeId} (hm : Alike P m m' st) :
    Alike P (do return [← m]) (do return [← m']) st :=
  hm.bind fun _ _ _ _ => Passes.pure trivial

/-! ## Schemas -/

variable {producers : List Producer}

/-- An intersection is made and entered for a schema that has no type. -/
theorem agrees_begin {place : Reference} {k k' : NodeId → ConversionM β}
    {R : β → Conversion → Prop} (hnone : st.types.get? place = none)
    (hk : Agrees Move P (k st.builder.graph.size) (k' st.builder.graph.size)
      (st.pended place a) R) :
    Agrees Move P (do let r ← build (·.newIntersection a); enter place r; k r)
      (do let r ← build (·.newIntersection a); enter place r; k' r) st R :=
  hk.of_run_eq (.single (.begin a hnone)) rfl rfl

/-- **Two converters that do the same for what lies in a schema, and what it refers to, do the same
    for the schema**, and its type stays entered. -/
theorem agrees_schemaType (hP : ∀ e, e.Ordinary → P e)
    (hnone : st.types.get? l.canonical = none)
    (hbelow : ∀ a, ConvertsBelow P convert convert' (st.pended l.canonical a) s)
    (htarget : ∀ a, ConvertsTarget P convert convert' (st.pended l.canonical a) s) :
    Agrees Move P (schemaType convert producers s l a) (schemaType convert' producers s l a) st
      fun r st' => st'.types.get? l.canonical = some r := by
  unfold schemaType
  refine (Passes.lift (Q := fun _ st' => st = st') (fun e he => hP e (ordinary_types? he))
    fun _ _ => rfl).bind ?_
  rintro allowed _ - rfl
  dsimp only
  refine (Passes.lift (Q := fun _ st' => st = st')
    (fun e he => hP e (ordinary_typeAttributes he)) fun _ _ => rfl).bind ?_
  rintro attributes _ - rfl
  refine agrees_begin hnone ?_
  have hplace : (st.pended l.canonical attributes).types.get? l.canonical =
      some st.builder.graph.size := (OrderedMap.get?_insert ..).trans (if_pos rfl)
  replace hbelow := hbelow attributes
  replace htarget := htarget attributes
  generalize st.pended l.canonical attributes = st₀ at hbelow htarget hplace
  refine alike_optional (fun _ => alike_ownUnion hP hbelow) fun own st₁ h₁ => ?_
  refine (alike_ofKeyword fun v hv => alike_single
    (alike_targetType hP hv (htarget.later h₁))).bind fun target st₂ h₂ _ => ?_
  have h₀₂ := h₁.trans h₂
  refine (alike_ofKeyword fun v hv => alike_operandTypes hP hv (hbelow.later h₀₂)).bind
    fun all st₃ h₃ _ => ?_
  have h₀₃ := h₀₂.trans h₃
  refine (alike_ofKeyword fun v hv => alike_single
    (alike_oneOfType hP hv (hbelow.later h₀₃))).bind fun one st₄ h₄ _ => ?_
  have h₀₄ := h₀₃.trans h₄
  refine (alike_ofKeyword fun v hv => alike_single
    (alike_anyOfType hP hv (hbelow.later h₀₄))).bind fun any st₅ h₅ _ => ?_
  refine (alike_change fun _ => Builder.develops_setMembers _ _).bind fun _ st₆ h₆ _ => ?_
  exact Passes.pure (Later.get?_types ((h₀₄.trans h₅).trans h₆) hplace)

/-! ## Types of schemas -/

theorem canonical_withId {l l' : Location} {id : Option Json} (h : l.withId id = .ok l') :
    l'.canonical = l.canonical := by
  unfold Location.withId at h
  split at h
  · dsimp only at h
    split at h
    · cases h
      rfl
    · split at h <;> cases h
      rfl
  · cases h
    rfl

theorem run_enter {place : Reference} {r : NodeId} (h : st.types.get? place = some r) :
    (enter place r).run st = (.ok (), st) := by
  have hrun : (enter place r).run st = (.ok (), { st with types := st.types.insert place r }) := rfl
  rw [hrun, OrderedMap.insert_of_get? h]

/-- A schema that has a type keeps it, whatever the depth. -/
theorem run_typeOf_of_get? {v : Json} {r : NodeId} (h : st.types.get? l.canonical = some r)
    (depth : Nat) : (typeOf producers (depth + 1) v l a).run st = (.ok r, st) := by
  have hknown : (known? l.canonical).run st = (.ok (st.types.get? l.canonical), st) := rfl
  unfold typeOf
  rw [run_bind, hknown, h]
  rfl

theorem run_enter_pure {place : Reference} {r : NodeId} (h : st.types.get? place = some r) :
    (do enter place r; return r : ConversionM NodeId).run st = (.ok r, st) := by
  rw [run_bind, run_enter h]
  rfl

theorem passes_known {place : Reference} : Passes Move P (known? place) st fun x st' =>
    st.types.get? place = x ∧ st = st' := by
  refine ⟨rfl, .refl, fun e st' he => ?_, fun x st' hx => ?_⟩
  · cases he
  · cases hx
    exact ⟨rfl, rfl⟩

/-- The type of all values is entered for a schema that has no type. -/
theorem passes_any {place : Reference} (hnone : st.types.get? place = none) :
    Passes Move P (do let r ← build (·.primitive .any ∅); enter place r; return r) st
      fun r st' => st'.types.get? place = some r := by
  have hany : Passes Move P (pure (st.builder.primitive .any ∅).1) (st.withAny place)
      fun r st' => st'.types.get? place = some r :=
    Passes.pure ((OrderedMap.get?_insert ..).trans (if_pos rfl))
  exact hany.of_run_eq (.single (.any hnone)) rfl rfl

/-- A value that is no object fails where an object is expected. -/
theorem agrees_checkObject (hP : ∀ e, e.Ordinary → P e) {v : Json} {place : Reference}
    {k k' : Schema → ConversionM β} {R : β → Conversion → Prop} (hobject : ∀ s, v ≠ .object s) :
    Agrees Move P (liftM (checkObject v place) >>= k) (liftM (checkObject v place) >>= k') st R :=
  (Passes.lift (Q := fun s _ => v = .object s) (fun e he => hP e (plain_checkObject he).1)
    fun _ hs => Reference.checkObject_eq_ok.1 hs).bind fun s _ _ hs => absurd hs (hobject s)

/-- What is done with an object is done at the location that its `$id` gives it. -/
theorem agrees_withId (hP : ∀ e, e.Ordinary → P e) {k k' : Schema → Location → ConversionM β}
    {R : β → Conversion → Prop}
    (hk : ∀ l', l'.canonical = l.canonical → Agrees Move P (k s l') (k' s l') st R) :
    Agrees Move P
      (liftM (checkObject (.object s) l.canonical) >>= fun s : Schema =>
        liftM (l.withId (s.get? "$id")) >>= k s)
      (liftM (checkObject (.object s) l.canonical) >>= fun s : Schema =>
        liftM (l.withId (s.get? "$id")) >>= k' s) st R := by
  refine (Passes.lift (Q := fun s' st' => s = s' ∧ st = st')
    (fun e he => hP e (plain_checkObject he).1) ?_).bind ?_
  · rintro _ ⟨⟩
    exact ⟨rfl, rfl⟩
  rintro _ _ - ⟨rfl, rfl⟩
  refine (Passes.lift (Q := fun l' st' => l'.canonical = l.canonical ∧ st = st')
    (fun e he => hP e (plain_withId he).1) fun l' hl' => ⟨canonical_withId hl', rfl⟩).bind ?_
  rintro l' _ - ⟨hl', rfl⟩
  exact hk l' hl'

/-- **Conversion does the same at two depths**, if it does below a schema and where its `$ref`
    leads; a schema that is converted has its type entered. -/
theorem agrees_typeOf (hP : ∀ e, e.Ordinary → P e) {depth depth' : Nat} {v : Json}
    (h : st.types.get? l.canonical = none → ∀ s, v = .object s → ∀ a,
      ConvertsBelow P (typeOf producers depth) (typeOf producers depth')
          (st.pended l.canonical a) s ∧
        ConvertsTarget P (typeOf producers depth) (typeOf producers depth')
          (st.pended l.canonical a) s) :
    Agrees Move P (typeOf producers (depth + 1) v l a) (typeOf producers (depth' + 1) v l a) st
      fun r st' => st'.types.get? l.canonical = some r := by
  cases hknown : st.types.get? l.canonical with
  | some r =>
    exact (Passes.pure (a := r) hknown).of_run_eq .refl (run_typeOf_of_get? hknown depth)
      (run_typeOf_of_get? hknown depth')
  | none =>
    unfold typeOf
    refine passes_known.bind ?_
    rintro _ _ - ⟨rfl, rfl⟩
    rw [hknown]
    dsimp only
    cases v with
    | bool b =>
      cases b with
      | false =>
        exact (Passes.throw (Q := fun _ _ => False) (hP _ fun _ hp => by cases hp)).bind
          fun _ _ _ h => h.elim
      | true => exact passes_any hknown
    | object s =>
      refine agrees_withId hP fun l' hl' => ?_
      refine (agrees_schemaType hP (hl'.symm ▸ hknown) ?_ ?_).bind fun r st₁ h₁ hr => ?_
      · exact fun a => hl'.symm ▸ (h hknown s rfl a).1
      · exact fun a => hl'.symm ▸ (h hknown s rfl a).2
      · rw [hl'] at hr
        exact (Passes.pure (a := r) hr).of_run_eq .refl (run_enter_pure hr) (run_enter_pure hr)
    | null | number _ | string _ | array _ => exact agrees_checkObject hP fun _ hs => by cases hs

/-- Two depths do the same for top levels, if they do for whatever these are found to lead to. -/
theorem alike_addTopLevels (hP : ∀ e, e.Ordinary → P e) {depth depth' : Nat}
    {references : List (String × Reference)}
    (h : ∀ e ∈ references, ∀ st', st.Later st' → ∀ v l, st'.resolver.Finds e.2 l v →
      ∀ a, Alike P (typeOf producers depth v l a) (typeOf producers depth' v l a) st') :
    Alike P (addTopLevels producers depth references) (addTopLevels producers depth' references)
      st := by
  induction references generalizing st with
  | nil => exact Passes.pure trivial
  | cons e references ih =>
    obtain ⟨name, ref⟩ := e
    unfold addTopLevels
    refine (passes_resolving (Resolver.passes_resolveTopLevel hP ref)).bind
      fun x st₁ h₁ hfinds => ?_
    obtain ⟨v, l⟩ := x
    refine (h (name, ref) List.mem_cons_self st₁ h₁ v l hfinds _).bind fun t st₂ h₂ _ => ?_
    refine (alike_build fun _ => Builder.develops_addTopLevel _ _).discard.bind
      fun _ st₃ h₃ _ => ?_
    have h₁₃ := (h₁.trans h₂).trans h₃
    exact ih fun e he st' h' => h e (List.mem_cons_of_mem _ he) st' (h₁₃.trans h')

end Conversion

end SchemaTypes
