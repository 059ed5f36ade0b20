/-
  Conversions build by the operations of builders alone.

  So whatever all of those keep, a conversion keeps.

  * `Builder.Stable`, `Builder.Invariant`: a predicate that each operation on types keeps, or each
    operation of a builder;
  * `Conversion.Maintains`: a step leads from builders that satisfy a predicate to such builders;
  * `maintains_objectType`, `maintains_schemaType` and so on: the parts of a type maintain an
    invariant if the types inside do;
  * `maintains_addTopLevels`, `SchemaInput.invariant_addTypes`, `Inputs.invariant_addTypes`: so do
    conversions of top levels, of schemas and of inputs.
-/
import SchemaTypes.Proofs.Inference

namespace SchemaTypes

/-! ## Operations of builders -/

/-- A predicate that each operation on types keeps: nodes without properties are added and shared,
    object types made, members and attributes set. -/
structure Builder.Stable (I : Builder → Prop) : Prop where
  add : ∀ {b : Builder} {n : Node}, n.kind.properties = ∅ → I b → I (b.add n).2
  share : ∀ {b : Builder} (primitives : OrderedMap Kind NodeId), I b → I { b with primitives }
  object : ∀ {b : Builder} (ps : Properties) (additional : Option NodeId) (a : Attributes),
    I b → I (b.object ps additional a).2
  setMembers : ∀ {b : Builder} (r : NodeId) (members : SortedSet NodeId),
    I b → I (b.setMembers r members)
  addAttributes : ∀ {b : Builder} (r : NodeId) (a : Attributes), I b → I (b.addAttributes r a)

/-- A predicate that each operation of a builder keeps, also when top levels are entered. -/
structure Builder.Invariant (I : Builder → Prop) : Prop extends Builder.Stable I where
  addTopLevel : ∀ {b : Builder} (name : String) (r : NodeId), I b → I (b.addTopLevel name r).2

namespace Builder.Stable

variable {I : Builder → Prop} {b : Builder}

theorem primitive (hI : Stable I) {k : Kind} (hk : k.properties = ∅) (a : Attributes)
    (hb : I b) : I (b.primitive k a).2 := by
  have hadd := hI.add (n := .new k a) hk hb
  unfold Builder.primitive
  split
  · split
    · exact hI.addAttributes _ _ hb
    · exact hI.share _ hadd
  · exact hadd

end Builder.Stable

namespace Conversion

variable {I : Builder → Prop} {α β : Type}

/-! ## Steps -/

/-- If a step starts with a builder that satisfies the predicate and succeeds, the builder still
    does. -/
def Maintains (I : Builder → Prop) (m : ConversionM α) : Prop :=
  ∀ st : Conversion, I st.builder → Ensures m st fun _ st' => I st'.builder

namespace Maintains

theorem pure {a : α} : Maintains I (pure a) := fun _ hst => ensures_pure hst

theorem throw {e : ConversionError} : Maintains I (throw e : ConversionM α) :=
  fun _ _ => ensures_throw

theorem lift {x : Except ConversionError α} : Maintains I (liftM x) :=
  fun _ hst => ensures_lift fun _ _ => hst

theorem bind {m : ConversionM α} {f : α → ConversionM β} (hm : Maintains I m)
    (hf : ∀ a, Maintains I (f a)) : Maintains I (m >>= f) :=
  fun st hst => (hm st hst).seq fun a st' hst' => hf a st' hst'

theorem map {m : ConversionM α} (f : α → β) (hm : Maintains I m) : Maintains I (f <$> m) := by
  rw [map_eq_pure_bind]
  exact hm.bind fun _ => .pure

theorem discard {m : ConversionM α} (hm : Maintains I m) : Maintains I (discard m) :=
  fun st hst => (hm st hst).discard

theorem build {f : Builder → α × Builder} (hf : ∀ b, I b → I (f b).2) :
    Maintains I (build f) :=
  fun st hst => ensures_modifyGet (hf st.builder hst)

theorem change {f : Builder → Builder} (hf : ∀ b, I b → I (f b)) : Maintains I (change f) :=
  fun st hst => ensures_modify (hf st.builder hst)

theorem resolving {m : ResolverM α} : Maintains I (resolving m) := by
  intro st hst a st' h
  obtain ⟨-, rfl⟩ := Prod.ext_iff.1 h
  exact hst

theorem known? {place : Reference} : Maintains I (known? place) := by
  intro st hst a st' h
  cases h
  exact hst

theorem enter {place : Reference} {r : NodeId} : Maintains I (enter place r) :=
  fun _ hst => ensures_modify hst

theorem mapM {f : α → ConversionM β} {l : List α} (hf : ∀ a ∈ l, Maintains I (f a)) :
    Maintains I (l.mapM f) := by
  induction l with
  | nil => exact .pure
  | cons a l ih =>
    rw [List.mapM_cons]
    refine (hf a List.mem_cons_self).bind fun b => ?_
    exact (ih fun a' h => hf a' (List.mem_cons_of_mem a h)).bind fun _ => .pure

theorem forM {f : α → ConversionM PUnit} {l : List α} (hf : ∀ a, Maintains I (f a)) :
    Maintains I (l.forM f) := by
  induction l with
  | nil => exact .pure
  | cons a l ih => exact (hf a).bind fun _ => ih

/-- A part that is made only where it is needed. -/
theorem optional {c : Prop} [Decidable c] {m : ConversionM α} {f : List α → ConversionM β}
    (hm : Maintains I m) (hf : ∀ l, Maintains I (f l)) :
    Maintains I
      (if c then do let l ← Pure.pure [← m]; f l else do let l ← Pure.pure []; f l) := by
  split
  · exact hm.bind fun a => Maintains.pure.bind hf
  · exact Maintains.pure.bind hf

end Maintains

/-! ## Parts of types -/

section

variable (hI : Builder.Stable I) {convert : Converter}
  (hc : ∀ v l a, Maintains I (convert v l a)) {s : Schema} {l : Location} {a : Attributes}

include hI

theorem maintains_any : Maintains I (build (·.primitive .any ∅)) :=
  .build fun _ => hI.primitive rfl _

theorem maintains_add {n : Node} (hn : n.kind.properties = ∅) : Maintains I (build (·.add n)) :=
  .build fun _ => hI.add hn

theorem maintains_addAttributes (r : NodeId) (a : Attributes) :
    Maintains I (change (·.addAttributes r a)) :=
  .change fun _ => hI.addAttributes r a

theorem maintains_plainTypes {included : List Primitive} {numbers : Attributes} :
    Maintains I (plainTypes included numbers) := by
  refine .mapM fun e he => .build fun _ => hI.primitive ?_ _
  have he := (List.mem_filter.1 he).1
  simp only [List.mem_cons, List.not_mem_nil, or_false] at he
  rcases he with rfl | rfl | rfl | rfl <;> rfl

theorem maintains_stringType : Maintains I (stringType s a) := by
  unfold stringType
  split <;> exact .build fun _ => hI.primitive rfl _

theorem maintains_caseAttributes {r : NodeId} {members : List NodeId} {produced : List Produced} :
    Maintains I (caseAttributes l r members produced a) := by
  induction produced generalizing a with
  | nil => exact .pure
  | cons p rest ih =>
    have hmembers : ∀ es : List (NodeId × Attributes),
        Maintains I (es.forM fun e => change (·.addAttributes e.1 e.2)) := fun es =>
      .forM fun e => maintains_addAttributes hI e.1 e.2
    unfold caseAttributes
    refine (maintains_addAttributes hI _ _).bind fun _ => ?_
    dsimp only
    split
    · exact ih
    · split
      · exact Maintains.throw.bind fun _ => (hmembers _).bind fun _ => ih
      · exact (hmembers _).bind fun _ => ih

include hc

omit hI in
theorem maintains_itemTypes {items : List Json} {i : Nat} :
    Maintains I (itemTypes convert l a i items) := by
  induction items generalizing i with
  | nil => exact .pure
  | cons v items ih =>
    unfold itemTypes
    exact Maintains.lift.bind fun _ => (hc _ _ _).bind fun _ => ih.bind fun _ => .pure

theorem maintains_itemType : Maintains I (itemType convert s l a) := by
  unfold itemType
  split
  · exact maintains_any hI
  · exact (maintains_itemTypes hc).bind fun _ => maintains_add hI rfl
  · split
    · exact hc _ _ _
    · exact .throw

theorem maintains_arrayType : Maintains I (arrayType convert s l a) :=
  (maintains_itemType hI hc).bind fun _ =>
    (maintains_addAttributes hI _ _).bind fun _ => maintains_add hI rfl

omit hI in
theorem maintains_declaredProperties {required : List String} {fields : Json.Fields}
    {ps : Properties} : Maintains I (declaredProperties convert l required fields ps) := by
  induction fields generalizing ps with
  | nil => exact .pure
  | cons e fields ih =>
    exact Maintains.lift.bind fun _ => (hc _ _ _).bind fun _ => ih

theorem maintains_additionalType : Maintains I (additionalType convert s l a) := by
  unfold additionalType
  split
  · exact (maintains_any hI).map _
  · exact (maintains_any hI).map _
  · exact .pure
  · exact Maintains.lift.bind fun _ => (hc _ _ _).map _

theorem maintains_objectType : Maintains I (objectType convert s l a) := by
  unfold objectType
  refine Maintains.lift.bind fun required => Maintains.lift.bind fun properties => ?_
  refine (maintains_declaredProperties hc).bind fun ps => ?_
  refine (maintains_additionalType hI hc).bind fun additional => ?_
  exact Maintains.lift.bind fun ps => .build fun _ => hI.object ps additional a

theorem maintains_ownUnion {allowed : Option (List Primitive)} {produced : List Produced} :
    Maintains I (ownUnion convert s l allowed produced a) := by
  unfold ownUnion
  refine (maintains_plainTypes hI).bind fun plain => ?_
  refine .optional (maintains_stringType hI) fun strings => ?_
  refine .optional (maintains_arrayType hI hc) fun arrays => ?_
  exact .optional (maintains_objectType hI hc) fun objects => maintains_add hI rfl

omit hI in
theorem maintains_targetType {ref : Json} : Maintains I (targetType convert l a ref) := by
  unfold targetType
  split
  · exact Maintains.resolving.bind fun _ => hc _ _ _
  · exact .throw

omit hI in
theorem maintains_operandTypes {operation : String} {operands : Json} :
    Maintains I (operandTypes convert l a operation operands) := by
  unfold operandTypes
  split
  · exact maintains_itemTypes hc
  · exact .throw

theorem maintains_oneOfType {producers : List Producer} {included : List Primitive} {r : NodeId}
    {operands : Json} : Maintains I (oneOfType convert producers s l included a r operands) :=
  (maintains_operandTypes hc).bind fun _ =>
    (maintains_caseAttributes hI).bind fun _ => maintains_add hI rfl

theorem maintains_anyOfType {operands : Json} : Maintains I (anyOfType convert l a operands) :=
  (maintains_operandTypes hc).bind fun _ => maintains_add hI rfl

omit hI hc in
theorem maintains_ofKeyword {keyword : String} {f : Json → ConversionM (List NodeId)}
    (hf : ∀ v, Maintains I (f v)) : Maintains I (ofKeyword s keyword f) := by
  unfold ofKeyword
  split
  · exact hf _
  · exact .pure

/-! ## Schemas -/

theorem maintains_schemaType {producers : List Producer} :
    Maintains I (schemaType convert producers s l a) := by
  have hsingle : ∀ {m : ConversionM NodeId}, Maintains I m → Maintains I (do return [← m]) :=
    fun hm => hm.bind fun _ => .pure
  unfold schemaType
  refine Maintains.lift.bind fun allowed => Maintains.lift.bind fun a => ?_
  refine (maintains_add hI rfl).bind fun r => Maintains.enter.bind fun _ => ?_
  refine .optional (maintains_ownUnion hI hc) fun own => ?_
  refine (maintains_ofKeyword fun v => hsingle (maintains_targetType hc)).bind fun target => ?_
  refine (maintains_ofKeyword fun v => maintains_operandTypes hc).bind fun all => ?_
  refine (maintains_ofKeyword fun v => hsingle (maintains_oneOfType hI hc)).bind fun one => ?_
  refine (maintains_ofKeyword fun v => hsingle (maintains_anyOfType hI hc)).bind fun any => ?_
  exact (Maintains.change fun _ => hI.setMembers r _).bind fun _ => .pure

omit hc

/-- **A conversion keeps whatever the operations on types keep.** -/
theorem maintains_typeOf {producers : List Producer} (depth : Nat) (v : Json) (l : Location)
    (a : Attributes) : Maintains I (typeOf producers depth v l a) := by
  induction depth generalizing v l a with
  | zero => exact .throw
  | succ depth ih =>
    unfold typeOf
    refine Maintains.known?.bind fun known => ?_
    split
    · exact .pure
    · split
      · exact (maintains_any hI).bind fun _ => Maintains.enter.bind fun _ => .pure
      · exact Maintains.throw.bind fun _ => Maintains.enter.bind fun _ => .pure
      · refine Maintains.lift.bind fun s => Maintains.lift.bind fun l => ?_
        exact (maintains_schemaType hI ih).bind fun _ => Maintains.enter.bind fun _ => .pure

end

theorem maintains_addTopLevels (hI : Builder.Invariant I) {producers : List Producer} (depth : Nat)
    {references : List (String × Reference)} :
    Maintains I (addTopLevels producers depth references) := by
  induction references with
  | nil => exact .pure
  | cons e references ih =>
    refine Maintains.resolving.bind fun x => ?_
    refine (maintains_typeOf hI.toStable depth _ _ _).bind fun t => ?_
    exact (Maintains.build fun _ => hI.addTopLevel e.1 t).discard.bind fun _ => ih

end Conversion

/-! ## Inputs -/

section

variable {I : Builder → Prop} (hI : Builder.Invariant I) {b b' : Builder}

include hI

theorem SchemaInput.invariant_addTypes {i : SchemaInput} (hb : I b)
    (h : (i.addTypes b).1 = .ok b') : I b' := by
  unfold SchemaInput.addTypes at h
  split at h
  · cases h
    exact hb
  · dsimp only at h
    split at h
    next gathered g _ =>
    cases gathered with
    | error => cases h
    | ok =>
      dsimp only at h
      split at h
      next converted c hrun =>
      cases converted with
      | error => cases h
      | ok =>
        cases h
        exact Conversion.maintains_addTopLevels hI _ ⟨g.resolver, b, ∅⟩ hb () c hrun

theorem Inputs.invariant_addTypes {is : Inputs} (his : is.AreSchemas) (hb : I b)
    (h : (is.addTypes b).1 = .ok b') : I b' := by
  induction is generalizing b with
  | nil =>
    cases h
    exact hb
  | cons i rest ih =>
    obtain ⟨s, rfl⟩ := his i List.mem_cons_self
    simp only [addTypes, Input.addTypes] at h
    cases hadd : (s.addTypes b).1 with
    | error e =>
      rw [hadd] at h
      cases h
    | ok b₁ =>
      rw [hadd] at h
      exact ih (fun j hj => his j (List.mem_cons_of_mem _ hj))
        (SchemaInput.invariant_addTypes hI hb hadd) h

end

end SchemaTypes
