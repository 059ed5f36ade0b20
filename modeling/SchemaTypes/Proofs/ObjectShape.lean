/-
  Shapes of object types.

  A schema of objects declares properties and requires names, which it need not declare.  The type
  has a property for each of them: those that are declared in their order, then the others.

  * `OrderedMap.entries_insertAll`, `OrderedMap.entries_foldl_insert`: what is entered in turn;
  * `ensures_declaredProperties`, `ensures_additionalType`, `entries_withUndeclared`: the parts;
  * `InTurn`: schemas that are converted one after the other;
  * `ObjectShape`, `object_shape`: **what properties a type of objects has, and when there is no
    such type**.
-/
import SchemaTypes.Proofs.Building
import SchemaTypes.Proofs.Moves
import SchemaTypes.Proofs.PropertyOrder
import SchemaTypes.Proofs.Registration
import SchemaTypes.Proofs.Requirements

namespace SchemaTypes

/-! ## Entries -/

namespace OrderedMap

variable {κ ν : Type} [DecidableEq κ] {m : OrderedMap κ ν}

/-- New keys are entered at the end. -/
theorem entries_insertAll {l : List (κ × ν)} (h : ((m.entries ++ l).map Prod.fst).Nodup) :
    (m.insertAll l).entries = m.entries ++ l := by
  induction l generalizing m with
  | nil => simp [insertAll]
  | cons e l ih =>
    have hnew : e.1 ∉ m.keys := by
      rw [List.map_append, List.map_cons] at h
      exact fun hmem => (List.nodup_append.1 h).2.2 e.1 hmem e.1 List.mem_cons_self rfl
    have hentries := entries_insert_of_notMem hnew e.2
    show ((m.insert e.1 e.2).insertAll l).entries = _
    rw [ih (by rw [hentries]; simpa using h), hentries]
    simp

/-- One value for several keys: each new one is entered once. -/
theorem entries_foldl_insert {v : ν} {ks : List κ}
    (h : ∀ k ∈ ks, ∀ w, m.get? k = some w → w = v) :
    (ks.foldl (fun m k => m.insert k v) m).entries =
      m.entries ++ (ks.filter (· ∉ m.keys)).eraseDups.map (·, v) := by
  induction ks generalizing m with
  | nil => simp
  | cons k ks ih =>
    have hrest := fun k' hk' => h k' (List.mem_cons_of_mem k hk')
    rw [List.foldl_cons]
    by_cases hk : k ∈ m.keys
    · obtain ⟨w, hw⟩ := mem_keys_iff.1 hk
      obtain rfl := h k List.mem_cons_self w hw
      rw [insert_of_get? hw, ih hrest]
      simp [hk]
    · have hkeys : (m.insert k v).keys = m.keys ++ [k] := by rw [keys_insert, if_neg hk]
      rw [ih, hkeys, entries_insert_of_notMem hk, List.filter_cons_of_pos (by simpa using hk),
        List.eraseDups_cons, List.filter_filter]
      · simp [Bool.and_comm, beq_eq_decide]
      · intro k' hk' w hw
        rw [get?_insert] at hw
        split at hw
        · exact (Option.some.inj hw).symm
        · exact hrest k' hk' w hw

end OrderedMap

/-- Whether properties are made optional stays as it is. -/
theorem Builder.stable_allOptional (flag : Bool) :
    Stable fun b => b.allOptional = flag where
  add _ hb := hb
  share _ hb := hb
  object _ _ _ hb := hb
  setMembers r members hb := by
    unfold Builder.setMembers
    split
    · exact hb
    · exact hb
  addAttributes _ _ hb := hb

namespace Conversion

variable {convert : Converter} {s : Schema} {l : Location} {a : Attributes} {st st' : Conversion}
  {required : List String} {fields : Json.Fields} {ps ps' : Properties}
  {additional : Option NodeId} {place : Reference} {e : ConversionError}

/-! ## Parts of object types -/

/-- The entry of a declared property, which is optional unless its name is required. -/
def EntryOf (required : List String) (e : String × Json) (entry : String × Property) : Prop :=
  entry.1 = e.1 ∧ entry.2.optional = decide (e.1 ∉ required)

theorem ensures_declaredProperties :
    Ensures (declaredProperties convert l required fields ps) st fun ps' _ =>
      ∃ entries, ps' = ps.insertAll entries ∧
        List.Forall₂ (EntryOf required) fields entries := by
  induction fields generalizing st ps with
  | nil => exact ensures_pure ⟨[], rfl, .nil⟩
  | cons e fields ih =>
    obtain ⟨name, v⟩ := e
    unfold declaredProperties
    refine Ensures.bind (ensures_lift fun _ _ => Ensures.bind fun r st₁ _ => ih.mono ?_)
    rintro ps' st' ⟨entries, rfl, hentries⟩
    exact ⟨(name, ⟨r, decide (name ∉ required)⟩) :: entries, rfl, .cons ⟨rfl, rfl⟩ hentries⟩

theorem map_fst_of_entries {entries : List (String × Property)}
    (h : List.Forall₂ (EntryOf required) fields entries) :
    entries.map Prod.fst = fields.map Prod.fst := by
  induction h with
  | nil => rfl
  | cons hentry _ ih => rw [List.map_cons, List.map_cons, hentry.1, ih]

/-- Just the declared names are entered, in whatever order. -/
theorem mem_keys_of_entries {entries : List (String × Property)}
    (h : List.Forall₂ (EntryOf required) (s.orderedProperties fields) entries) (name : String) :
    name ∈ (OrderedMap.insertAll ∅ entries).keys ↔ name ∈ fields.map Prod.fst := by
  rw [OrderedMap.mem_keys_insertAll, map_fst_of_entries h]
  exact (or_iff_right List.not_mem_nil).trans ((List.mergeSort_perm _ _).map Prod.fst).mem_iff

/-- There is a type of further properties unless they are forbidden. -/
theorem ensures_additionalType :
    Ensures (additionalType convert s l a) st fun additional _ =>
      (additional = none ↔ s.additional? = some (.bool false)) := by
  unfold additionalType
  split
  · next h =>
    rw [map_eq_pure_bind]
    exact Ensures.bind fun r st₁ _ => ensures_pure (by simp [h])
  · next h =>
    rw [map_eq_pure_bind]
    exact Ensures.bind fun r st₁ _ => ensures_pure (by simp [h])
  · next h => exact ensures_pure (by simp [h])
  · next v _ hfalse h =>
    have hv : v ≠ .bool false := fun heq => hfalse heq
    refine Ensures.bind (ensures_lift fun _ _ => ?_)
    rw [map_eq_pure_bind]
    exact Ensures.bind fun r st₁ _ => ensures_pure (by simp [h, hv])

theorem not_contains_eq (ps : Properties) (name : String) :
    (!ps.contains name) = decide (name ∉ ps.keys) := by
  rw [Bool.eq_iff_iff]
  simp [OrderedMap.contains, OrderedMap.mem_keys_iff, Option.eq_none_iff_forall_ne_some]

/-- Required properties that are not declared are entered at the end, with the type of further
    ones. -/
theorem entries_withUndeclared (h : withUndeclared place required additional ps = .ok ps') :
    (∀ name ∈ required, name ∉ ps.keys → additional.isSome) ∧
      ps'.entries = ps.entries ++ (required.filter (· ∉ ps.keys)).eraseDups.map fun name =>
        (name, ⟨additional.getD 0, false⟩) := by
  simp only [withUndeclared, not_contains_eq] at h
  split at h
  · next hnone =>
    cases h
    refine ⟨fun name hname hnot => ?_, by rw [hnone]; simp⟩
    have hmem : name ∈ required.filter (· ∉ ps.keys) :=
      List.mem_filter.2 ⟨hname, decide_eq_true hnot⟩
    rw [hnone] at hmem
    cases hmem
  · cases h
  · next r _ =>
    cases h
    refine ⟨fun _ _ _ => rfl, ?_⟩
    rw [OrderedMap.entries_foldl_insert, List.filter_filter]
    · simp
    · intro name hname p hp
      have hnot := of_decide_eq_true (List.mem_filter.1 hname).2
      exact absurd (OrderedMap.mem_keys_iff.2 ⟨p, hp⟩) hnot

theorem keys_withUndeclared (h : withUndeclared place required additional ps = .ok ps') :
    ps'.keys = ps.keys ++ (required.filter (· ∉ ps.keys)).eraseDups := by
  rw [OrderedMap.keys, (entries_withUndeclared h).2, List.map_append, List.map_map]
  simp [OrderedMap.keys, Function.comp_def]

theorem get?_withUndeclared (h : withUndeclared place required additional ps = .ok ps')
    {name : String} {p : Property} : ps'.get? name = some p ↔ ps.get? name = some p ∨
      (name ∈ required ∧ name ∉ ps.keys) ∧ p = ⟨additional.getD 0, false⟩ := by
  rw [OrderedMap.get?_eq_some_iff, OrderedMap.get?_eq_some_iff, (entries_withUndeclared h).2,
    List.mem_append]
  refine or_congr_right ⟨fun hmem => ?_, ?_⟩
  · obtain ⟨name', hname', heq⟩ := List.mem_map.1 hmem
    cases heq
    exact ⟨by simpa using hname', rfl⟩
  · rintro ⟨hname, rfl⟩
    exact List.mem_map.2 ⟨name, by simpa using hname, rfl⟩

theorem withUndeclared_eq_error_iff : withUndeclared place required additional ps = .error e ↔
    e = .additionalForbidsRequired place ∧ (∃ name ∈ required, name ∉ ps.keys) ∧
      additional = none := by
  have hnames : (∃ name ∈ required, name ∉ ps.keys) ↔ required.filter (· ∉ ps.keys) ≠ [] := by
    simp [List.filter_eq_nil_iff]
  simp only [withUndeclared, not_contains_eq]
  rw [hnames]
  generalize required.filter _ = names
  cases names with
  | nil => simp
  | cons name names =>
    cases additional with
    | none => simpa using eq_comm
    | some r => simp

/-! ## Shapes -/

/-- The properties of an object type, given what a schema requires and declares, and the type of
    further ones. -/
structure ObjectShape (s : Schema) (required : List String) (fields : Json.Fields)
    (ps : Properties) (additional : Option NodeId) : Prop where
  mem_keys_iff : ∀ name, name ∈ ps.keys ↔ name ∈ fields.map Prod.fst ∨ name ∈ required
  /-- Declared properties come in their order, and then the others as they are first required. -/
  keys_eq : ∃ listed others,
    ps.keys = listed ++ others ++ (required.filter (· ∉ fields.map Prod.fst)).eraseDups ∧
      Arranged s.propertyOrder (fields.map Prod.fst) listed others
  required_iff : ∀ name p, ps.get? name = some p → (p.optional = false ↔
    name ∈ required ∨ ∃ e ∈ fields, e.1 = name ∧ Schema.RequiresItself e)
  undeclared : ∀ name ∈ required, name ∉ fields.map Prod.fst →
    ∃ t, additional = some t ∧ ps.get? name = some ⟨t, false⟩
  additional_iff : additional = none ↔ s.additional? = some (.bool false)

/-- The parts make up the shape. -/
theorem objectShape_of_parts (hnodup : (fields.map Prod.fst).Nodup)
    {entries : List (String × Property)}
    (hentries : List.Forall₂ (EntryOf (Schema.allRequired required fields))
      (s.orderedProperties fields) entries)
    (hadditional : additional = none ↔ s.additional? = some (.bool false))
    (h : withUndeclared place (Schema.allRequired required fields) additional
      (OrderedMap.insertAll ∅ entries) = .ok ps') :
    ObjectShape s required fields ps' additional := by
  have hnames := map_fst_of_entries hentries
  have hperm : (s.orderedProperties fields).Perm fields := List.mergeSort_perm _ _
  have hdeclared : (OrderedMap.insertAll ∅ entries).entries = entries :=
    OrderedMap.entries_insertAll (by
      show (entries.map Prod.fst).Nodup
      rw [hnames]
      exact (hperm.map Prod.fst).nodup_iff.2 hnodup)
  have hmem := mem_keys_of_entries hentries
  have hkeys := keys_withUndeclared h
  have hordered : (OrderedMap.insertAll ∅ entries).keys =
      (s.orderedProperties fields).map Prod.fst := by rw [OrderedMap.keys, hdeclared, hnames]
  simp only [hmem, Schema.filter_allRequired] at hkeys
  rw [hordered] at hkeys
  refine ⟨fun name => ?_, ?_, fun name p hp => ?_, fun name hname hnot => ?_, hadditional⟩
  · rw [hkeys, List.mem_append, (hperm.map Prod.fst).mem_iff, List.mem_eraseDups, List.mem_filter,
      decide_eq_true_eq]
    tauto
  · obtain ⟨listed, others, hlisted, harranged⟩ := s.exists_arranged hnodup
    exact ⟨listed, others, by rw [hkeys, hlisted], harranged⟩
  · rw [← Schema.mem_allRequired]
    rcases (get?_withUndeclared h).1 hp with hp | ⟨⟨hname, -⟩, rfl⟩
    · rw [OrderedMap.get?_eq_some_iff, hdeclared] at hp
      obtain ⟨e, he, rfl, hoptional⟩ := exists_of_forall₂ hentries.flip hp
      rw [hoptional, decide_eq_false_iff_not, not_not]
    · exact iff_of_true rfl hname
  · replace hname : name ∈ Schema.allRequired required fields :=
      Schema.mem_allRequired.2 (.inl hname)
    replace hnot := (not_congr (hmem name)).2 hnot
    obtain ⟨t, rfl⟩ := Option.isSome_iff_exists.1 ((entries_withUndeclared h).1 name hname hnot)
    exact ⟨t, rfl, (get?_withUndeclared h).2 (.inr ⟨⟨hname, hnot⟩, rfl⟩)⟩

/-- A type of objects has its shape, unless all properties are made optional. -/
theorem ensures_objectType (hkeys : (Json.object s).KeysDistinct)
    (hc : ∀ v l a, Maintains (fun b => b.allOptional = false) (convert v l a))
    (hst : st.builder.allOptional = false) :
    Ensures (objectType convert s l a) st fun r st' =>
      ∃ required fields ps additional, s.Requires required ∧ s.Declares fields ∧
        st'.builder.graph.kind r = .object ps additional ∧
        ObjectShape s required fields ps additional := by
  have hstable := Builder.stable_allOptional false
  unfold objectType
  refine Ensures.bind (ensures_lift fun required hrequired => ?_)
  refine Ensures.bind (ensures_lift fun fields hfields => ?_)
  have hdeclares := Schema.properties_eq_ok_iff.1 hfields
  refine Ensures.bind fun ps st₁ hps => ?_
  obtain ⟨entries, rfl, hentries⟩ := ensures_declaredProperties ps st₁ hps
  have hst₁ := maintains_declaredProperties hc st hst _ st₁ hps
  refine Ensures.bind fun additional st₂ hadd => ?_
  have hadditional := ensures_additionalType additional st₂ hadd
  have hst₂ := maintains_additionalType hstable hc st₁ hst₁ additional st₂ hadd
  refine Ensures.bind (ensures_lift fun ps' hps' => ensures_modifyGet ?_)
  refine ⟨required, fields, ps', additional, Schema.required_eq_ok_iff.1 hrequired, hdeclares, ?_,
    objectShape_of_parts (hdeclares.nodup hkeys) hentries hadditional hps'⟩
  have hadjust : st₂.builder.adjust ps' = ps' := if_neg (by rw [hst₂]; exact Bool.false_ne_true)
  show (st₂.builder.graph.push (.new (.object (st₂.builder.adjust ps') additional) a)).kind
    st₂.builder.graph.size = _
  rw [Graph.kind_push, if_pos rfl, hadjust]
  rfl

/-! ## Schemas in turn -/

/-- A schema inside another one, with its location and attributes for its type. -/
structure Inner where
  schema : Json
  location : Location
  attributes : Attributes

/-- The schema of a declared property. -/
def Inner.ofProperty (l : Location) (e : String × Json) : Inner :=
  ⟨e.2, l.push ["properties", e.1], .named e.1 true⟩

/-- The schema of further properties, unless they are just allowed or forbidden. -/
def Inner.ofFurther (s : Schema) (l : Location) (a : Attributes) : List Inner :=
  match s.additional? with
  | none | some (.bool _) => []
  | some v => [⟨v, l.push ["additionalProperties"], a.singularized⟩]

/-- The schemas inside a schema of objects, as they are converted. -/
def innerSchemas (s : Schema) (fields : Json.Fields) (l : Location) (a : Attributes) :
    List Inner :=
  (s.orderedProperties fields).map (.ofProperty l) ++ Inner.ofFurther s l a

/-- Schemas that are converted one after the other. -/
inductive InTurn (convert : Converter) : List Inner → Conversion → Conversion → Prop
  | nil {st : Conversion} : InTurn convert [] st st
  | cons {i : Inner} {is : List Inner} {st st₁ st₂ : Conversion} {r : NodeId} :
      i.schema.isSchema = true →
      (convert i.schema i.location i.attributes).run st = (.ok r, st₁) →
      InTurn convert is st₁ st₂ → InTurn convert (i :: is) st st₂

theorem InTurn.exists_of_append {is js : List Inner} (h : InTurn convert (is ++ js) st st') :
    ∃ st₁, InTurn convert is st st₁ ∧ InTurn convert js st₁ st' := by
  induction is generalizing st with
  | nil => exact ⟨st, .nil, h⟩
  | cons i is ih =>
    cases h with
    | cons hschema hrun hrest =>
      obtain ⟨st₁, his, hjs⟩ := ih hrest
      exact ⟨st₁, .cons hschema hrun his, hjs⟩

theorem run_lift_bind {α β : Type} {x : Except ConversionError α} {y : α} (h : x = .ok y)
    (f : α → ConversionM β) (st : Conversion) :
    ((liftM x : ConversionM α) >>= f).run st = (f y).run st := by
  subst h
  rfl

theorem run_lift_build_eq_error_iff {α β : Type} {x : Except ConversionError α}
    {f : α → Builder → β × Builder} :
    ((liftM x >>= fun y => build (f y) : ConversionM β).run st).1 = .error e ↔ x = .error e := by
  cases x with
  | error e' =>
    show Except.error e' = .error e ↔ _
    simp
  | ok y =>
    constructor
    · intro h
      cases h
    · intro h
      cases h

theorem exists_run_declaredProperties (required : List String) (ps : Properties)
    (h : InTurn convert (fields.map (.ofProperty l)) st st') :
    ∃ ps', (declaredProperties convert l required fields ps).run st = (.ok ps', st') := by
  induction fields generalizing st ps with
  | nil =>
    cases h
    exact ⟨ps, rfl⟩
  | cons e fields ih =>
    cases h with
    | @cons _ _ _ st₁ _ r hschema hrun hrest =>
      obtain ⟨ps', hps'⟩ := ih (ps.insert e.1 ⟨r, decide (e.1 ∉ required)⟩) hrest
      refine ⟨ps', ?_⟩
      replace hschema : e.2.isSchema = true := hschema
      replace hrun : (convert e.2 (l.push ["properties", e.1]) (.named e.1 true)).run st =
        (.ok r, st₁) := hrun
      unfold declaredProperties
      dsimp only
      rw [run_lift_bind (Reference.checkSchema_eq_ok.2 hschema), run_bind, hrun]
      exact hps'

theorem exists_run_additionalType (h : InTurn convert (Inner.ofFurther s l a) st st') :
    ∃ additional st₁, (additionalType convert s l a).run st = (.ok additional, st₁) := by
  unfold additionalType
  split
  · exact ⟨_, _, rfl⟩
  · exact ⟨_, _, rfl⟩
  · exact ⟨_, _, rfl⟩
  · next v htrue hfalse hv =>
    unfold Inner.ofFurther at h
    split at h
    · next hnone => cases hnone.symm.trans hv
    · next b hb =>
      obtain rfl := Option.some.inj (hb.symm.trans hv)
      cases b
      · exact absurd rfl hfalse
      · exact absurd rfl htrue
    · next w hw =>
      obtain rfl := Option.some.inj (hw.symm.trans hv)
      cases h with
      | cons hschema hrun _ =>
        rw [run_lift_bind (Reference.checkSchema_eq_ok.2 hschema), map_eq_pure_bind, run_bind, hrun]
        exact ⟨_, _, rfl⟩

/-- **Where everything inside is converted, there is no type just if a required property can be
    there in no way.** -/
theorem objectType_eq_error_iff (hrequires : s.Requires required) (hdeclares : s.Declares fields)
    (h : InTurn convert (innerSchemas s fields l a) st st') :
    ((objectType convert s l a).run st).1 = .error e ↔
      e = .additionalForbidsRequired l.canonical ∧
        (∃ name ∈ required, name ∉ fields.map Prod.fst) ∧
        s.additional? = some (.bool false) := by
  obtain ⟨st₁, hproperties, hfurther⟩ := h.exists_of_append
  obtain ⟨ps, hps⟩ := exists_run_declaredProperties (Schema.allRequired required fields) ∅
    hproperties
  obtain ⟨additional, st₂, hadd⟩ := exists_run_additionalType hfurther
  obtain ⟨entries, rfl, hentries⟩ := ensures_declaredProperties _ _ hps
  have hadditional : additional = none ↔ s.additional? = some (.bool false) :=
    ensures_additionalType _ _ hadd
  unfold objectType
  rw [run_lift_bind (Schema.required_eq_ok_iff.2 hrequires),
    run_lift_bind (Schema.properties_eq_ok_iff.2 hdeclares), run_bind, hps]
  dsimp only
  rw [run_bind, hadd]
  dsimp only
  rw [run_lift_build_eq_error_iff, withUndeclared_eq_error_iff, hadditional]
  simp only [mem_keys_of_entries hentries]
  refine and_congr_right fun _ => and_congr_left fun _ => ⟨?_, ?_⟩
  · rintro ⟨name, hname, hnot⟩
    rcases Schema.mem_allRequired.1 hname with hname | ⟨e, he, rfl, -⟩
    · exact ⟨name, hname, hnot⟩
    · exact absurd (List.mem_map_of_mem he) hnot
  · rintro ⟨name, hname, hnot⟩
    exact ⟨name, Schema.mem_allRequired.2 (.inl hname), hnot⟩

/-- **What properties a type of objects has, and when there is no such type.**  The type has a
    property for each name that is declared or required.  Declared ones come first: those that the
    schema puts in order, as they first stand there, and then the others by their names in lower
    case, or as they are declared; behind them come the names that are just required.  A property
    may be absent unless its name is required or it declares itself required; one that is not
    declared has the type of further properties.  And where all schemas inside are converted, the
    only way to fail is to require a name that is not declared and to forbid further properties. -/
theorem object_shape (producers : List Producer) (depth : Nat) (l : Location) (a : Attributes)
    (hkeys : (Json.object s).KeysDistinct) (hst : st.builder.allOptional = false) :
    (∀ r st', (objectType (typeOf producers depth) s l a).run st = (.ok r, st') →
      ∃ required fields ps additional, s.Requires required ∧ s.Declares fields ∧
        st'.builder.graph.kind r = .object ps additional ∧
        ObjectShape s required fields ps additional) ∧
    ∀ required fields, s.Requires required → s.Declares fields →
      (∃ st', InTurn (typeOf producers depth) (innerSchemas s fields l a) st st') →
      ∀ e, ((objectType (typeOf producers depth) s l a).run st).1 = .error e ↔
        e = .additionalForbidsRequired l.canonical ∧
          (∃ name ∈ required, name ∉ fields.map Prod.fst) ∧
          s.additional? = some (.bool false) := by
  have hconvert : ∀ v l a, Maintains (fun b => b.allOptional = false)
      (typeOf producers depth v l a) := maintains_typeOf (Builder.stable_allOptional false) depth
  constructor
  · exact ensures_objectType hkeys hconvert hst
  · rintro required fields hrequires hdeclares ⟨st', hturn⟩ e
    exact objectType_eq_error_iff hrequires hdeclares hturn

/-- The properties that a crate declares; its grip declares itself required. -/
def crateFields : Json.Fields :=
  [("weight", .bool true), ("Weight", .bool true),
    ("grip", .object [("required", .bool true), ("type", .string "string")]),
    ("size", .bool true)]

/-- A crate with a lid and a base, which are not declared. -/
def crate : Schema :=
  [("properties", .object crateFields),
    ("required", .array [.string "lid", .string "size", .string "base", .string "lid"]),
    ("quicktypePropertyOrder", .array [.string "size", .string "lid", .string "size"])]

/-- A crate that is to have a lid and nothing else, but does not declare it. -/
def sealedCrate : Schema :=
  [("required", .array [.string "lid"]), ("additionalProperties", .bool false)]

/-- The place of the crates. -/
def yard : Location := ⟨⟨some (.relative "yard.json"), [.root]⟩, ⟨none, [.root]⟩, false⟩

/-- Nothing is converted yet. -/
def idle : Conversion := ⟨.ofFetcher .nothing, .new, ∅⟩

theorem requires_crate : crate.Requires ["lid", "size", "base", "lid"] := .inl rfl

theorem declares_crate : crate.Declares crateFields := .inl rfl

/-- Everything inside a crate is converted. -/
theorem inTurn_crate : ∃ st', InTurn (typeOf Producer.standard 2)
    (innerSchemas crate crateFields yard ∅) idle st' := by
  have hweight : Schema.orderedBefore crate.propertyOrder "weight" "Weight" = true := by
    decide +kernel
  have hgrip : Schema.orderedBefore crate.propertyOrder "grip" "size" = false := by
    decide +kernel
  have hsize : Schema.orderedBefore crate.propertyOrder "weight" "size" = false := by
    decide +kernel
  have hlast : Schema.orderedBefore crate.propertyOrder "weight" "grip" = false := by
    decide +kernel
  have hordered : crate.orderedProperties crateFields =
      [("size", .bool true),
        ("grip", .object [("required", .bool true), ("type", .string "string")]),
        ("weight", .bool true), ("Weight", .bool true)] := by
    simp [Schema.orderedProperties, crateFields, List.mergeSort, hweight, hgrip, hsize, hlast]
  rw [innerSchemas, hordered]
  exact ⟨_, .cons rfl rfl (.cons rfl rfl (.cons rfl rfl (.cons rfl rfl .nil)))⟩

theorem arranged_crate : Arranged crate.propertyOrder (crateFields.map Prod.fst) ["size"]
    ["grip", "weight", "Weight"] where
  listed_perm := by decide +kernel
  listed_order := by decide +kernel
  others_perm := by decide +kernel
  others_order := by decide +kernel

/-- A crate has six properties, of which two may be absent; there is no sealed crate. -/
theorem object_shape_crate :
    (Json.object crate).KeysDistinct ∧ (Json.object sealedCrate).KeysDistinct ∧
      idle.builder.allOptional = false ∧
      (∃ r st' ps additional,
        (objectType (typeOf Producer.standard 2) crate yard ∅).run idle = (.ok r, st') ∧
          st'.builder.graph.kind r = .object ps additional ∧
          ps.keys = ["size", "grip", "weight", "Weight", "lid", "base"] ∧
          ∀ name p, ps.get? name = some p →
            (p.optional = false ↔ name ∈ ["lid", "size", "base", "grip"])) ∧
      ((objectType (typeOf Producer.standard 2) sealedCrate yard ∅).run idle).1 =
        .error (.additionalForbidsRequired yard.canonical) := by
  have hcrate : (Json.object crate).KeysDistinct := by
    simp [crate, crateFields, Json.KeysDistinct, Json.FieldsKeysDistinct, Json.ItemsKeysDistinct]
  have hsealed : (Json.object sealedCrate).KeysDistinct := by
    simp [sealedCrate, Json.KeysDistinct, Json.FieldsKeysDistinct, Json.ItemsKeysDistinct]
  have hidle : idle.builder.allOptional = false := rfl
  refine ⟨hcrate, hsealed, hidle, ?_, ?_⟩
  · obtain ⟨hshape, hfails⟩ := object_shape Producer.standard 2 yard ∅ hcrate hidle
    cases hrun : (objectType (typeOf Producer.standard 2) crate yard ∅).run idle with
    | mk x st' =>
      cases x with
      | error e =>
        have hforbids := (hfails _ _ requires_crate declares_crate inTurn_crate e).1 (by rw [hrun])
        cases hforbids.2.2
      | ok r =>
        obtain ⟨required, fields, ps, additional, hrequires, hdeclares, hkind, hps⟩ :=
          hshape r st' hrun
        obtain rfl := hrequires.unique requires_crate
        obtain rfl := hdeclares.unique declares_crate
        obtain ⟨listed, others, hkeys, harranged⟩ := hps.keys_eq
        obtain ⟨rfl, rfl⟩ := harranged.unique arranged_crate
        refine ⟨r, st', ps, additional, rfl, hkind, hkeys, fun name p hp => ?_⟩
        have hgrip : (∃ e ∈ crateFields, e.1 = name ∧ Schema.RequiresItself e) ↔ name = "grip" := by
          simp [crateFields, Schema.RequiresItself, Json.field?, eq_comm]
        rw [hps.required_iff name p hp, hgrip]
        simp only [List.mem_cons, List.not_mem_nil, or_false]
        tauto
  · obtain ⟨-, hfails⟩ := object_shape Producer.standard 2 yard ∅ hsealed hidle
    refine (hfails ["lid"] [] (.inl rfl) (.inr ⟨rfl, rfl⟩) ⟨idle, ?_⟩ _).2 ⟨rfl, ?_, rfl⟩
    · rw [innerSchemas, show sealedCrate.orderedProperties [] = [] from List.mergeSort_nil]
      exact .nil
    · simp

end Conversion

end SchemaTypes
