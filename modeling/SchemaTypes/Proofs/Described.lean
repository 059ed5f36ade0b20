/-
  The types of the values that a schema describes itself.

  If the types of the schemas below promise what is valid against them (`Converts`), the types
  that are made of `type`, `enum`, `const`, `format`, `items`, `properties`, `required` and
  `additionalProperties` promise what all keywords accept (`ownUnion_spec`): scalars, strings,
  arrays and objects each come from one part of a union.
-/
import SchemaTypes.Proofs.Included
import SchemaTypes.Proofs.Promises

namespace SchemaTypes.Conversion

open SchemaTypes.Graph

variable {ρ : Reading} {doc : Json} {a : Address} {pending : Pending} {st : Conversion}
  {P : Json → Prop} {convert : Converter} {s : Schema} {l : Location} {attributes : Attributes}

/-- Schemas that satisfy `P` are converted to types that promise what is valid against them. -/
def Converts (ρ : Reading) (doc : Json) (a : Address) (P : Json → Prop) (convert : Converter) :
    Prop :=
  ∀ ⦃pending st l c⦄ attributes, Sound ρ doc a pending st → l.LiesIn a →
    doc.follow doc l.canonical.path = some c → P c →
      Leads ρ doc a pending (convert c l attributes) st fun r st' =>
        Promises ρ doc pending st' r fun B w => B c w

/-- A plain schema at a location of the document. -/
structure Placed (doc : Json) (a : Address) (P : Json → Prop) (l : Location) (s : Schema) :
    Prop where
  liesIn : l.LiesIn a
  follow_eq : doc.follow doc l.canonical.path = some (.object s)
  keysDistinct : (Json.object s).KeysDistinct
  plain : s.Plain
  uses : ∀ c, s.Uses doc c → P c
  plain_of_uses : ∀ sub, P (.object sub) → Schema.Plain sub

theorem Placed.follow_property (hl : Placed doc a P l s) {name : String} {c : Json}
    (h : s.declared? name = some c) :
    doc.follow doc (l.push ["properties", name]).canonical.path = some c := by
  obtain ⟨v, hv, hc⟩ := Option.bind_eq_some_iff.1 h
  cases v with
  | object fields =>
    have hprops := Location.follow_push_field hl.follow_eq hv
    exact Location.push_push l ["properties"] [name] ▸ Location.follow_push_field hprops hc
  | _ => cases hc

/-! ## Arrays -/

theorem itemType_spec (hc : Converts ρ doc a P convert) (hl : Placed doc a P l s)
    (hs : Sound ρ doc a pending st) :
    Leads ρ doc a pending (itemType convert s l attributes) st fun r st' =>
      Promises ρ doc pending st' r fun B w => ∀ c, s.get? "items" = some c → B c w := by
  unfold itemType
  split
  · next hitems =>
    exact .primitive hs (by simp) rfl fun _ _ _ _ => trivial
  · next items hitems => exact absurd hitems (hl.plain.items items)
  · next v hne hitems =>
    split
    · refine (hc _ hs (hl.liesIn.push _) (Location.follow_push_field hl.follow_eq hitems)
        (hl.uses v (.items hitems))).mono fun r st' _ _ hr => hr.imp fun B w h => h v hitems
    · exact .throw

theorem arrayType_spec (hc : Converts ρ doc a P convert) (hl : Placed doc a P l s)
    (hs : Sound ρ doc a pending st) :
    Leads ρ doc a pending (arrayType convert s l attributes) st fun r st' =>
      Promises ρ doc pending st' r fun B w =>
        (∃ ws, w = .array ws) ∧ s.Accepts ρ.formats doc B w := by
  unfold arrayType
  refine (itemType_spec hc hl hs).bind fun items s₁ hs₁ _ hitems => ?_
  refine (Leads.addAttributes hs₁).bind fun _ s₂ hs₂ h₂ _ => ?_
  have hitems := hitems.mono h₂
  refine .shared hs₂ (Builder.shared_add hs₂.shares (n := .new (.array items) ∅) ?_)
    (by simp [Node.new]) ?_
  · exact fun c hc => List.mem_singleton.1 hc ▸ hitems.lt_size
  · rintro h hh B hB _ ⟨⟨ws, rfl⟩, hw⟩
    exact ⟨ws, rfl, fun x hx => hitems.admits h hh B hB x fun c hc => hw.items c ws hc rfl x hx⟩

/-! ## Objects -/

/-- What a schema says of the value of a property. -/
structure PropertyAccepts (s : Schema) (B : Json → Json → Prop) (name : String) (w : Json) :
    Prop where
  declared : ∀ c, s.declared? name = some c → B c w
  further : s.declared? name = none → ∀ c, s.get? "additionalProperties" = some c → B c w

/-- Properties whose types promise what a schema says of their values; those that it does not
    require are optional. -/
structure Described (ρ : Reading) (doc : Json) (pending : Pending) (st : Conversion) (s : Schema)
    (required : List String) (ps : Properties) : Prop where
  promises : ∀ name p, ps.get? name = some p →
    Promises ρ doc pending st p.type fun B w => PropertyAccepts s B name w
  required : ∀ name p, ps.get? name = some p → p.optional = false → name ∈ required

theorem Described.mono {st' : Conversion} {required : List String} {ps : Properties}
    (h : Described ρ doc pending st s required ps) (hst : Continues st st') :
    Described ρ doc pending st' s required ps where
  promises name p hp := (h.promises name p hp).mono hst
  required := h.required

theorem Described.insert {required : List String} {ps : Properties} {name : String} {p : Property}
    (h : Described ρ doc pending st s required ps)
    (hp : Promises ρ doc pending st p.type fun B w => PropertyAccepts s B name w)
    (ho : p.optional = false → name ∈ required) :
    Described ρ doc pending st s required (ps.insert name p) := by
  constructor
  · intro name' p' hp'
    rw [OrderedMap.get?_insert] at hp'
    split at hp'
    · next heq =>
      cases hp'
      exact heq ▸ hp
    · exact h.promises name' p' hp'
  · intro name' p' hp' ho'
    rw [OrderedMap.get?_insert] at hp'
    split at hp'
    · next heq =>
      cases hp'
      exact heq ▸ ho ho'
    · exact h.required name' p' hp' ho'

theorem declaredProperties_spec (hc : Converts ρ doc a P convert) (hl : Placed doc a P l s)
    {required : List String} {fields : Json.Fields}
    (hf : ∀ e ∈ fields, s.declared? e.1 = some e.2) (hs : Sound ρ doc a pending st)
    {ps : Properties} (hps : Described ρ doc pending st s required ps) :
    Leads ρ doc a pending (declaredProperties convert l required fields ps) st fun ps' st' =>
      Described ρ doc pending st' s required ps' ∧
        ∀ name, name ∈ ps.keys ∨ name ∈ fields.map Prod.fst → name ∈ ps'.keys := by
  induction fields generalizing st ps with
  | nil =>
    refine .pure hs ⟨hps, fun name hname => ?_⟩
    simpa using hname
  | cons e rest ih =>
    obtain ⟨name, v⟩ := e
    have hv := hf (name, v) List.mem_cons_self
    unfold declaredProperties
    refine (Leads.lift hs _).bind fun _ s₁ hs₁ h₁ _ => ?_
    refine (hc _ hs₁ (hl.liesIn.push _) (hl.follow_property hv) (hl.uses v (.property hv))).bind
      fun r s₂ hs₂ h₂ hr => ?_
    have hps₂ := (hps.mono (h₁.trans h₂)).insert (p := ⟨r, decide (name ∉ required)⟩)
      (hr.imp fun B w h => h.declared v hv) fun ho => by simpa using ho
    refine (ih (fun e he => hf e (List.mem_cons_of_mem _ he)) hs₂ hps₂).mono
      fun ps' s₃ _ _ h₃ => ⟨h₃.1, fun other ho => h₃.2 other ?_⟩
    rw [OrderedMap.mem_keys_insert]
    rcases ho with ho | ho
    · exact .inl (.inr ho)
    · exact (List.mem_cons.1 ho).imp .inl id

/-- The type of further properties, if there is one, promises what the schema says of them;
    and there is one unless the schema forbids them. -/
theorem additionalType_spec (hc : Converts ρ doc a P convert) (hl : Placed doc a P l s)
    (hs : Sound ρ doc a pending st) :
    Leads ρ doc a pending (additionalType convert s l attributes) st fun additional st' =>
      (∀ r ∈ additional, Promises ρ doc pending st' r fun B w =>
        ∀ c, s.get? "additionalProperties" = some c → B c w) ∧
      (additional = none → s.get? "additionalProperties" = some (.bool false)) := by
  have hany : Leads ρ doc a pending (some <$> build (·.primitive .any ∅)) st
      fun additional st' => (∀ r ∈ additional, Promises ρ doc pending st' r fun B w =>
          ∀ c, s.get? "additionalProperties" = some c → B c w) ∧
        (additional = none → s.get? "additionalProperties" = some (.bool false)) := by
    refine .map ((Leads.primitive (k := .any) (C := fun _ _ => True) hs (by simp) rfl
      fun _ _ _ _ => trivial).mono fun r st' _ _ hr => ⟨fun x hx => ?_, by simp⟩)
    exact Option.some.inj hx ▸ hr.imp fun _ _ _ => trivial
  unfold additionalType
  rw [Schema.additional?_eq hl.plain]
  split
  · exact hany
  · exact hany
  · next hfalse => exact .pure hs ⟨by simp, fun _ => hfalse⟩
  · next v _ _ hv =>
    refine (Leads.lift hs _).bind fun _ s₁ hs₁ h₁ _ => ?_
    refine .map ((hc _ hs₁ (hl.liesIn.push _) (Location.follow_push_field hl.follow_eq hv)
      (hl.uses v (.additional hv))).mono fun r st' _ _ hr => ⟨fun x hx => ?_, by simp⟩)
    exact Option.some.inj hx ▸ hr.imp fun B w h => h v hv

theorem Described.foldl_insert {r : NodeId} (hr : Promises ρ doc pending st r fun B w =>
      ∀ c, s.get? "additionalProperties" = some c → B c w) {required names : List String}
    (hnames : ∀ name ∈ names, name ∈ required ∧ s.declared? name = none) {ps : Properties}
    (hps : Described ρ doc pending st s required ps) :
    Described ρ doc pending st s required
        (names.foldl (fun ps name => ps.insert name ⟨r, false⟩) ps) ∧
      ∀ name ∈ ps.keys, name ∈ (names.foldl (fun ps name => ps.insert name ⟨r, false⟩) ps).keys := by
  induction names generalizing ps with
  | nil => exact ⟨hps, fun _ => id⟩
  | cons name names ih =>
    obtain ⟨hreq, hdecl⟩ := hnames name List.mem_cons_self
    obtain ⟨h₁, h₂⟩ := ih (fun name h => hnames name (List.mem_cons_of_mem _ h))
      (hps.insert (p := ⟨r, false⟩) (hr.imp fun B w h => h.further hdecl) fun _ => hreq)
    exact ⟨h₁, fun other ho => h₂ other (OrderedMap.mem_keys_insert.2 (.inr ho))⟩

theorem withUndeclared_spec {required : List String} {additional : Option NodeId}
    {ps ps' : Properties} {place : Reference} (hps : Described ρ doc pending st s required ps)
    (hdeclared : ∀ name c, s.declared? name = some c → name ∈ ps.keys)
    (ha : ∀ r ∈ additional, Promises ρ doc pending st r fun B w =>
      ∀ c, s.get? "additionalProperties" = some c → B c w)
    (h : withUndeclared place required additional ps = .ok ps') :
    Described ρ doc pending st s required ps' ∧
      ∀ name c, s.declared? name = some c → name ∈ ps'.keys := by
  unfold withUndeclared at h
  split at h
  · cases h
    exact ⟨hps, hdeclared⟩
  · cases h
  · next r _ =>
    cases h
    have hnames : ∀ name ∈ required.filter fun name => !ps.contains name,
        name ∈ required ∧ s.declared? name = none := fun name hname => by
      obtain ⟨hreq, hnot⟩ := List.mem_filter.1 hname
      refine ⟨hreq, Option.eq_none_iff_forall_ne_some.2 fun c hc => ?_⟩
      obtain ⟨p, hp⟩ := OrderedMap.mem_keys_iff.1 (hdeclared name c hc)
      simp [OrderedMap.contains, hp] at hnot
    obtain ⟨h₁, h₂⟩ := hps.foldl_insert (ha r rfl) hnames
    exact ⟨h₁, fun name c hc => h₂ name (hdeclared name c hc)⟩

/-- The properties that are read are those that are declared. -/
theorem declared_of_properties (hl : Placed doc a P l s) {place : Reference}
    {properties : Json.Fields} (h : s.properties place = .ok properties) :
    (∀ e ∈ properties, s.declared? e.1 = some e.2) ∧
      ∀ name c, s.declared? name = some c → name ∈ properties.map Prod.fst := by
  unfold Schema.properties at h
  split at h
  · next hnone =>
    cases h
    refine ⟨by simp, fun name c hc => ?_⟩
    rw [Schema.declared?, hnone] at hc
    cases hc
  · next fields hfields =>
    cases h
    have hdistinct : (Json.object properties).KeysDistinct :=
      Json.FieldsKeysDistinct.of_mem hl.keysDistinct.2 (mem_of_lookup hfields)
    have heq : ∀ name, s.declared? name = properties.lookup name := fun name => by
      rw [Schema.declared?, hfields]
      rfl
    refine ⟨fun e he => (heq e.1).trans (Json.lookup_of_mem hdistinct.1 he), fun name c hc => ?_⟩
    exact List.mem_map_of_mem (mem_of_lookup ((heq name).symm.trans hc))
  · cases h

theorem get?_adjust (b : Builder) (ps : Properties) (name : String) :
    (b.adjust ps).get? name =
      (ps.get? name).map fun p => { p with optional := p.optional || b.allOptional } := by
  unfold Builder.adjust
  split
  · next h => simp [OrderedMap.get?_mapValues, h]
  · next h => simp [h]

theorem objectType_spec (hc : Converts ρ doc a P convert) (hl : Placed doc a P l s)
    (hs : Sound ρ doc a pending st) :
    Leads ρ doc a pending (objectType convert s l attributes) st fun r st' =>
      Promises ρ doc pending st' r fun B w =>
        (∃ fields, w = .object fields) ∧ s.Accepts ρ.formats doc B w := by
  unfold objectType
  refine (Leads.lift hs _).bind fun required s₁ hs₁ h₁ hrequired => ?_
  refine (Leads.lift hs₁ _).bind fun properties s₂ hs₂ h₂ hproperties => ?_
  obtain ⟨hread, hall⟩ := declared_of_properties hl hproperties
  have hreq : Schema.allRequired required properties = required :=
    Schema.allRequired_eq fun e he sub hsub =>
      hl.plain_of_uses sub (hsub ▸ hl.uses e.2 (.property (hread e he)))
  dsimp only
  rw [hreq]
  have hordered : ∀ e, e ∈ s.orderedProperties properties ↔ e ∈ properties := fun e =>
    (List.mergeSort_perm _ _).mem_iff
  have hempty : Described ρ doc pending s₂ s required ∅ :=
    ⟨fun _ _ h => (by cases h), fun _ _ h => (by cases h)⟩
  refine (declaredProperties_spec hc hl (fun e he => hread e ((hordered e).1 he)) hs₂
    hempty).bind fun ps s₃ hs₃ h₃ hps => ?_
  refine (additionalType_spec hc hl hs₃).bind fun additional s₄ hs₄ h₄ ⟨hadd, hforbids⟩ => ?_
  refine (Leads.lift hs₄ _).bind fun ps' s₅ hs₅ h₅ hwith => ?_
  have hdeclared : ∀ name c, s.declared? name = some c → name ∈ ps.keys := fun name c hc => by
    obtain ⟨e, he, rfl⟩ := List.mem_map.1 (hall name c hc)
    exact hps.2 e.1 (.inr (List.mem_map_of_mem ((hordered e).2 he)))
  obtain ⟨hps', hdeclared'⟩ := withUndeclared_spec ((hps.1.mono h₄).mono h₅) hdeclared
    (fun r hr => (hadd r hr).mono h₅) hwith
  refine .shared hs₅ (Builder.shared_add hs₅.shares
    (n := .new (.object (s₅.builder.adjust ps') additional) attributes) ?_) (by simp [Node.new]) ?_
  · intro c hc
    rcases List.mem_append.1 hc with hc | hc
    · obtain ⟨name, p, hp, rfl⟩ := Properties.exists_of_mem_types hc
      rw [get?_adjust] at hp
      obtain ⟨q, hq, rfl⟩ := Option.map_eq_some_iff.1 hp
      exact (hps'.promises name q hq).lt_size
    · exact ((hadd c (Option.mem_toList.1 hc)).mono h₅).lt_size
  · rintro h hh B hB _ ⟨⟨fields, rfl⟩, hw⟩
    refine ⟨fields, rfl, fun name p hp ho => ?_, fun e he => ?_⟩
    · rw [get?_adjust] at hp
      obtain ⟨q, hq, rfl⟩ := Option.map_eq_some_iff.1 hp
      refine Schema.mem_keys_of_required hw hrequired (hps'.required name q hq ?_)
      exact (Bool.or_eq_false_iff.1 ho).1
    · have haccepts : PropertyAccepts s B e.1 e.2 :=
        ⟨hw.properties fields rfl e he, fun hd c hc => hw.additional c fields hc rfl e he hd⟩
      rw [get?_adjust]
      cases hp : ps'.get? e.1 with
      | some p => exact (hps'.promises e.1 p hp).admits h hh B hB e.2 haccepts
      | none =>
        have hundeclared : s.declared? e.1 = none := by
          refine Option.eq_none_iff_forall_ne_some.2 fun c hc => ?_
          obtain ⟨p, hp'⟩ := OrderedMap.mem_keys_iff.1 (hdeclared' e.1 c hc)
          rw [hp] at hp'
          cases hp'
        cases additional with
        | none => exact absurd (haccepts.further hundeclared _ (hforbids rfl)) (hB.not_false _)
        | some r =>
          refine ⟨r, rfl, ?_⟩
          exact ((hadd r rfl).mono h₅).admits h hh B hB e.2 (haccepts.further hundeclared)

/-! ## Scalars -/

/-- Primitive types cover the values of the types that they are for. -/
theorem mapM_primitive_spec {kinds : List (Primitive × Kind × Attributes)}
    (hk : ∀ e ∈ kinds, e.2.1 ≠ .intersection ∅ ∧ e.2.1.children = [] ∧
      ∀ A w, e.1.accepts w = true → e.2.1.Admits ρ A w) (hs : Sound ρ doc a pending st) :
    Leads ρ doc a pending (kinds.mapM fun e => build (·.primitive e.2.1 e.2.2)) st fun rs st' =>
      Covers ρ doc pending st' rs fun _ w => ∃ e ∈ kinds, e.1.accepts w = true := by
  induction kinds generalizing st with
  | nil => exact .pure hs (.nil fun _ _ h => by simp at h)
  | cons e kinds ih =>
    obtain ⟨hne, hchildren, hadmits⟩ := hk e List.mem_cons_self
    rw [List.mapM_cons]
    refine (Leads.primitive hs hne hchildren fun A _ => hadmits A).bind fun r s₁ hs₁ _ hr => ?_
    refine (ih (fun e he => hk e (List.mem_cons_of_mem _ he)) hs₁).bind fun rs s₂ hs₂ h₂ hrs => ?_
    refine .pure hs₂ (((Covers.singleton (hr.mono h₂)).append hrs).imp ?_)
    rintro _ w ⟨e', he', hw⟩
    rcases List.mem_cons.1 he' with rfl | he'
    · exact .inl hw
    · exact .inr ⟨e', he', hw⟩

theorem plainTypes_spec {included : List Primitive} {numbers : Attributes}
    (hs : Sound ρ doc a pending st) :
    Leads ρ doc a pending (plainTypes included numbers) st fun rs st' =>
      Covers ρ doc pending st' rs fun _ w =>
        ∃ t ∈ included, t.accepts w = true ∧ t ∈ [.null, .number, .integer, .boolean] := by
  unfold plainTypes
  extract_lets kinds
  have hkinds : ∀ e ∈ kinds, e.2.1 ≠ .intersection ∅ ∧ e.2.1.children = [] ∧
      ∀ A w, e.1.accepts w = true → e.2.1.Admits ρ A w := by
    intro e he
    simp only [kinds, List.mem_cons, List.not_mem_nil, or_false] at he
    rcases he with rfl | rfl | rfl | rfl
    · exact ⟨by simp, rfl, fun A w hw => by cases w <;> first | rfl | cases hw⟩
    · exact ⟨by simp, rfl, fun A w hw => by cases w <;> first | exact ⟨_, rfl⟩ | cases hw⟩
    · exact ⟨by simp, rfl, fun A w hw => by cases w <;> first | exact ⟨_, rfl, hw⟩ | cases hw⟩
    · exact ⟨by simp, rfl, fun A w hw => by cases w <;> first | exact ⟨_, rfl⟩ | cases hw⟩
  refine (mapM_primitive_spec (fun e he => hkinds e (List.mem_filter.1 he).1) hs).mono
    fun rs st' _ _ hrs => hrs.imp ?_
  rintro _ w ⟨t, ht, hw, hkind⟩
  have hentry : ∃ e ∈ kinds, e.1 = t := by
    simp only [List.mem_cons, List.not_mem_nil, or_false] at hkind
    rcases hkind with rfl | rfl | rfl | rfl <;> simp [kinds]
  obtain ⟨e, he, rfl⟩ := hentry
  exact ⟨e, List.mem_filter.2 ⟨he, decide_eq_true ht⟩, hw⟩

theorem stringType_spec (hs : Sound ρ doc a pending st) :
    Leads ρ doc a pending (stringType s attributes) st fun r st' =>
      Promises ρ doc pending st' r fun B w =>
        (∃ text, w = .string text) ∧ s.Accepts ρ.formats doc B w := by
  unfold stringType
  cases hcases : s.cases? with
  | some cases =>
    refine .primitive hs (by simp) rfl ?_
    rintro A B _ ⟨⟨text, rfl⟩, hw⟩
    refine ⟨text, rfl, fun c hc => ?_⟩
    cases hc
    exact Schema.mem_cases hw cases hcases
  | none =>
    cases hf : s.format? with
    | some f =>
      refine .primitive hs (by simp) rfl ?_
      rintro A B _ ⟨⟨text, rfl⟩, hw⟩
      exact ⟨text, rfl, hw.format f text hf rfl⟩
    | none =>
      refine .primitive hs (by simp) rfl ?_
      rintro A B _ ⟨⟨text, rfl⟩, -⟩
      exact ⟨text, rfl, by simp⟩

/-- **The union of what a schema describes itself promises all that the keywords accept.** -/
theorem ownUnion_spec (hc : Converts ρ doc a P convert) (hl : Placed doc a P l s)
    {allowed : Option (List Primitive)} {place : Reference} (ha : s.types? place = .ok allowed)
    {produced : List Produced} (hs : Sound ρ doc a pending st) :
    Leads ρ doc a pending (ownUnion convert s l allowed produced attributes) st fun r st' =>
      Promises ρ doc pending st' r fun B w => s.Accepts ρ.formats doc B w := by
  unfold ownUnion
  extract_lets included inferred
  refine (plainTypes_spec hs).bind fun plain s₁ hs₁ _ hplain => ?_
  dsimp only
  refine .optional hs₁
    (Q := fun rs st' => Covers ρ doc pending st' rs fun B w =>
      (∃ text, w = .string text) ∧ s.Accepts ρ.formats doc B w)
    (fun _ => (stringType_spec hs₁).mono fun r s' _ _ hr => .singleton hr)
    (fun hn => .nil ?_) fun strings s₂ hs₂ h₂ hstrings => ?_
  · rintro B _ ⟨⟨text, rfl⟩, hw⟩
    obtain ⟨t, ht, hacc⟩ := Schema.exists_included hl.plain hw ha
    cases t with
    | string => exact hn ht
    | _ => cases hacc
  refine .optional hs₂
    (Q := fun rs st' => Covers ρ doc pending st' rs fun B w =>
      (∃ ws, w = .array ws) ∧ s.Accepts ρ.formats doc B w)
    (fun _ => (arrayType_spec hc hl hs₂).mono fun r s' _ _ hr => .singleton hr)
    (fun hn => .nil ?_) fun arrays s₃ hs₃ h₃ harrays => ?_
  · rintro B _ ⟨⟨ws, rfl⟩, hw⟩
    exact hn (Schema.isOpenTo_of_accepts hl.plain rfl hw ha rfl)
  refine .optional hs₃
    (Q := fun rs st' => Covers ρ doc pending st' rs fun B w =>
      (∃ fields, w = .object fields) ∧ s.Accepts ρ.formats doc B w)
    (fun _ => (objectType_spec hc hl hs₃).mono fun r s' _ _ hr => .singleton hr)
    (fun hn => .nil ?_) fun objects s₄ hs₄ h₄ hobjects => ?_
  · rintro B _ ⟨⟨fields, rfl⟩, hw⟩
    exact hn (Schema.isOpenTo_of_accepts hl.plain rfl hw ha rfl)
  -- each value is covered by the part for its type
  have hplain := ((hplain.mono h₂).mono h₃).mono h₄
  have hcovers := ((hplain.append ((hstrings.mono h₃).mono h₄)).append (harrays.mono h₄)).append
    hobjects
  refine .union hs₄ (hcovers.imp fun B w hw => ?_)
  cases w with
  | string text => exact .inl (.inl (.inr ⟨⟨text, rfl⟩, hw⟩))
  | array ws => exact .inl (.inr ⟨⟨ws, rfl⟩, hw⟩)
  | object fields => exact .inr ⟨⟨fields, rfl⟩, hw⟩
  | _ =>
    obtain ⟨t, ht, hacc⟩ := Schema.exists_included hl.plain hw ha
    refine .inl (.inl (.inl ⟨t, ht, hacc, ?_⟩))
    cases t <;> first | decide | cases hacc

end SchemaTypes.Conversion
