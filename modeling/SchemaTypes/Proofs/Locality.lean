/-
  Where the constraints on a type come from.

  The producers that every conversion uses find constraints in seven keywords.  They go to the
  numbers and strings of the schema itself; but these are shared, except listed strings, so that a
  number or string carries what all schemas declare that describe values of its kind, in the order
  in which they were met.  What a schema declares stays with the kinds that it describes.

  * `Schema.declares`: what a schema declares for the simple types that it describes, which is what
    it asks for (`asked_standard`);
  * `Conversion.Alternative`: a type among those that a schema describes itself;
  * `ConstrainedFor`, `constrainedFor_of_alternative`: whence the constraints on a number or string
    come.
-/
import SchemaTypes.Proofs.Answering
import SchemaTypes.Proofs.Keys

namespace SchemaTypes

/-! ## Constraints in keywords -/

namespace Schema

variable {s : Schema} {place : Reference}

/-- What `minimum` and `maximum` say of the numbers that a schema describes. -/
def numberConstraints (s : Schema) : Attributes :=
  { Attributes.empty with minMax := Producer.boundsOf s "minimum" "maximum" }

/-- The protocols and extensions of the URIs that a schema describes, if it names any. -/
def uri? (s : Schema) : Option UriAttributes :=
  let u : UriAttributes :=
    ⟨Producer.textItems s "qt-uri-protocols", Producer.textItems s "qt-uri-extensions"⟩
  if u = .empty then none else some u

/-- What a schema says of the strings that it describes. -/
def stringConstraints (s : Schema) : Attributes :=
  { Attributes.empty with
    uri := s.uri?
    minMaxLength := Producer.boundsOf s "minLength" "maxLength"
    pattern := Producer.textOf s "pattern" }

/-- The simple types that a schema describes itself, with the constraints that it declares. -/
def declares (s : Schema) (place : Reference) : Requests :=
  match s.types? place with
  | .error _ => []
  | .ok allowed =>
    if s.constrainsValues then
      s.simpleTypes (s.included allowed) s.numberConstraints s.stringConstraints
    else []

/-- The keywords that declare constraints. -/
def constraintKeywords : List String :=
  ["minimum", "maximum", "minLength", "maxLength", "pattern", "qt-uri-protocols",
    "qt-uri-extensions"]

/-- The schema declares no constraints. -/
def Lax (s : Schema) : Prop := ∀ keyword ∈ constraintKeywords, s.get? keyword = none

instance : Decidable s.Lax := by
  unfold Lax
  infer_instance

theorem Lax.numberConstraints (h : s.Lax) : s.numberConstraints = ∅ := by
  have hmin : s.lookup "minimum" = none := h _ (by decide)
  have hmax : s.lookup "maximum" = none := h _ (by decide)
  simp only [Schema.numberConstraints, Producer.boundsOf, hmin, hmax]
  rfl

theorem Lax.stringConstraints (h : s.Lax) : s.stringConstraints = ∅ := by
  have hmin : s.lookup "minLength" = none := h _ (by decide)
  have hmax : s.lookup "maxLength" = none := h _ (by decide)
  have hpattern : s.lookup "pattern" = none := h _ (by decide)
  have hprotocols : s.lookup "qt-uri-protocols" = none := h _ (by decide)
  have hextensions : s.lookup "qt-uri-extensions" = none := h _ (by decide)
  simp only [Schema.stringConstraints, uri?, Producer.boundsOf, Producer.textOf,
    Producer.textItems, hmin, hmax, hpattern, hprotocols, hextensions]
  rfl

/-! ### Simple types -/

theorem mem_simpleTypes {included : List Primitive} {numbers strings : Attributes}
    {e : Kind × Attributes} (he : e ∈ s.simpleTypes included numbers strings) :
    e.2 = ∅ ∨ e.2 = numbers ∨ e.2 = strings := by
  rcases List.mem_append.1 he with he | he
  · obtain ⟨e', he', rfl⟩ := List.mem_map.1 he
    have he' := (List.mem_filter.1 he').1
    simp only [List.mem_cons, List.not_mem_nil, or_false] at he'
    rcases he' with rfl | rfl | rfl | rfl
    · exact .inl rfl
    · exact .inr (.inl rfl)
    · exact .inr (.inl rfl)
    · exact .inl rfl
  · split at he
    · obtain rfl := List.mem_singleton.1 he
      exact .inr (.inr rfl)
    · cases he

/-- Constraints do not matter for types that are not included. -/
theorem simpleTypes_congr {included : List Primitive} {numbers numbers' strings strings' : Attributes}
    (hnumbers : .number ∈ included ∨ .integer ∈ included → numbers = numbers')
    (hstrings : .string ∈ included → strings = strings') :
    s.simpleTypes included numbers strings = s.simpleTypes included numbers' strings' := by
  have hplain : plainTypes included numbers = plainTypes included numbers' := by
    by_cases h : .number ∈ included ∨ .integer ∈ included
    · rw [hnumbers h]
    · obtain ⟨hnumber, hinteger⟩ := not_or.1 h
      simp [plainTypes, List.filter_cons, hnumber, hinteger]
  unfold simpleTypes
  rw [hplain]
  split
  · next h => rw [hstrings h]
  · rfl

theorem constraints_of_mem_declares {e : Kind × Attributes} (he : e ∈ s.declares place) :
    e.2.constraints = e.2 := by
  unfold declares at he
  split at he
  · cases he
  · split at he
    · rcases mem_simpleTypes he with h | h | h <;> rw [h] <;> rfl
    · cases he

theorem Lax.declares (h : s.Lax) {e : Kind × Attributes} (he : e ∈ s.declares place) :
    e.2 = ∅ := by
  unfold Schema.declares at he
  split at he
  · cases he
  · split at he
    · rcases mem_simpleTypes he with he | he | he
      · exact he
      · exact he.trans h.numberConstraints
      · exact he.trans h.stringConstraints
    · cases he

end Schema

/-! ## Producers -/

namespace Producer

open Conversion

variable {s : Schema} {place : Reference} {included : List Primitive}

/-- The constraints that a producer finds for a part of a type. -/
def constraintsFor (p : Producer) (s : Schema) (place : Reference) (included : List Primitive)
    (part : Produced → Option Attributes) : Attributes :=
  (((p s place included none).bind part).getD ∅).constraints

/-- Producers find constraints one after the other. -/
theorem constraints_partOf_produce (producers : List Producer)
    (part : Produced → Option Attributes) :
    (partOf (produce producers s place included none) part).constraints =
      producers.foldl (fun a p => a ∪ p.constraintsFor s place included part) ∅ := by
  suffices ∀ a : Attributes,
      ((producers.filterMap fun p => (p s place included none).bind part).foldl .union
        a).constraints =
      producers.foldl (fun a p => a ∪ p.constraintsFor s place included part) a.constraints by
    rw [partOf, produce, List.filterMap_filterMap]
    exact this ∅
  induction producers with
  | nil => exact fun _ => rfl
  | cons p producers ih =>
    intro a
    rw [List.foldl_cons, constraintsFor, List.filterMap_cons]
    cases hp : (p s place included none).bind part with
    | none =>
      rw [Option.getD_none, Attributes.constraints_empty, Attributes.constraints_union_empty]
      exact ih a
    | some b => exact ih (a ∪ b)

theorem constraintsFor_eq_empty {p : Producer} {part : Produced → Option Attributes}
    (h : ∀ x, p s place included none = some x → ((part x).getD ∅).constraints = ∅) :
    p.constraintsFor s place included part = ∅ := by
  unfold constraintsFor
  cases hx : p s place included none with
  | none => rfl
  | some x => exact h x hx

theorem constraintsFor_of_none {p : Producer} {part : Produced → Option Attributes}
    (h : ∀ x, p s place included none = some x → part x = none) :
    p.constraintsFor s place included part = ∅ :=
  constraintsFor_eq_empty fun x hx => congrArg (fun o => (o.getD ∅).constraints) (h x hx)

/-! ### One by one -/

theorem description_parts {x : Produced} (hx : description s place included none = some x) :
    x.forNumber = none ∧ x.forString = none := by
  simp only [description, Option.ite_none_left_eq_some, Option.some.injEq] at hx
  obtain ⟨-, rfl⟩ := hx
  exact ⟨rfl, rfl⟩

theorem accessors_parts {x : Produced} (hx : accessors s place included none = some x) :
    x.forNumber = none ∧ x.forString = none := by
  simp only [accessors, bind, pure, Option.bind_eq_some_iff, Option.some.injEq] at hx
  obtain ⟨_, -, _, -, rfl⟩ := hx
  exact ⟨rfl, rfl⟩

/-- Names of cases are no constraints. -/
theorem enumValues_parts {x : Produced} (hx : enumValues s place included none = some x) :
    x.forNumber = none ∧ (x.forString.getD ∅).constraints = ∅ := by
  simp only [enumValues, Option.ite_none_left_eq_some, bind, pure, Option.bind_eq_some_iff,
    Option.some.injEq] at hx
  obtain ⟨-, _, -, _, -, rfl⟩ := hx
  exact ⟨rfl, rfl⟩

theorem uri_forNumber {x : Produced} (hx : uri s place included none = some x) :
    x.forNumber = none := by
  simp only [uri, Option.ite_none_left_eq_some, Option.some.injEq] at hx
  obtain ⟨-, -, rfl⟩ := hx
  rfl

theorem range_forString {x : Produced} (hx : range s place included none = some x) :
    x.forString = none := by
  simp only [range, Option.ite_none_left_eq_some, Option.map_eq_some_iff] at hx
  obtain ⟨-, _, -, rfl⟩ := hx
  rfl

theorem lengths_forNumber {x : Produced} (hx : lengths s place included none = some x) :
    x.forNumber = none := by
  simp only [lengths, Option.ite_none_left_eq_some, Option.map_eq_some_iff] at hx
  obtain ⟨-, _, -, rfl⟩ := hx
  rfl

theorem pattern_forNumber {x : Produced} (hx : pattern s place included none = some x) :
    x.forNumber = none := by
  simp only [pattern, Option.ite_none_left_eq_some, Option.map_eq_some_iff] at hx
  obtain ⟨-, _, -, rfl⟩ := hx
  rfl

theorem constraintsFor_range (h : .number ∈ included ∨ .integer ∈ included) :
    range.constraintsFor s place included (·.forNumber) = s.numberConstraints := by
  unfold constraintsFor range Schema.numberConstraints
  rw [if_neg (by simpa using Decidable.or_iff_not_imp_left.1 h)]
  cases boundsOf s "minimum" "maximum" <;> rfl

theorem constraintsFor_uri (h : .string ∈ included) :
    uri.constraintsFor s place included (·.forString) =
      { Attributes.empty with uri := s.uri? } := by
  unfold constraintsFor uri Schema.uri?
  rw [if_neg (by simp [h])]
  dsimp only
  split <;> rfl

theorem constraintsFor_lengths (h : .string ∈ included) :
    lengths.constraintsFor s place included (·.forString) =
      { Attributes.empty with minMaxLength := boundsOf s "minLength" "maxLength" } := by
  unfold constraintsFor lengths
  rw [if_neg (by simp [h])]
  cases boundsOf s "minLength" "maxLength" <;> rfl

theorem constraintsFor_pattern (h : .string ∈ included) :
    pattern.constraintsFor s place included (·.forString) =
      { Attributes.empty with pattern := textOf s "pattern" } := by
  unfold constraintsFor pattern
  rw [if_neg (by simp [h])]
  cases textOf s "pattern" <;> rfl

/-! ### Together -/

theorem constraints_forNumber (h : .number ∈ included ∨ .integer ∈ included) :
    (partOf (produce standard s place included none) (·.forNumber)).constraints =
      s.numberConstraints := by
  rw [constraints_partOf_produce]
  simp only [standard, List.foldl_cons, List.foldl_nil, constraintsFor_range h,
    constraintsFor_of_none fun _ hx => (description_parts hx).1,
    constraintsFor_of_none fun _ hx => (accessors_parts hx).1,
    constraintsFor_of_none fun _ hx => (enumValues_parts hx).1,
    constraintsFor_of_none fun _ hx => uri_forNumber hx,
    constraintsFor_of_none fun _ hx => lengths_forNumber hx,
    constraintsFor_of_none fun _ hx => pattern_forNumber hx]
  unfold Schema.numberConstraints
  cases boundsOf s "minimum" "maximum" <;> rfl

theorem constraints_forString (h : .string ∈ included) :
    (partOf (produce standard s place included none) (·.forString)).constraints =
      s.stringConstraints := by
  rw [constraints_partOf_produce]
  simp only [standard, List.foldl_cons, List.foldl_nil, constraintsFor_uri h,
    constraintsFor_lengths h, constraintsFor_pattern h,
    constraintsFor_of_none fun _ hx => (description_parts hx).2,
    constraintsFor_of_none fun _ hx => (accessors_parts hx).2,
    constraintsFor_of_none fun _ hx => range_forString hx,
    constraintsFor_eq_empty fun _ hx => (enumValues_parts hx).2]
  unfold Schema.stringConstraints
  cases s.uri? <;> cases boundsOf s "minLength" "maxLength" <;> cases textOf s "pattern" <;> rfl

/-- **What a schema asks for is what it declares.** -/
theorem asked_standard : Schema.asked standard s place = s.declares place := by
  unfold Schema.asked Schema.declares
  cases s.types? place with
  | error => rfl
  | ok allowed =>
    dsimp only
    split
    · exact Schema.simpleTypes_congr constraints_forNumber constraints_forString
    · rfl

end Producer

theorem Kind.exists_listed {k : Kind} (h : k.isScalar = true) (hprim : k.isPrimitive = false) :
    ∃ cases, k = .string (some cases) := by
  cases k with
  | string cases =>
    cases cases with
    | none => cases hprim
    | some cases => exact ⟨cases, rfl⟩
  | integer | double | formatted => cases hprim
  | _ => cases h

/-! ## Requests of many schemas -/

namespace Requests

variable {asked : Requests} {k : Kind} {a : Attributes} {ι : Type} {places : List ι}
  {f : ι → Requests}

theorem total_cons (e : Kind × Attributes) :
    total (e :: asked) k a = asked.total k (if e.1 = k then a ∪ e.2 else a) := by
  unfold total
  rw [List.filter_cons]
  by_cases h : e.1 = k <;> simp [h]

theorem constraints_total (hasked : ∀ e ∈ asked, e.2.constraints = e.2)
    (ha : a.constraints = a) : (asked.total k a).constraints = asked.total k a := by
  induction asked generalizing a with
  | nil => exact ha
  | cons e asked ih =>
    rw [total_cons]
    refine ih (fun e he => hasked e (List.mem_cons_of_mem _ he)) ?_
    split
    · rw [Attributes.constraints_union, ha, hasked e List.mem_cons_self]
    · exact ha

/-- Requests without constraints add nothing. -/
theorem total_eq_self (hasked : ∀ c, (k, c) ∈ asked → c = ∅) (ha : a.constraints = a) :
    asked.total k a = a := by
  induction asked with
  | nil => rfl
  | cons e asked ih =>
    rw [total_cons]
    have hrest := ih fun c hc => hasked c (List.mem_cons_of_mem _ hc)
    split
    · next heq =>
      subst heq
      rw [hasked e.2 List.mem_cons_self, ← ha, Attributes.constraints_union_empty, ha, hrest]
    · exact hrest

/-- Only those count that ask for the kind, with constraints. -/
theorem total_flatMap_filter {keep : ι → Bool}
    (hf : ∀ p ∈ places, ∀ e ∈ f p, e.2.constraints = e.2)
    (hkeep : ∀ p ∈ places, keep p = false → ∀ c, (k, c) ∈ f p → c = ∅)
    (ha : a.constraints = a) :
    total (places.flatMap f) k a = total ((places.filter keep).flatMap f) k a := by
  induction places generalizing a with
  | nil => rfl
  | cons p places ih =>
    have hfp := hf p List.mem_cons_self
    replace ih := fun {a} => ih (a := a) (fun p hp => hf p (List.mem_cons_of_mem _ hp))
      fun p hp => hkeep p (List.mem_cons_of_mem _ hp)
    rw [List.flatMap_cons, total_append, List.filter_cons]
    cases hp : keep p with
    | false =>
      rw [total_eq_self (hkeep p List.mem_cons_self hp) ha]
      exact ih ha
    | true =>
      rw [if_pos rfl, List.flatMap_cons, total_append]
      exact ih (constraints_total hfp ha)

end Requests

/-! ## Constraints on alternatives -/

namespace Conversion

variable {st : Conversion} {place : Reference} {m : NodeId}

/-- What the schema of a canonical reference declares. -/
def declaredAt (st : Conversion) (place : Reference) : Requests :=
  match st.resolver.schemaAt? place with
  | some (.object s) => Schema.declares s place
  | _ => []

/-- What the schemas of canonical references declare, in order. -/
def declaredBy (st : Conversion) (places : List Reference) : Requests :=
  places.flatMap st.declaredAt

/-- The schema of a canonical reference declares no constraints. -/
def LaxAt (st : Conversion) (place : Reference) : Prop :=
  match st.resolver.schemaAt? place with
  | some (.object s) => Schema.Lax s
  | _ => True

instance : Decidable (st.LaxAt place) := by
  unfold LaxAt
  split <;> infer_instance

/-- The node is one of the types that the schema of a canonical reference describes itself. -/
def Alternative (st : Conversion) (place : Reference) (m : NodeId) : Prop :=
  ∃ r u, st.types.get? place = some r ∧
    u ∈ (st.builder.graph.kind r).intersectionMembers ∧
    m ∈ (st.builder.graph.kind u).unionMembers

/-- Whence the constraints on a number or string come that is an alternative of a schema. -/
structure ConstrainedFor (st : Conversion) (place : Reference) (m : NodeId) : Prop where
  /-- The schema describes values of the kind.  Listed strings carry what it declares. -/
  own : ∃ c, (st.builder.graph.kind m, c) ∈ st.declaredAt place ∧
    ((st.builder.graph.kind m).isPrimitive = false →
      (st.builder.graph.attributes m).constraints = c)
  /-- Others carry what all schemas declare for the kind, one after the other. -/
  shared : (st.builder.graph.kind m).isPrimitive = true →
    (st.builder.graph.attributes m).constraints =
      (st.declaredBy st.types.keys).total (st.builder.graph.kind m) ∅
  /-- If the schema declares nothing, then it does not matter what another one declares that
      describes no values of the kind. -/
  apart : st.LaxAt place → ∀ p, (∀ c, (st.builder.graph.kind m, c) ∉ st.declaredAt p) →
    (st.builder.graph.attributes m).constraints =
      if (st.builder.graph.kind m).isPrimitive then
        (st.declaredBy (st.types.keys.filter fun q => q ≠ place ∧ q ≠ p)).total
          (st.builder.graph.kind m) ∅
      else ∅
  /-- If no other schema declares anything that describes values of the kind, then there are no
      constraints. -/
  free : st.LaxAt place →
    ((st.builder.graph.kind m).isPrimitive = true → ∀ p ∈ st.types.keys, p ≠ place →
      (∃ c, (st.builder.graph.kind m, c) ∈ st.declaredAt p) → st.LaxAt p) →
    (st.builder.graph.attributes m).constraints = ∅

theorem askedAt_standard : st.askedAt Producer.standard place = st.declaredAt place := by
  unfold askedAt declaredAt
  cases st.resolver.schemaAt? place with
  | none => rfl
  | some v =>
    cases v with
    | object s => exact Producer.asked_standard
    | _ => rfl

theorem requests_standard : requests Producer.standard st = st.declaredBy st.types.keys :=
  congrArg (st.types.keys.flatMap ·) (funext fun _ => askedAt_standard)

theorem constraints_of_mem_declaredAt {e : Kind × Attributes} (he : e ∈ st.declaredAt place) :
    e.2.constraints = e.2 := by
  unfold declaredAt at he
  split at he
  · exact Schema.constraints_of_mem_declares he
  · cases he

theorem LaxAt.eq_empty (h : st.LaxAt place) {e : Kind × Attributes}
    (he : e ∈ st.declaredAt place) : e.2 = ∅ := by
  unfold LaxAt at h
  unfold declaredAt at he
  cases hv : st.resolver.schemaAt? place with
  | none =>
    rw [hv] at he
    cases he
  | some v =>
    rw [hv] at h he
    cases v with
    | object s => exact Schema.Lax.declares h he
    | _ => cases he

/-- What is not declared for a kind does not count for it. -/
theorem LaxAt.total_apart (h : st.LaxAt place) {p : Reference} {k : Kind}
    (hp : ∀ c, (k, c) ∉ st.declaredAt p) (places : List Reference) :
    (st.declaredBy places).total k ∅ =
      (st.declaredBy (places.filter fun q => q ≠ place ∧ q ≠ p)).total k ∅ := by
  refine Requests.total_flatMap_filter (fun _ _ _ => constraints_of_mem_declaredAt)
    (fun q _ hq c hc => ?_) rfl
  by_cases heq : q = place
  · exact (heq ▸ h).eq_empty hc
  · have hqp : q = p := by simpa [heq] using hq
    exact absurd (hqp ▸ hc) (hp c)

/-- Without constraints for a kind there are none on its node. -/
theorem total_declaredBy_eq_empty {k : Kind} {places : List Reference}
    (h : ∀ p ∈ places, (∃ c, (k, c) ∈ st.declaredAt p) → st.LaxAt p) :
    (st.declaredBy places).total k ∅ = ∅ := by
  refine Requests.total_eq_self (fun c hc => ?_) rfl
  obtain ⟨p, hp, hc⟩ := List.mem_flatMap.1 hc
  exact (h p hp ⟨c, hc⟩).eq_empty hc

/-! ### What a conversion comes to -/

section

variable {producers : List Producer} {b₀ : Builder} {st₀ : Conversion} {resolver : Resolver}
  {allOptional : Bool} {depth : Nat} {references : List (String × Reference)}

/-- A schema has asked for the numbers and strings among its alternatives. -/
theorem answers_of_alternative (hs : Orderly producers b₀ st) (howned : Owned st₀ st)
    (hb : b₀.graph.size = 0) (hst : st₀.builder.graph.size = 0) (hm : st.Alternative place m)
    (hk : (st.builder.graph.kind m).isScalar = true) :
    st.builder.Answers (st.askedAt producers place) m := by
  obtain ⟨r, u, hr, hu, hm⟩ := hm
  obtain ⟨p, hp, hfounded⟩ := hs.founded r (hb ▸ Nat.zero_le r) (List.ne_nil_of_mem hu)
  have hunique : ∃! p, st.types.get? p = some r :=
    howned.existsUnique r (hst ▸ Nat.zero_le r) (Kind.isIntersection_of_mem hu)
  obtain rfl : p = place := hunique.unique hp hr
  exact hfounded u hu m hm hk

/-- **A number or string carries the constraints that are declared for its kind**, after every
    conversion with the standard producers. -/
theorem constrainedFor_of_alternative
    (hrun : (addTopLevels Producer.standard depth references).run
      ⟨resolver, .new allOptional, ∅⟩ = (.ok (), st))
    (hm : st.Alternative place m) (hk : (st.builder.graph.kind m).isScalar = true) :
    st.ConstrainedFor place m := by
  have htidy : (Builder.new allOptional).Tidy := Builder.tidy_new allOptional
  have hs : Orderly Producer.standard (.new allOptional) st :=
    ensures_addTopLevels depth (orderly_start htidy) () st hrun
  have howned : Owned ⟨resolver, .new allOptional, ∅⟩ st :=
    (owned_start htidy.shares rfl).later ((passes_addTopLevels depth references).reaches_of_run hrun)
  obtain ⟨⟨k, c⟩, hc, hprovides⟩ := answers_of_alternative hs howned rfl rfl hm hk
  rw [askedAt_standard] at hc
  obtain rfl : st.builder.graph.kind m = k := hprovides.kind_eq
  have hlisted : (st.builder.graph.kind m).isPrimitive = false →
      (st.builder.graph.attributes m).constraints = c := fun hprim => by
    obtain ⟨cases, hcases⟩ := Kind.exists_listed hk hprim
    exact hprovides.listed cases hcases
  have hshared : (st.builder.graph.kind m).isPrimitive = true →
      (st.builder.graph.attributes m).constraints =
        (st.declaredBy st.types.keys).total (st.builder.graph.kind m) ∅ := fun hprim => by
    rw [← Builder.constraintsOf_of_get? (hprovides.shared hprim), hs.constraintsOf_eq _ hk hprim,
      requests_standard]
    rfl
  refine ⟨⟨c, hc, hlisted⟩, hshared, fun hlax p hp => ?_, fun hlax hothers => ?_⟩
  · split
    · next hprim => exact (hshared hprim).trans (hlax.total_apart hp _)
    · next hprim => exact (hlisted (Bool.eq_false_iff.2 hprim)).trans (hlax.eq_empty hc)
  · cases hprim : (st.builder.graph.kind m).isPrimitive with
    | false => exact (hlisted hprim).trans (hlax.eq_empty hc)
    | true =>
      refine (hshared hprim).trans (total_declaredBy_eq_empty fun p hp hdeclared => ?_)
      by_cases heq : p = place
      · exact heq ▸ hlax
      · exact hothers hprim p hp heq hdeclared

end

/-! ### A number of one's own and a part -/

/-- A property that is a number with a least value, or an object with a part of another type. -/
def gauge (part : String) : Json :=
  .object [("type", .string "object"), ("properties", .object [("count", .object
    [("type", .array [.string "integer", .string "object"]), ("minimum", .number (.integer 0)),
      ("properties", .object [("part", .object [("type", .string part)])])])])]

/-- What becomes of such a schema. -/
def gaugeRun (part : String) : Except ConversionError Unit × Conversion :=
  (addTopLevels Producer.standard 3 [("Gauge", ⟨some (.relative "gauge.json"), [.root]⟩)]).run
    ⟨.ofFetcher (.serving [(.relative "gauge.json", gauge part)] .nothing), .new, ∅⟩

/-- The places of the property and of the part. -/
def countPlace : Reference :=
  ⟨some (.relative "gauge.json"), [.root, .key "properties", .key "count"]⟩

def partPlace : Reference := countPlace.push ["properties", "part"]

/-- What is declared for the number is not on the text. -/
theorem constrainedFor_gauge : (gaugeRun "string").1.isOk = true ∧
    (gaugeRun "string").2.Alternative partPlace 4 ∧
    (gaugeRun "string").2.builder.graph.kind 4 = .string none ∧
    (gaugeRun "string").2.ConstrainedFor partPlace 4 ∧
    ((gaugeRun "string").2.builder.graph.attributes 2).minMax =
      some ⟨some (.finite (.ofInt 0)), none⟩ ∧
    ((gaugeRun "string").2.builder.graph.attributes 4).constraints = ∅ := by
  have hok : (gaugeRun "string").1.isOk = true := by decide +kernel
  have hm : (gaugeRun "string").2.Alternative partPlace 4 :=
    ⟨3, 5, by decide +kernel, by decide +kernel, by decide +kernel⟩
  have hk : (gaugeRun "string").2.builder.graph.kind 4 = .string none := by decide +kernel
  have hconstrained : (gaugeRun "string").2.ConstrainedFor partPlace 4 :=
    constrainedFor_of_alternative (run_eq_of_isOk hok) hm (by rw [hk]; rfl)
  have hcount : ∀ e ∈ (gaugeRun "string").2.declaredAt countPlace, e.1 ≠ .string none := by
    decide +kernel
  have happart := hconstrained.apart (by decide +kernel) countPlace fun c hc =>
    hcount _ (hk ▸ hc) rfl
  refine ⟨hok, hm, hk, hconstrained, by decide +kernel, happart.trans ?_⟩
  decide +kernel

/-- Where the part is a number too, both share a node: the least value of the one is on the
    other, which declares nothing. -/
theorem not_local_gauge : (gaugeRun "integer").1.isOk = true ∧
    ¬∀ p q m e b, p ≠ q → (gaugeRun "integer").2.LaxAt q →
      (gaugeRun "integer").2.Alternative q m →
      ((gaugeRun "integer").2.builder.graph.kind m).isScalar = true →
      e ∈ (gaugeRun "integer").2.declaredAt p → e.2.minMax = some b →
      ((gaugeRun "integer").2.builder.graph.attributes m).minMax ≠ some b := by
  refine ⟨by decide +kernel, fun h => ?_⟩
  have hm : (gaugeRun "integer").2.Alternative partPlace 2 :=
    ⟨3, 4, by decide +kernel, by decide +kernel, by decide +kernel⟩
  have hb : (.integer, { Attributes.empty with minMax := some ⟨some (.finite (.ofInt 0)), none⟩ }) ∈
      (gaugeRun "integer").2.declaredAt countPlace := by decide +kernel
  exact h countPlace partPlace 2 _ _ (by decide) (by decide +kernel) hm (by decide +kernel) hb rfl
    (by decide +kernel)

end Conversion

end SchemaTypes
