/-
  Canonical references as keys.

  Types are entered by canonical references.  These are sound keys: a canonical reference stands for
  one schema, however it was come by, and that schema is converted once.

  * `passes_typeOf`, `passes_addTopLevels`: conversion moves on, whatever comes out of it;
  * `Owned`: every intersection that was made is the type of one canonical reference, which every
    move keeps (`Owned.move`, `Owned.later`);
  * `soundKeys`: what all this says of a state that a conversion comes to.
-/
import Mathlib.Logic.ExistsUnique
import SchemaTypes.Proofs.Alike

namespace SchemaTypes.Conversion

variable {producers : List Producer} {st st' st₀ : Conversion} {place : Reference} {r : NodeId}

/-! ## Conversion moves on -/

/-- **A schema is converted by moves, at any depth**, and its type is entered if that succeeds. -/
theorem passes_typeOf (depth : Nat) (v : Json) (l : Location) (a : Attributes) :
    Passes Move (fun _ => True) (typeOf producers depth v l a) st fun r st' =>
      st'.types.get? l.canonical = some r := by
  induction depth generalizing st v l a with
  | zero => exact Passes.throw trivial
  | succ depth ih =>
    refine agrees_typeOf (fun _ _ => trivial) fun _ s _ attributes => ⟨?_, ?_⟩
    · intro w _ st' _ l' a'
      exact (ih w l' a').mono fun _ _ _ _ => trivial
    · intro st' _ text _ w l' _ a'
      exact (ih w l' a').mono fun _ _ _ _ => trivial

theorem passes_addTopLevels (depth : Nat) (references : List (String × Reference)) :
    Passes Move (fun _ => True) (addTopLevels producers depth references) st fun _ _ => True := by
  refine alike_addTopLevels (fun _ _ => trivial) fun e _ st' _ v l _ a => ?_
  exact (passes_typeOf depth v l a).mono fun _ _ _ _ => trivial

/-! ## Intersections and their references -/

/-- Every intersection made since is the type of one canonical reference. -/
structure Owned (st₀ st : Conversion) : Prop where
  shares : st.builder.Shares
  size_le : st₀.builder.graph.size ≤ st.builder.graph.size
  lt_size : ∀ place r, st.types.get? place = some r → r < st.builder.graph.size
  existsUnique : ∀ r, st₀.builder.graph.size ≤ r →
    (st.builder.graph.kind r).isIntersection = true → ∃! place, st.types.get? place = some r

theorem owned_start (hshares : st₀.builder.Shares) (htypes : st₀.types = ∅) : Owned st₀ st₀ where
  shares := hshares
  size_le := Nat.le_refl _
  lt_size place r hr := by
    rw [htypes] at hr
    cases hr
  existsUnique r hr hk := absurd (Graph.lt_size_of_isIntersection hk) (Nat.not_lt.2 hr)

/-- Entering another node for a new reference leaves a node with the one reference it has. -/
theorem existsUnique_insert {types : OrderedMap Reference NodeId} {x : NodeId}
    (hnone : types.get? place = none) (hne : x ≠ r) (h : ∃! p, types.get? p = some r) :
    ∃! p, (types.insert place x).get? p = some r := by
  obtain ⟨p, hp, hunique⟩ := h
  have hinsert : ∀ q, (types.insert place x).get? q = some r ↔ types.get? q = some r := by
    intro q
    rw [OrderedMap.get?_insert]
    split
    · next heq =>
      subst heq
      rw [hnone]
      simp [hne]
    · rfl
  exact ⟨p, (hinsert p).2 hp, fun q hq => hunique q ((hinsert q).1 hq)⟩

theorem Owned.build {b : Builder} (h : Owned st₀ st) (hb : st.builder.Develops b) :
    Owned st₀ { st with builder := b } where
  shares := hb.shares h.shares
  size_le := Nat.le_trans h.size_le hb.size_le
  lt_size place r hr := Nat.lt_of_lt_of_le (h.lt_size place r hr) hb.size_le
  existsUnique r hr hk := by
    have hlt : r < st.builder.graph.size := by
      refine Nat.not_le.1 fun hge => ?_
      rw [hb.isIntersection_new r hge] at hk
      cases hk
    exact h.existsUnique r hr (hb.isIntersection_eq r hlt ▸ hk)

/-- A new intersection is entered for one reference. -/
theorem Owned.begin {a : Attributes} (h : Owned st₀ st) (hnone : st.types.get? place = none) :
    Owned st₀ (st.pended place a) := by
  have hnew : Builder.Shared st.builder (.intersection ∅) (st.builder.newIntersection a) :=
    Builder.shared_add h.shares (n := .new (.intersection ∅) a)
      fun _ hc => absurd hc List.not_mem_nil
  have hget : ∀ p, (st.pended place a).types.get? p =
      if p = place then some st.builder.graph.size else st.types.get? p :=
    fun _ => OrderedMap.get?_insert ..
  refine ⟨hnew.shares, Nat.le_trans h.size_le hnew.grows.size_le, fun p r hr => ?_,
    fun r hr hk => ?_⟩
  · rw [hget] at hr
    split at hr
    · cases hr
      exact hnew.lt_size
    · exact Nat.lt_of_lt_of_le (h.lt_size p r hr) hnew.grows.size_le
  · by_cases heq : r = st.builder.graph.size
    · subst heq
      refine ⟨place, (hget place).trans (if_pos rfl), fun p hp => ?_⟩
      replace hp := (hget p).symm.trans hp
      split at hp
      · next heq => exact heq
      · exact absurd (h.lt_size p _ hp) (Nat.lt_irrefl _)
    · have hkind : (st.pended place a).builder.graph.kind r = st.builder.graph.kind r :=
        (Graph.kind_push st.builder.graph _ r).trans (if_neg heq)
      rw [hkind] at hk
      exact existsUnique_insert hnone (Ne.symm heq) (h.existsUnique r hr hk)

/-- The type of all values is no intersection. -/
theorem Owned.any (h : Owned st₀ st) (hnone : st.types.get? place = none) :
    Owned st₀ (st.withAny place) := by
  have hany : Builder.Shared st.builder .any (st.builder.primitive .any ∅) :=
    Builder.shared_primitive h.shares rfl
  have hbuild := h.build (b := (st.builder.primitive .any ∅).2) (Builder.develops_primitive rfl ∅)
  refine ⟨hbuild.shares, hbuild.size_le, fun p r hr => ?_, fun r hr hk => ?_⟩
  · replace hr := (OrderedMap.get?_insert ..).symm.trans hr
    split at hr
    · cases hr
      exact hany.lt_size
    · exact hbuild.lt_size p r hr
  · refine existsUnique_insert hnone ?_ (hbuild.existsUnique r hr hk)
    rintro rfl
    have hk' : ((st.builder.primitive .any ∅).2.graph.kind
      (st.builder.primitive .any ∅).1).isIntersection = true := hk
    rw [hany.kind_eq] at hk'
    cases hk'

/-- **Every move keeps to it.** -/
theorem Owned.move (h : Owned st₀ st) (hmove : st.Move st') : Owned st₀ st' := by
  cases hmove with
  | resolve => exact ⟨h.shares, h.size_le, h.lt_size, h.existsUnique⟩
  | build hb => exact h.build hb
  | begin a hnone => exact h.begin hnone
  | any hnone => exact h.any hnone

theorem Owned.later (h : Owned st₀ st) (hst : st.Later st') : Owned st₀ st' := by
  induction hst with
  | refl => exact h
  | tail _ hmove ih => exact ih.move hmove

/-! ## Sound keys -/

/-- A schema that has a type is not converted again, wherever the reference to it stands and
    however it is spelled. -/
theorem run_targetType_of_get? {base l : Location} {text : String} {v : Json} {r' : Resolver}
    {a : Attributes} (hr : st.types.get? l.canonical = some r)
    (hrun : (Resolver.resolve base (.parse text)).run st.resolver = (.ok (v, l), r'))
    (depth : Nat) : (targetType (typeOf producers (depth + 1)) base a (.string text)).run st =
      (.ok r, { st with resolver := r' }) := by
  unfold targetType
  dsimp only
  have hr' : ({ st with resolver := r' } : Conversion).types.get? l.canonical = some r := hr
  rw [run_bind, run_resolving, hrun]
  exact run_typeOf_of_get? hr' depth

/-- What makes canonical references sound keys, in a state that a conversion has come to. -/
structure SoundKeys (producers : List Producer) (st₀ st : Conversion) : Prop where
  /-- A reference that is resolved leads into a document that is known and was crawled, to the
      schema that the canonical reference of its location has there. -/
  shows : ∀ base ref v l r,
    (Resolver.resolve base ref).run st.resolver = (.ok (v, l), r) → r.Shows l v
  shows_topLevel : ∀ ref v l r,
    (Resolver.resolveTopLevel ref).run st.resolver = (.ok (v, l), r) → r.Shows l v
  /-- Equal canonical references come with equal schemas, now and later. -/
  eq_of_canonical_eq : ∀ st', st.Later st' → ∀ l l' v w,
    st.resolver.Shows l v → st'.resolver.Shows l' w → l.canonical = l'.canonical → v = w
  /-- Whatever is resolved, fetched or converted, and whether it fails or not, leads to a later
      state. -/
  later_resolve : ∀ base ref,
    st.resolver.Later ((Resolver.resolve base ref).run st.resolver).2
  later_resolveTopLevel : ∀ ref,
    st.resolver.Later ((Resolver.resolveTopLevel ref).run st.resolver).2
  later_addDocument : ∀ a, st.resolver.Later ((Resolver.addDocument a).run st.resolver).2
  later_typeOf : ∀ depth v l a, st.Later ((typeOf producers depth v l a).run st).2
  later_addTopLevels : ∀ depth references,
    st.Later ((addTopLevels producers depth references).run st).2
  /-- The type of a schema that is converted is entered. -/
  entered : ∀ depth v l a r st', (typeOf producers depth v l a).run st = (.ok r, st') →
    st'.types.get? l.canonical = some r
  /-- An entry never changes; the schema is not converted again, and references to it give the
      entry. -/
  kept : ∀ place r, st.types.get? place = some r → ∀ st', st.Later st' →
    st'.types.get? place = some r ∧
    (∀ depth v l a, l.canonical = place →
      (typeOf producers (depth + 1) v l a).run st' = (.ok r, st')) ∧
    ∀ depth base text a v l r',
      (Resolver.resolve base (.parse text)).run st'.resolver = (.ok (v, l), r') →
      l.canonical = place →
      (targetType (typeOf producers (depth + 1)) base a (.string text)).run st' =
        (.ok r, { st' with resolver := r' })
  /-- One intersection is made for a schema that is converted: each is the type of just one
      canonical reference. -/
  converted_once : ∀ r, st₀.builder.graph.size ≤ r →
    (st.builder.graph.kind r).isIntersection = true → ∃! place, st.types.get? place = some r

/-- **Canonical references are sound keys**, in whatever state a conversion comes to. -/
theorem soundKeys (producers : List Producer) (hshares : st₀.builder.Shares)
    (htypes : st₀.types = ∅) (hst : st₀.Later st) : SoundKeys producers st₀ st where
  shows base ref v l r hrun :=
    ((Resolver.passes_resolve (P := fun _ => True) (fun _ _ => trivial) base ref).ensures
      _ _ hrun).shows
  shows_topLevel ref v l r hrun :=
    ((Resolver.passes_resolveTopLevel (P := fun _ => True) (fun _ _ => trivial) ref).ensures
      _ _ hrun).shows
  eq_of_canonical_eq st' hst' l l' v w hv hw hl :=
    hv.eq_of_canonical_eq (Later.resolver hst') hw hl
  later_resolve base ref :=
    (Resolver.passes_resolve (P := fun _ => True) (fun _ _ => trivial) base ref).reaches
  later_resolveTopLevel ref :=
    (Resolver.passes_resolveTopLevel (P := fun _ => True) (fun _ _ => trivial) ref).reaches
  later_addDocument a :=
    (Resolver.passes_addDocument (P := fun _ => True) (fun _ _ => trivial) a).reaches
  later_typeOf depth v l a := (passes_typeOf depth v l a).reaches
  later_addTopLevels depth references := (passes_addTopLevels depth references).reaches
  entered depth v l a r st' hrun := (passes_typeOf depth v l a).ensures r st' hrun
  kept place r hr st' hst' := by
    have hr' : st'.types.get? place = some r := Later.get?_types hst' hr
    refine ⟨hr', ?_, ?_⟩
    · rintro depth v l a rfl
      exact run_typeOf_of_get? hr' depth
    · rintro depth base text a v l r' hrun rfl
      exact run_targetType_of_get? hr' hrun depth
  converted_once := ((owned_start hshares htypes).later hst).existsUnique

/-! ## A schema with two names for itself -/

/-- A schema that refers to itself by a pointer, and by its identifier. -/
def echo : Json :=
  .object [("$id", .string "x:/echo"),
    ("allOf", .array [.object [("$ref", .string "#")], .object [("$ref", .string "echo")]])]

/-- Nothing is converted yet, and the schema is all there is. -/
def echoStart : Conversion :=
  ⟨.ofFetcher (.serving [(.relative "echo.json", echo)] .nothing), .new, ∅⟩

/-- What becomes of the schema. -/
def echoRun : Except ConversionError Unit × Conversion :=
  (addTopLevels [] 3 [("Echo", ⟨some (.relative "echo.json"), [.root]⟩)]).run echoStart

/-- Both references lead to the type of the schema, which has one canonical reference. -/
theorem soundKeys_echo : echoRun.1.isOk = true ∧
    echoRun.2.builder.graph.kind 1 = .intersection (.singleton 0) ∧
    echoRun.2.builder.graph.kind 2 = .intersection (.singleton 0) ∧
    SoundKeys [] echoStart echoRun.2 ∧ ∃! place, echoRun.2.types.get? place = some 0 := by
  have hshares : echoStart.builder.Shares := fun _ _ h => by cases h
  have hkeys : SoundKeys [] echoStart echoRun.2 :=
    soundKeys [] hshares rfl (passes_addTopLevels 3 _).reaches
  refine ⟨by decide +kernel, by decide +kernel, by decide +kernel, hkeys, ?_⟩
  exact hkeys.converted_once 0 (Nat.zero_le _) (by decide +kernel)

end SchemaTypes.Conversion
