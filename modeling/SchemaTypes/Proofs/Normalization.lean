/-
  The form of normalized graphs.

  * `Kind.Mergeable.and`: mergeable classes of kinds add up, so that what one pass brings about
    can be kept by the later ones (`Kind.Resolved`, `Kind.Unlisted`);
  * `Graph.Within`, `Graph.FlatWithin`, `Graph.Represented`: how far normalization has come;
  * `ensures_flattenAll`, `ensures_combineSimilar` and so on: what the stages lead to;
  * `normalized_of_normalize`: the normal form.
-/
import SchemaTypes.Proofs.Intersecting
import SchemaTypes.Proofs.Naming
import SchemaTypes.Proofs.NearlyFlat
import SchemaTypes.Proofs.Nullable
import SchemaTypes.Proofs.Phases
import SchemaTypes.Proofs.Rows

namespace SchemaTypes

/-! ## Properties in order -/

theorem OrderedMap.get?_sortKeys {κ ν : Type} [DecidableEq κ] (le : κ → κ → Bool)
    (m : OrderedMap κ ν) (k : κ) : (m.sortKeys le).get? k = m.get? k := by
  ext v
  rw [get?_eq_some_iff, get?_eq_some_iff]
  exact (List.mergeSort_perm _ _).mem_iff

namespace Kind

variable {o : Options} {k : Kind} {K K' : Kind → Prop}

theorem category_sortProperties (k : Kind) : k.sortProperties.category? = k.category? := by
  cases k <;> rfl

theorem eq_union_of_sortProperties {ms : SortedSet NodeId} (h : k.sortProperties = .union ms) :
    k = .union ms := by
  cases k <;> first | exact h | cases h

/-! ## Classes of kinds -/

/-- The kinds once intersections are resolved and object types replaced. -/
structure Resolved (o : Options) (k : Kind) : Prop where
  not_isIntersection : k.isIntersection = false
  not_isObject : o.target.fullObjects = false → Graph.isObject k = false

/-- The kinds once listed strings are expanded. -/
structure Unlisted (o : Options) (k : Kind) : Prop extends Resolved o k where
  unlisted : ∀ cases, k ≠ .string (some cases)

/-- The kinds once types without values are gone. -/
structure Populated (o : Options) (k : Kind) : Prop extends Unlisted o k where
  ne_nothing : k ≠ .nothing

/-- The kinds once all properties are required, where they have to be. -/
structure Required (o : Options) (k : Kind) : Prop extends Populated o k where
  requiresAll : o.target.optionalProperties = false → k.RequiresAll

/-- The kinds of normalized types. -/
structure Normal (o : Options) (k : Kind) : Prop extends Required o k where
  native : ∀ f, k = .formatted f → o.representation f = .native

theorem mergeable_resolved (o : Options) : Mergeable (Resolved o) where
  rename f k h := by
    refine ⟨isIntersection_renamable f k h.not_isIntersection, fun ho => ?_⟩
    have hk := h.not_isObject ho
    cases k <;> first | rfl | cases hk
  nothing := ⟨rfl, fun _ => rfl⟩
  union _ := ⟨rfl, fun _ => rfl⟩
  array _ := ⟨rfl, fun _ => rfl⟩
  map _ := ⟨rfl, fun _ => rfl⟩
  record _ := ⟨rfl, fun _ => rfl⟩
  object h _ _ := ⟨rfl, h.not_isObject⟩
  enumeration _ := ⟨rfl, fun _ => rfl⟩
  string _ _ := ⟨rfl, fun _ => rfl⟩

theorem mergeable_unlisted (o : Options) : Mergeable (Unlisted o) where
  rename f k h := by
    refine ⟨(mergeable_resolved o).rename f k h.toResolved, fun cases hk => ?_⟩
    have hun := h.unlisted cases
    cases k <;> first | exact hun hk | cases hk
  nothing := ⟨(mergeable_resolved o).nothing, fun _ => Kind.noConfusion⟩
  union ms := ⟨(mergeable_resolved o).union ms, fun _ => Kind.noConfusion⟩
  array items := ⟨(mergeable_resolved o).array items, fun _ => Kind.noConfusion⟩
  map values := ⟨(mergeable_resolved o).map values, fun _ => Kind.noConfusion⟩
  record ps := ⟨(mergeable_resolved o).record ps, fun _ => Kind.noConfusion⟩
  object h ps a := ⟨(mergeable_resolved o).object h.toResolved ps a, fun _ => Kind.noConfusion⟩
  enumeration cases := ⟨(mergeable_resolved o).enumeration cases, fun _ => Kind.noConfusion⟩
  string h _ := absurd rfl (h.unlisted _)

theorem Unlisted.expandString {inference : EnumInference} (h : Resolved o k) :
    Unlisted o (Graph.expandString inference k) := by
  unfold Graph.expandString
  split
  · split
    · exact ⟨⟨rfl, fun _ => rfl⟩, fun _ => Kind.noConfusion⟩
    · exact ⟨⟨rfl, fun _ => rfl⟩, fun _ hs => by cases hs⟩
  · next hne => exact ⟨h, fun cases hk => hne cases hk⟩

theorem Populated.of_unlisted (h : Unlisted o k) :
    Populated o (if k = .nothing then .any else k) := by
  split
  · exact ⟨⟨⟨rfl, fun _ => rfl⟩, fun _ => Kind.noConfusion⟩, Kind.noConfusion⟩
  · next hne => exact ⟨h, hne⟩

theorem nullable_populated (o : Options) : Nullable (Populated o) where
  null := ⟨⟨⟨rfl, fun _ => rfl⟩, fun _ => Kind.noConfusion⟩, Kind.noConfusion⟩
  union ms := ⟨(mergeable_unlisted o).union ms, Kind.noConfusion⟩
  record ps := ⟨(mergeable_unlisted o).record ps, Kind.noConfusion⟩
  object h ps := ⟨(mergeable_unlisted o).object h.toUnlisted ps _, Kind.noConfusion⟩
  ne_nothing _ h := h.ne_nothing
  not_isIntersection _ h := h.not_isIntersection

theorem RequiresAll.mapChildren (h : k.RequiresAll) (f : NodeId → NodeId) :
    (k.mapChildren f).RequiresAll := by
  have hprops : (k.mapChildren f).properties = k.properties.mapTypes f := by
    cases k <;> rfl
  intro name p hp
  rw [hprops, Properties.mapTypes, OrderedMap.get?_mapValues] at hp
  obtain ⟨q, hq, rfl⟩ := Option.map_eq_some_iff.1 hp
  exact h name q hq

theorem RequiresAll.sortProperties (h : k.RequiresAll) : k.sortProperties.RequiresAll := by
  have hprops : ∀ name, k.sortProperties.properties.get? name = k.properties.get? name := by
    intro name
    cases k with
    | object ps a => exact OrderedMap.get?_sortKeys (decide <| · ≤ ·) ps name
    | record ps => exact OrderedMap.get?_sortKeys (decide <| · ≤ ·) ps name
    | _ => rfl
  exact fun name p hp => h name p ((hprops name).symm.trans hp)

theorem renamable_populated (o : Options) : Renamable (Populated o) := by
  intro f k h
  refine ⟨(mergeable_unlisted o).rename f k h.toUnlisted, fun hk => ?_⟩
  have hne := h.ne_nothing
  cases k <;> first | exact hne rfl | cases hk

theorem renamable_required (o : Options) : Renamable (Required o) := fun f k h =>
  ⟨renamable_populated o f k h.toPopulated, fun ho => (h.requiresAll ho).mapChildren f⟩

theorem renamable_normal (o : Options) : Renamable (Normal o) := by
  intro f k h
  refine ⟨renamable_required o f k h.toRequired, fun format hk => ?_⟩
  have hnative := h.native format
  cases k <;> first | exact hnative hk | cases hk

theorem string_normal (o : Options) : Normal o (.string none) :=
  ⟨⟨⟨⟨⟨rfl, fun _ => rfl⟩, fun _ h => by cases h⟩, Kind.noConfusion⟩,
    fun _ _ _ hp => by cases hp⟩, fun _ h => by cases h⟩

theorem union_normal (o : Options) (ms : SortedSet NodeId) : Normal o (.union ms) :=
  ⟨⟨⟨⟨⟨rfl, fun _ => rfl⟩, fun _ h => by cases h⟩, Kind.noConfusion⟩,
    fun _ _ _ hp => by cases hp⟩, fun _ h => by cases h⟩

theorem Normal.sortProperties (h : Normal o k) : Normal o k.sortProperties := by
  refine ⟨⟨⟨⟨⟨?_, fun ho => ?_⟩, fun cases hk => ?_⟩, fun hk => ?_⟩, fun ho =>
    (h.requiresAll ho).sortProperties⟩, fun format hk => ?_⟩
  · have hk := h.not_isIntersection
    cases k <;> first | rfl | cases hk
  · have hk := h.not_isObject ho
    cases k <;> first | rfl | cases hk
  · have hun := h.unlisted cases
    cases k <;> first | exact hun hk | cases hk
  · have hne := h.ne_nothing
    cases k <;> first | exact hne rfl | cases hk
  · have hnative := h.native format
    cases k <;> first | exact hnative hk | cases hk

end Kind

namespace Graph

variable {o : Options} {g₀ g g₁ : Graph} {K : Kind → Prop}

/-! ## How far normalization has come -/

/-- The graph is well-formed, with top levels of the names they had, and has kinds of a class. -/
structure Within (g₀ : Graph) (K : Kind → Prop) (g : Graph) : Prop where
  kept : g₀.Kept g
  every : g.Every K

theorem Within.step (h : Within g₀ K g) {K' : Kind → Prop} (hK : Kind.Renamable K')
    (hkept : g.WellFormed → g.Kept g₁) (hevery : g₁.Every K') : Within g₀ K' g₁.collect :=
  ⟨(h.kept.trans (hkept h.kept.wellFormed)).collect, hevery.collect hK⟩

/-- If flattening says that it is done, all unions are flat. -/
theorem flat_of_flattenUnions {conflate : Bool} (h : (flattenUnions conflate g).2 = true) :
    (flattenUnions conflate g).1.Flat conflate := by
  rw [flattenUnions, Bool.and_eq_true] at h
  exact flat_of_isFlat h.2

/-- All unions are flat as well. -/
structure FlatWithin (o : Options) (g₀ : Graph) (K : Kind → Prop) (g : Graph) : Prop
    extends Within g₀ K g where
  flat : g.Flat o.conflateNumbers

/-- Flattening that says that it is done leads to flat unions. -/
theorem Within.flatten (h : Within g₀ K g) (hK : Kind.Renamable K)
    (hevery : (flattenUnions o.conflateNumbers g).1.Every K)
    (hdone : (flattenUnions o.conflateNumbers g).2 = true) :
    FlatWithin o g₀ K (flattenUnions o.conflateNumbers g).1.collect where
  toWithin := h.step hK (kept_flattenUnions _) hevery
  flat := (flat_of_flattenUnions hdone).collect

theorem FlatWithin.step (h : FlatWithin o g₀ K g) {K' : Kind → Prop} (hK : Kind.Renamable K')
    (hkept : g.WellFormed → g.Kept g₁) (hevery : g₁.Every K') (hflat : g₁.Flat o.conflateNumbers) :
    FlatWithin o g₀ K' g₁.collect :=
  ⟨h.toWithin.step hK hkept hevery, hflat.collect⟩

/-- String types of normal graphs are merged into that of all strings. -/
theorem makes_string_normal (o : Options) : Makes .string (Kind.Normal o) (· = .string none) :=
  makes_string (Kind.string_normal o) fun _ hk => hk.unlisted

/-- Formats are represented, so that strings may have to be merged. -/
structure Represented (o : Options) (g₀ g : Graph) : Prop extends Within g₀ (Kind.Normal o) g where
  nearlyFlat : NearlyFlat .string g

/-- The form of normalized graphs: types of normal kinds alone, flat unions, nothing that the top
    levels do not lead to, and the names of the top levels as they were, in order. -/
structure Normalized (o : Options) (g₀ g : Graph) : Prop where
  every : g.Every (Kind.Normal o)
  flat : g.Flat o.conflateNumbers
  reached : ∀ r < g.size, g.Reached r
  keys_eq : g.topLevels.keys = g₀.topLevels.keys

theorem Flat.sortProperties {conflate : Bool} (hg : g.Flat conflate) :
    g.sortProperties.Flat conflate :=
  hg.mapKinds (fun _ _ => Kind.eq_union_of_sortProperties) fun k _ hc =>
    (Kind.category_sortProperties k).trans hc

theorem Normalized.sortProperties (h : g₀.Normalized o g) : g₀.Normalized o g.sortProperties where
  every := h.every.mapKinds fun _ hk => hk.sortProperties
  flat := h.flat.sortProperties
  reached r hr := by
    have htop : g.sortProperties.topLevels = g.topLevels := rfl
    refine Reached.mono htop (fun r c hc => ?_)
      (h.reached r ((size_mapKinds g Kind.sortProperties) ▸ hr))
    have hlt : r < g.size := lt_size_of_mem_children hc
    rw [Graph.sortProperties, ← mapKinds, kind_mapKinds _ hlt]
    exact (perm_children_sortProperties _).mem_iff.2 hc
  keys_eq := h.keys_eq

theorem Normalized.of_sameTypes (h : g₀.Normalized o g) (hsame : g.SameTypes g₁) :
    g₀.Normalized o g₁ where
  every r hr := by
    rw [hsame.kind_eq]
    exact h.every r (hsame.size_eq ▸ hr)
  flat r ms hr := by
    rw [hsame.kind_eq] at hr
    exact (h.flat r ms hr).congr fun m _ => congrArg Kind.category? (hsame.kind_eq m)
  reached r hr := by
    refine (h.reached r (hsame.size_eq ▸ hr)).mono hsame.topLevels_eq fun r c hc => ?_
    rw [hsame.kind_eq]
    exact hc
  keys_eq := (congrArg OrderedMap.keys hsame.topLevels_eq).trans h.keys_eq

/-- If resolution says that it is done, no intersection is left. -/
theorem every_resolveIntersections (h : g.resolveIntersections.2 = true) :
    g.resolveIntersections.1.Every (·.isIntersection = false) := by
  intro r hr
  rw [← Bool.not_eq_true]
  intro hi
  have hmem : r ∈ g.resolveIntersections.1.idsWhere Kind.isIntersection :=
    List.mem_filter.2 ⟨List.mem_range.2 hr, hi⟩
  have hnil : g.resolveIntersections.1.idsWhere Kind.isIntersection = [] := List.isEmpty_iff.1 h
  rw [hnil] at hmem
  cases hmem

end Graph

namespace Options

open SchemaTypes.Graph Kind Stage

variable {o : Options} {g₀ g : Graph} {K : Kind → Prop}

/-! ## Phases -/

theorem ensures_flattenAll (hK : Mergeable K) (h : Within g₀ K g) :
    Ensures o.flattenAll g fun _ => FlatWithin o g₀ K := by
  refine (ensures_toFixedPoint (I := Within g₀ K) (Q := FlatWithin o g₀ K) ?_ ?_ h).mono
    fun _ _ => And.right
  · exact fun _ g hg =>
      hg.step hK.rename (kept_flattenUnions _) (every_flattenUnions hK _ hg.every)
  · exact fun _ g hg _ hdone => hg.flatten hK.rename (every_flattenUnions hK _ hg.every) hdone

/-- Intersections are resolved, and unions flattened as far as that takes. -/
theorem ensures_resolveAndFlatten (h : g₀.Kept g) :
    Ensures (toFixedPoint "resolve intersections and flatten unions" fun _ =>
      resolveAndFlatten o.conflateNumbers) g fun _ => Within g₀ (·.isIntersection = false) := by
  have hkept : ∀ {g}, g₀.Kept g → g₀.Kept (resolveAndFlatten o.conflateNumbers g).1.collect :=
    fun hg => (hg.trans (kept_resolveAndFlatten _ hg.wellFormed)).collect
  refine (ensures_toFixedPoint (I := g₀.Kept) (Q := Every (·.isIntersection = false))
    (fun _ _ => hkept) (fun _ g _ _ hdone => ?_) h).mono fun _ _ hg => ⟨hg.1, hg.2⟩
  have hresolved : g.resolveIntersections.2 = true := (Bool.and_eq_true _ _ |>.mp hdone).1
  exact (every_flattenUnions mergeable_isIntersection _ (every_resolveIntersections hresolved)).collect
    isIntersection_renamable

/-- Neither intersections nor, unless they may stay, object types are left. -/
theorem every_replaceObjects_resolved (h : g.Every (·.isIntersection = false)) :
    (replaceObjects o.target.fullObjects g).Every (Resolved o) := by
  intro r hr
  refine ⟨every_replaceObjects mergeable_isIntersection _ h r hr, fun ho => ?_⟩
  rw [ho] at hr ⊢
  exact every_replaceObjects_false g r hr

theorem ensures_resolveAll (hg : g.WellFormed) :
    Ensures o.resolveAll g fun _ => FlatWithin o g (Resolved o) := by
  have hK := mergeable_resolved o
  refine (ensures_change (Q := g.Kept) (kept_removeIndirections hg).collect).seq fun _ g₁ h => ?_
  refine (ensures_resolveAndFlatten h).seq fun _ g₂ h => ?_
  refine (ensures_change (Q := Within g (Resolved o)) ?_).seq fun _ g₃ h => ensures_flattenAll hK h
  exact h.step hK.rename (kept_replaceObjects _) (every_replaceObjects_resolved h.every)

theorem ensures_combineSimilar (hK : Mergeable K) (h : FlatWithin o g₀ K g) :
    Ensures o.combineSimilar g fun _ => FlatWithin o g₀ K := by
  have hcombine : ∀ {g}, Within g₀ K g → ∀ same, Within g₀ K (Graph.combineClasses same g).collect :=
    fun hg same =>
      hg.step hK.rename (kept_combineClasses same) (every_combineClasses hK same hg.every)
  unfold combineSimilar
  refine Ensures.bind (ensures_once ?_)
  split
  · refine (ensures_change (Q := Within g₀ K) ?_).seq fun _ g₁ h => ensures_flattenAll hK h
    exact hcombine (hcombine h.toWithin true) false
  · next hsame =>
    refine ensures_pure ⟨hcombine h.toWithin true, h.flat.of_same ?_⟩
    simpa using hsame

theorem ensures_inferAllMaps (hK : Mergeable K) (h : Within g₀ K g) :
    Ensures o.inferAllMaps g fun _ => FlatWithin o g₀ K := by
  refine Ensures.seq (R := fun _ => Within g₀ K) ?_ fun _ g₁ h => ensures_flattenAll hK h
  refine (ensures_toFixedPoint (I := Within g₀ K) (Q := fun _ => True) ?_ ?_ h).mono
    fun _ _ => And.left
  · exact fun _ g hg => hg.step hK.rename kept_inferMaps (every_inferMaps hK hg.every)
  · exact fun _ _ _ _ _ => trivial

theorem within_expandStrings (h : FlatWithin o g₀ (Resolved o) g)
    (inference : EnumInference) :
    Within g₀ (Unlisted o) (Graph.expandStrings inference g).collect :=
  h.toWithin.step (mergeable_unlisted o).rename (kept_expandStrings inference)
    (h.every.mapKinds fun _ hk => Unlisted.expandString hk)

theorem ensures_expandAll (fromSchemas : Bool) (h : FlatWithin o g₀ (Resolved o) g) :
    Ensures (o.expandAll fromSchemas) g fun _ => FlatWithin o g₀ (Unlisted o) := by
  have hK := mergeable_unlisted o
  refine (ensures_change (Q := Within g₀ (Unlisted o)) (within_expandStrings h _)).seq
    fun _ g₁ h => ?_
  refine ensures_exactlyOnce fun hdone => ?_
  exact h.flatten hK.rename (every_flattenUnions hK _ h.every) hdone

theorem flatWithin_absorbStrings (h : FlatWithin o g₀ (Unlisted o) g) :
    FlatWithin o g₀ (Unlisted o) g.absorbStrings.collect :=
  h.step (mergeable_unlisted o).rename kept_absorbStrings
    (every_absorbStrings (mergeable_unlisted o) h.every) (flat_absorbStrings h.flat)

theorem flatWithin_nothingToAny (h : FlatWithin o g₀ (Unlisted o) g) :
    FlatWithin o g₀ (Populated o) g.nothingToAny.collect := by
  refine h.step (renamable_populated o) kept_nothingToAny
    (h.every.mapKinds fun _ hk => Populated.of_unlisted hk) ?_
  refine h.flat.mapKinds (fun k ms hk => ?_) fun k c hc => ?_
  · split at hk
    · cases hk
    · exact hk
  · split
    · next heq =>
      subst heq
      cases hc
    · exact hc

theorem flatWithin_optionalToNullable (h : FlatWithin o g₀ (Populated o) g) :
    FlatWithin o g₀ (Required o) g.optionalToNullable.collect := by
  obtain ⟨⟨hg, htop⟩, hflat, hevery, hreq⟩ :=
    optionalToNullable_spec (nullable_populated o) h.kept.wellFormed h.flat h.every
  refine h.step (renamable_required o) (fun _ => ⟨hg, congrArg OrderedMap.keys htop⟩)
    (fun r hr => ⟨hevery r hr, fun _ => hreq r hr⟩) hflat

theorem ensures_mergeDuplicates (hK : Renamable K) (h : FlatWithin o g₀ K g) :
    Ensures (toFixedPoint "fixed point" fun _ => Graph.mergeDuplicates) g fun _ =>
      FlatWithin o g₀ K := by
  refine (ensures_toFixedPoint (I := FlatWithin o g₀ K) (Q := fun _ => True) ?_ ?_ h).mono
    fun _ _ => And.left
  · exact fun _ g hg =>
      hg.step hK kept_mergeDuplicates (hg.every.forward hK _) (flat_mergeDuplicates hg.flat)
  · exact fun _ _ _ _ _ => trivial

theorem ensures_simplifyAll (fromSchemas : Bool) (h : FlatWithin o g₀ (Unlisted o) g) :
    Ensures (o.simplifyAll fromSchemas) g fun _ => FlatWithin o g₀ (Required o) := by
  refine Ensures.seq (R := fun _ => FlatWithin o g₀ (Unlisted o)) ?_ fun _ g₁ h => ?_
  · exact ensures_optionally (fun _ => ensures_change (flatWithin_absorbStrings h)) fun _ => h
  refine (ensures_change (Q := FlatWithin o g₀ (Populated o)) (flatWithin_nothingToAny h)).seq
    fun _ g₂ h => ?_
  refine Ensures.seq (R := fun _ => FlatWithin o g₀ (Required o)) ?_ fun _ g₃ h =>
    ensures_mergeDuplicates (renamable_required o) h
  refine ensures_optionally (fun _ => ensures_change (flatWithin_optionalToNullable h)) fun ho => ?_
  refine ⟨⟨h.kept, h.every.imp fun k hk => ⟨hk, fun hopt => ?_⟩⟩, h.flat⟩
  rw [hopt] at ho
  cases ho

theorem represented_representFormats (h : FlatWithin o g₀ (Required o) g) :
    Represented o g₀ (Graph.representFormats o.representation g).collect where
  toWithin := by
    refine h.toWithin.step (renamable_normal o) (kept_representFormats _) ?_
    exact (h.every.representFormats (string_normal o).toRequired _).imp fun k hk => ⟨hk.1, hk.2⟩
  nearlyFlat := (nearlyFlat_representFormats h.flat _).collect

theorem ensures_representAll (h : FlatWithin o g₀ (Required o) g) :
    Ensures o.representAll g fun _ => FlatWithin o g₀ (Normal o) := by
  refine (ensures_change (Q := Represented o g₀) (represented_representFormats h)).seq
    fun _ g₁ h => ?_
  refine ensures_exactlyOnce fun hdone => ?_
  have hevery : (flattenUnions o.conflateNumbers g₁).1.Every (Normal o) :=
    every_flattenUnions_of_nearlyFlat (makes_string_normal o) (renamable_normal o) (union_normal o)
      h.nearlyFlat h.every
  exact h.toWithin.flatten (renamable_normal o) hevery hdone

theorem ensures_finish (fromSchemas : Bool) (h : FlatWithin o g₀ (Normal o) g) :
    Ensures (o.finish fromSchemas) g fun _ => g₀.Normalized o := by
  have hcollected : g₀.Normalized o g.collect :=
    ⟨h.every.collect (renamable_normal o), h.flat.collect,
      fun r hr => reached_collect h.kept.wellFormed hr, h.kept.collect.keys_eq⟩
  refine Ensures.bind (ensures_modify (ensures_modify ?_))
  refine Graph.Normalized.of_sameTypes ?_ (sameTypes_gatherNames _ _)
  split
  · exact hcollected.sortProperties
  · exact hcollected

/-- **Normalization that succeeds leads to the normal form**: no intersections, no types without
    values and no listed strings; only flat unions; no more than the target can express; only
    types that the top levels lead to, which have the names that they had. -/
theorem normalized_of_normalize (o : Options) (fromSchemas : Bool) (hg : g.WellFormed) {g' : Graph}
    (h : (o.normalize fromSchemas).run g = (.ok ⟨⟩, g')) : g.Normalized o g' := by
  have hphases : Ensures (o.normalize fromSchemas) g fun _ => g.Normalized o := by
    have hK := mergeable_resolved o
    rw [normalize_eq]
    refine (ensures_resolveAll hg).seq fun _ g₁ h => ?_
    refine Ensures.seq (R := fun _ => FlatWithin o g (Resolved o)) ?_ fun _ g₂ h => ?_
    · exact ensures_optionally (fun _ => ensures_combineSimilar hK h) fun _ => h
    refine Ensures.seq (R := fun _ => FlatWithin o g (Resolved o)) ?_ fun _ g₃ h => ?_
    · exact ensures_optionally (fun _ => ensures_inferAllMaps hK h.toWithin) fun _ => h
    refine (ensures_expandAll fromSchemas h).seq fun _ g₄ h => ?_
    refine (ensures_simplifyAll fromSchemas h).seq fun _ g₅ h => ?_
    exact (ensures_representAll h).seq fun _ g₆ h => ensures_finish fromSchemas h
  exact hphases _ _ h

/-- Entries that may be of a day, which is both a date and a string. -/
def journal : Graph where
  nodes := #[.new (.record (.ofList [("day", ⟨1, true⟩)])), .new (.intersection (.ofList [2, 3])),
    .new (.formatted .date), .new (.string none)]
  topLevels := .ofList [("Entry", 0)]

theorem normalized_journal :
    journal.WellFormed ∧ ∃ g', (default.normalize true).run journal = (.ok ⟨⟩, g') ∧
      journal.Normalized default g' := by
  have hg : journal.WellFormed := ⟨by decide, by decide⟩
  have hrun := run_eq_of_isOk
    (show ((default.normalize true).run journal).1.isOk = true by decide +kernel)
  exact ⟨hg, _, hrun, normalized_of_normalize default true hg hrun⟩

end Options

end SchemaTypes
