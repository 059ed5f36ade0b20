/-
  Inference of maps comes to an end.

  A class that became a map may make the types of another class alike, which becomes a map then.
  But a map of several types gets a union of its own, and so is like no other type.  Only maps of
  one type may be alike, and classes of which such maps are made look like maps whatever their
  types are, so that none of them is left after the first sweep.

  * `IsDictionary`: properties that look like a map whatever their types are;
  * `FreeClass.of_inferMap`: a turn makes no class, and leaves none that looks like a map;
  * `oneKind_of_inferMap`: it makes no types alike, if no class is a dictionary;
  * `noDictionaries_inferMaps`, `noLikeness_inferMaps`: what is left after one sweep, and after two;
  * `done_of_same`: **a sweep that changes nothing says so**, since each change makes classes fewer;
  * `inferMaps_converges`: **two sweeps suffice**, and the stage succeeds if all bounds are numbers.
-/
import Mathlib.Data.Finset.Card
import SchemaTypes.Proofs.Convergence
import SchemaTypes.Proofs.Ensures
import SchemaTypes.Proofs.FixedClasses
import SchemaTypes.Proofs.Numbering
import SchemaTypes.Proofs.Rows

namespace SchemaTypes

/-! ## Renamed kinds -/

theorem OrderedMap.same_mapValues {κ ν μ : Type} [DecidableEq κ] [DecidableEq ν] [DecidableEq μ]
    {m n : OrderedMap κ ν} (f : ν → μ) (h : m.same n = true) :
    (m.mapValues f).same (n.mapValues f) = true := by
  rw [same, Bool.and_eq_true, beq_iff_eq, List.all_eq_true] at h ⊢
  refine ⟨by simpa [mapValues, size] using h.1, fun e' he' => ?_⟩
  obtain ⟨e, he, rfl⟩ := List.mem_map.1 he'
  rw [get?_mapValues, beq_iff_eq.1 (h.2 e he)]
  exact beq_self_eq_true _

@[simp] theorem Properties.size_mapTypes (f : NodeId → NodeId) (ps : Properties) :
    (ps.mapTypes f).size = ps.size := by
  simp [mapTypes, OrderedMap.mapValues, OrderedMap.size]

@[simp] theorem Properties.keys_mapTypes (f : NodeId → NodeId) (ps : Properties) :
    (ps.mapTypes f).keys = ps.keys :=
  OrderedMap.keys_mapValues ..

/-- Renaming keeps kinds that are the same so. -/
theorem Kind.same_mapChildren {k l : Kind} (f : NodeId → NodeId) (h : k.same l = true) :
    (k.mapChildren f).same (l.mapChildren f) = true := by
  rcases same_cases h with rfl | ⟨ps, qs, a, rfl, rfl, hps⟩ | ⟨ps, qs, rfl, rfl, hps⟩
  · exact Kind.same_self _
  · simp only [mapChildren, same, Properties.mapTypes, OrderedMap.same_mapValues _ hps,
      beq_self_eq_true, Bool.and_self]
  · exact OrderedMap.same_mapValues _ hps

/-- Maps are compared exactly. -/
theorem Kind.eq_of_same_map {k l : Kind} {values : NodeId} (h : k.same l = true)
    (hmap : k = .map values ∨ l = .map values) : k = l := by
  rcases same_cases h with heq | ⟨ps, qs, a, rfl, rfl, -⟩ | ⟨ps, qs, rfl, rfl, -⟩
  · exact heq
  · rcases hmap with h | h <;> cases h
  · rcases hmap with h | h <;> cases h

namespace Graph

variable {g h : Graph} {r t : NodeId} {ps qs : Properties}

/-! ## Classes that look like maps -/

/-- All types have the kind of the first. -/
def OneKind (g : Graph) (types : List NodeId) : Prop :=
  ∃ first rest, types = first :: rest ∧
    ∀ t ∈ rest, t = first ∨ (g.kind t).same (g.kind first) = true

/-- What does not make other types alike does not make types one kind. -/
theorem OneKind.imp {types : List NodeId} (hone : h.OneKind types)
    (hsame : ∀ s ∈ types, ∀ t ∈ types, s ≠ t → (h.kind s).same (h.kind t) = true →
      (g.kind s).same (g.kind t) = true) : g.OneKind types := by
  obtain ⟨first, rest, rfl, hrest⟩ := hone
  refine ⟨first, rest, rfl, fun t ht => or_iff_not_imp_left.2 fun hne => ?_⟩
  exact hsame t (List.mem_cons_of_mem _ ht) first List.mem_cons_self hne
    ((hrest t ht).resolve_left hne)

theorem looksLikeMap_iff : g.looksLikeMap ps = true ↔ 2 ≤ ps.size ∧
    (ps.keys.all isNumeral = true ∨ dictionaryMin ≤ ps.size ∧ g.OneKind ps.types) := by
  unfold looksLikeMap OneKind
  cases ps.types <;> simp

/-- Whether properties look like the entries of a dictionary whatever kinds their types have. -/
def IsDictionary (ps : Properties) : Prop :=
  2 ≤ ps.size ∧
    (ps.keys.all isNumeral = true ∨ dictionaryMin ≤ ps.size ∧ ∃ type, ∀ t ∈ ps.types, t = type)

theorem looksLikeMap_of_isDictionary (hps : IsDictionary ps) : g.looksLikeMap ps = true := by
  refine looksLikeMap_iff.2 ⟨hps.1, hps.2.imp_right fun ⟨hsize, type, htype⟩ => ⟨hsize, ?_⟩⟩
  cases htypes : ps.types with
  | nil =>
    have hlength : ps.types.length = ps.size := by simp [Properties.types, OrderedMap.values,
      OrderedMap.size]
    rw [htypes] at hlength
    exact absurd (hlength ▸ hps.1) (by decide)
  | cons first rest =>
    rw [htypes, List.forall_mem_cons] at htype
    exact ⟨first, rest, rfl, fun t ht => .inl ((htype.2 t ht).trans htype.1.symm)⟩

/-! ## Turns -/

theorem record_of_unionOf {ms : SortedSet NodeId} (h : (g.unionOf ms).2.kind r = .record ps) :
    g.kind r = .record ps := by
  by_cases hr : r < g.size
  · rwa [(furthers_unionOf g ms).kind_eq r hr] at h
  · have hlt : r < (g.unionOf ms).2.size := lt_size_of_record h
    rcases kind_unionOf (Nat.not_lt.1 hr) hlt with hk | ⟨-, hk⟩ <;> cases h.symm.trans hk

/-- A turn makes no class, and leaves none that it says to have changed. -/
theorem record_of_inferMap (h : (g.inferMap r).2.kind t = .record ps) :
    g.kind t = .record ps ∧ ((g.inferMap r).1 = true → t ≠ r) := by
  rcases inferMap_cases g r with ⟨-, heq⟩ | ⟨qs, -, -, heq⟩ <;> rw [heq] at h ⊢
  · exact ⟨h, Bool.noConfusion⟩
  · rw [kind, setKind, node_modify_eq] at h
    split at h
    · cases h
    · next hne =>
      have ht : t < (g.unionOf (.ofList qs.types)).2.size := lt_size_of_record h
      exact ⟨record_of_unionOf h, fun _ htr => hne ⟨htr.symm, ht⟩⟩

theorem fixed_inferMap (r : NodeId) (ht : t < g.size) :
    ((g.inferMap r).2.node t).fixed = (g.node t).fixed := by
  rcases inferMap_cases g r with ⟨-, heq⟩ | ⟨qs, -, -, heq⟩ <;> rw [heq]
  rw [← (furthers_unionOf g (.ofList qs.types)).fixed_eq t ht, setKind, node_modify_eq]
  split <;> rfl

/-- **A turn leaves no class that looks like a map.** -/
theorem FreeClass.of_inferMap (h : (g.inferMap r).2.FreeClass t ps) :
    g.FreeClass t ps ∧ (t = r → g.looksLikeMap ps = false) := by
  obtain ⟨hk, hne⟩ := record_of_inferMap h.1
  have hps : g.FreeClass t ps := by
    refine ⟨hk, ?_⟩
    rw [← fixed_inferMap r (lt_size_of_record hk)]
    exact h.2
  refine ⟨hps, ?_⟩
  rintro rfl
  rcases inferMap_cases g t with ⟨hnot, -⟩ | ⟨qs, -, -, heq⟩
  · exact hnot ps hps
  · exact absurd rfl (hne (by rw [heq]))

/-- The union of several types is a new node. -/
theorem unionOf_eq_size {ms : SortedSet NodeId} (h : ∀ only, ms.toList ≠ [only]) :
    (g.unionOf ms).1 = g.size := by
  unfold unionOf
  split
  · rfl
  · next only honly => exact absurd honly (h only)
  · rfl

theorem wellFormed_inferMap (hg : g.WellFormed) (r : NodeId) : (g.inferMap r).2.WellFormed :=
  ((edits_inferMap NodeClass.heritable_all hg.fit r).fit hg.fit).wellFormed

/-- **A turn makes no types alike**, if the class is no dictionary: a new map has a union of its
    own, that no type of a well-formed graph refers to. -/
theorem oneKind_of_inferMap (hg : g.WellFormed) (hno : ∀ ps, g.FreeClass r ps → ¬IsDictionary ps)
    {types : List NodeId} (htypes : ∀ t ∈ types, t < g.size)
    (hone : (g.inferMap r).2.OneKind types) : g.OneKind types := by
  rcases inferMap_cases g r with ⟨-, heq⟩ | ⟨ps, hps, hlooks, heq⟩
  · rwa [heq] at hone
  rw [heq] at hone
  have hnew : (g.unionOf (.ofList ps.types)).1 = g.size := by
    refine unionOf_eq_size fun only honly => hno ps hps ?_
    obtain ⟨hsize, hlooks⟩ := looksLikeMap_iff.1 hlooks
    refine ⟨hsize, hlooks.imp_right fun hmany => ⟨hmany.1, only, fun t ht => ?_⟩⟩
    have hmem : t ∈ (SortedSet.ofList ps.types).toList := SortedSet.mem_ofList.2 ht
    rwa [honly, List.mem_singleton] at hmem
  have hfurthers := furthers_unionOf g (.ofList ps.types)
  have hkind : ∀ t < g.size, ((g.inferMap r).2.kind t = .map g.size ∧ t = r) ∨
      (g.inferMap r).2.kind t = g.kind t := by
    intro t ht
    rw [heq, ← hnew, ← hfurthers.kind_eq t ht]
    rcases kind_modify_cases (g.unionOf (.ofList ps.types)).2 r t (f := ({ · with
      kind := .map (g.unionOf (.ofList ps.types)).1 })) fun _ => rfl with h | h
    · exact .inr h
    · exact .inl ⟨h.2, h.1.symm⟩
  have hnone : ∀ t, g.kind t ≠ .map g.size := fun t ht => by
    have hmem : g.size ∈ (g.kind t).children := by
      rw [ht]
      exact List.mem_singleton_self _
    exact Nat.lt_irrefl _ (hg.lt_of_mem_children hmem)
  rw [heq] at hkind
  refine hone.imp fun s hs t ht hne hsame => ?_
  rcases hkind s (htypes s hs) with ⟨hs', hsr⟩ | hs' <;>
    rcases hkind t (htypes t ht) with ⟨ht', htr⟩ | ht' <;> rw [hs', ht'] at hsame
  · exact absurd (hsr.trans htr.symm) hne
  · exact absurd (Kind.eq_of_same_map hsame (.inl rfl)).symm (hnone t)
  · exact absurd (Kind.eq_of_same_map hsame (.inr rfl)) (hnone s)
  · exact hsame

/-! ## Sweeps -/

theorem FreeClass.of_inferMaps (h : g.inferMaps.1.FreeClass r ps) : g.FreeClass r ps := by
  rw [inferMaps_fst] at h
  revert h
  exact List.foldlRecOn (motive := fun g₁ : Graph => g₁.FreeClass r ps → g.FreeClass r ps) _ _ id
    fun g₁ ih t _ h => ih h.of_inferMap.1

/-- What holds of a class where it does not look like a map, and is kept by turns, holds of all
    classes after a sweep. -/
theorem inferMaps_induction {I : Graph → Prop} {Q : Graph → Properties → Prop}
    (hI : ∀ g r, I g → I (g.inferMap r).2)
    (hQ : ∀ g r t ps, I g → g.FreeClass t ps → g.looksLikeMap ps = false ∨ Q g ps →
      Q (g.inferMap r).2 ps)
    (h : I g) : ∀ r ps, g.inferMaps.1.FreeClass r ps → Q g.inferMaps.1 ps := by
  -- the classes `had` had their turn
  have hrun : ∀ (todo had : List NodeId) (g : Graph), I g →
      (∀ r ∈ had, ∀ ps, g.FreeClass r ps → Q g ps) →
      ∀ r ∈ todo ++ had, ∀ ps, (todo.foldl (fun g r => (g.inferMap r).2) g).FreeClass r ps →
        Q (todo.foldl (fun g r => (g.inferMap r).2) g) ps := by
    intro todo
    induction todo with
    | nil => exact fun had g _ hhad => hhad
    | cons r todo ih =>
      intro had g h hhad t ht
      refine ih (r :: had) (g.inferMap r).2 (hI g r h) (fun t ht ps hps => ?_) t ?_
      · obtain ⟨hps, hnot⟩ := hps.of_inferMap
        refine hQ g r t ps h hps ((List.mem_cons.1 ht).imp hnot fun ht => hhad t ht ps hps)
      · exact List.perm_middle.symm.subset ht
  intro r ps hps
  have hr : r ∈ g.ids ++ [] :=
    List.mem_append_left _ (List.mem_range.2 (lt_size_of_record hps.of_inferMaps.1))
  rw [inferMaps_fst] at hps ⊢
  exact hrun g.ids [] g h (fun _ hr => absurd hr List.not_mem_nil) r hr ps hps

/-- No class is a dictionary whatever its types are. -/
def NoDictionaries (g : Graph) : Prop := ∀ r ps, g.FreeClass r ps → ¬IsDictionary ps

/-- No class looks like a map. -/
def NoLikeness (g : Graph) : Prop := ∀ r ps, g.FreeClass r ps → g.looksLikeMap ps = false

/-- **No dictionaries are left after a sweep.** -/
theorem noDictionaries_inferMaps (g : Graph) : g.inferMaps.1.NoDictionaries := by
  refine inferMaps_induction (I := fun _ => True) (Q := fun _ ps => ¬IsDictionary ps)
    (fun _ _ _ => trivial) (fun g r t ps _ _ hor hps => ?_) trivial
  rcases hor with hnot | hnot
  · exact Bool.false_ne_true (hnot.symm.trans (looksLikeMap_of_isDictionary hps))
  · exact hnot hps

/-- **Nothing looks like a map after a sweep**, if there were no dictionaries before. -/
theorem noLikeness_inferMaps (hg : g.WellFormed) (hno : g.NoDictionaries) :
    g.inferMaps.1.NoLikeness := by
  refine inferMaps_induction (I := fun g => g.WellFormed ∧ g.NoDictionaries)
    (Q := fun g ps => g.looksLikeMap ps = false)
    (fun g r h => ⟨wellFormed_inferMap h.1 r, fun t ps hps => h.2 t ps hps.of_inferMap.1⟩)
    (fun g r t ps h hps hor => ?_) ⟨hg, hno⟩
  rw [or_self] at hor
  refine Bool.eq_false_iff.2 fun hlooks => Bool.eq_false_iff.1 hor ?_
  rw [looksLikeMap_iff] at hlooks ⊢
  refine hlooks.imp_right fun hlooks => hlooks.imp_right fun hmany => hmany.imp_right ?_
  exact oneKind_of_inferMap h.1 (h.2 r) (types_lt_of_record h.1 hps.1)

/-- A sweep changes nothing where nothing looks like a map. -/
theorem inferMaps_of_noLikeness (h : g.NoLikeness) : g.inferMaps = (g, true) := by
  refine List.foldlRecOn (motive := fun s : Graph × Bool => s = (g, true)) _ _ rfl ?_
  rintro _ rfl r -
  rcases inferMap_cases g r with ⟨-, heq⟩ | ⟨ps, hps, hlooks, -⟩
  · simp only [heq, Bool.not_false, Bool.and_self]
  · cases (h r ps hps).symm.trans hlooks

/-! ## Collection -/

theorem mem_reachable_of_types (hg : g.WellFormed) (hr : r ∈ g.reachable)
    (hps : g.kind r = .record ps) : ∀ t ∈ ps.types, t ∈ g.reachable := fun t ht =>
  mem_reachable_of_mem_children hg hr (by rw [hps]; exact ht)

theorem exists_record_of_collect (h : g.collect.kind r = .record qs) :
    ∃ t ps, t ∈ g.reachable ∧ g.place t = r ∧ g.kind t = .record ps ∧ qs = ps.mapTypes g.place := by
  obtain ⟨t, ht, rfl⟩ := exists_place_eq (lt_size_of_record h)
  rw [kind_collect ht] at h
  cases hk : g.kind t with
  | record ps =>
    rw [hk] at h
    exact ⟨t, ps, ht, rfl, hk, (Kind.record.inj h).symm⟩
  | _ =>
    rw [hk] at h
    cases h

theorem FreeClass.of_collect (h : g.collect.FreeClass r qs) :
    ∃ t ps, t ∈ g.reachable ∧ g.FreeClass t ps ∧ qs = ps.mapTypes g.place := by
  obtain ⟨t, ps, ht, rfl, hk, hqs⟩ := exists_record_of_collect h.1
  have hfixed := h.2
  rw [node_collect ht] at hfixed
  exact ⟨t, ps, ht, ⟨hk, hfixed⟩, hqs⟩

theorem NoDictionaries.collect (hg : g.WellFormed) (h : g.NoDictionaries) :
    g.collect.NoDictionaries := by
  intro r qs hqs hdictionary
  obtain ⟨t, ps, ht, hps, rfl⟩ := hqs.of_collect
  have hreach := mem_reachable_of_types hg ht hps.1
  unfold IsDictionary at hdictionary
  rw [Properties.size_mapTypes, Properties.keys_mapTypes, Properties.types_mapTypes] at hdictionary
  refine h t ps hps (hdictionary.imp_right fun hor => hor.imp_right ?_)
  rintro ⟨hsize, type, htype⟩
  refine ⟨hsize, g.unplace type, fun s hs => ?_⟩
  rw [← htype (g.place s) (List.mem_map_of_mem hs), unplace_place (hreach s hs)]

/-- Collection makes no kinds the same. -/
theorem same_of_same_collect (hg : g.WellFormed) (hr : r ∈ g.reachable) (ht : t ∈ g.reachable)
    (h : (g.collect.kind (g.place r)).same (g.collect.kind (g.place t)) = true) :
    (g.kind r).same (g.kind t) = true := by
  have hundo : ∀ s ∈ g.reachable,
      (g.collect.kind (g.place s)).mapChildren g.unplace = g.kind s := by
    intro s hs
    rw [kind_collect hs, Kind.mapChildren_mapChildren]
    exact (Kind.mapChildren_congr fun c hc =>
      unplace_place (mem_reachable_of_mem_children hg hs hc)).trans (Kind.mapChildren_id _)
  have hsame := Kind.same_mapChildren g.unplace h
  rwa [hundo r hr, hundo t ht] at hsame

theorem NoLikeness.collect (hg : g.WellFormed) (h : g.NoLikeness) : g.collect.NoLikeness := by
  intro r qs hqs
  obtain ⟨t, ps, ht, hps, rfl⟩ := hqs.of_collect
  have hreach := mem_reachable_of_types hg ht hps.1
  refine Bool.eq_false_iff.2 fun hlooks => Bool.eq_false_iff.1 (h t ps hps) ?_
  rw [looksLikeMap_iff, Properties.size_mapTypes, Properties.keys_mapTypes,
    Properties.types_mapTypes] at hlooks
  refine looksLikeMap_iff.2
    (hlooks.imp_right fun hor => hor.imp_right fun hmany => hmany.imp_right ?_)
  rintro ⟨first', rest', hmap, hrest⟩
  obtain ⟨first, rest, htypes, rfl, rfl⟩ := List.map_eq_cons_iff.1 hmap
  rw [htypes, List.forall_mem_cons] at hreach
  refine ⟨first, rest, htypes, fun s hs => ?_⟩
  refine (hrest (g.place s) (List.mem_map_of_mem hs)).imp (fun heq => ?_) fun hsame => ?_
  · exact place_injective (hreach.2 s hs) hreach.1 heq
  · exact same_of_same_collect hg (hreach.2 s hs) hreach.1 hsame

/-! ## Fewer classes -/

/-- The places of classes. -/
def classPlaces (g : Graph) : Finset NodeId :=
  (Finset.range g.size).filter fun r => (g.classProperties? r).isSome

theorem mem_classPlaces : r ∈ g.classPlaces ↔ ∃ ps, g.kind r = .record ps := by
  simp only [classPlaces, Finset.mem_filter, Finset.mem_range, Option.isSome_iff_exists,
    classProperties?_eq_some, and_iff_right_iff_imp]
  rintro ⟨ps, hps⟩
  exact lt_size_of_record hps

theorem card_classPlaces_collect_le (g : Graph) :
    g.collect.classPlaces.card ≤ g.classPlaces.card := by
  refine Nat.le_trans (Finset.card_le_card fun i hi => ?_) (Finset.card_image_le (f := g.place))
  obtain ⟨qs, hqs⟩ := mem_classPlaces.1 hi
  obtain ⟨t, ps, -, rfl, hps, -⟩ := exists_record_of_collect hqs
  exact Finset.mem_image_of_mem _ (mem_classPlaces.2 ⟨ps, hps⟩)

theorem classPlaces_of_same (hsame : h.same g = true) : g.classPlaces ⊆ h.classPlaces := by
  intro r hr
  obtain ⟨ps, hps⟩ := mem_classPlaces.1 hr
  have hkind := kind_same_of_same hsame r
  rw [hps] at hkind
  rcases Kind.same_cases hkind with heq | ⟨qs, qs', a, -, heq, -⟩ | ⟨qs, qs', heq, -, -⟩
  · exact mem_classPlaces.2 ⟨ps, heq⟩
  · cases heq
  · exact mem_classPlaces.2 ⟨qs, heq⟩

theorem classPlaces_inferMap_subset (g : Graph) (r : NodeId) :
    (g.inferMap r).2.classPlaces ⊆ g.classPlaces := fun t ht => by
  obtain ⟨ps, hps⟩ := mem_classPlaces.1 ht
  exact mem_classPlaces.2 ⟨ps, (record_of_inferMap hps).1⟩

/-- Where a turn makes a map, there is a class less. -/
theorem classPlaces_inferMap_ssubset (hchanged : (g.inferMap r).1 = true) :
    (g.inferMap r).2.classPlaces ⊂ g.classPlaces := by
  refine Finset.ssubset_iff_subset_ne.2 ⟨classPlaces_inferMap_subset g r, fun heq => ?_⟩
  rcases inferMap_cases g r with ⟨-, hnot⟩ | ⟨ps, hps, -, -⟩
  · rw [hnot] at hchanged
    cases hchanged
  · have hr : r ∈ (g.inferMap r).2.classPlaces := heq ▸ mem_classPlaces.2 ⟨ps, hps.1⟩
    obtain ⟨qs, hqs⟩ := mem_classPlaces.1 hr
    exact (record_of_inferMap hqs).2 hchanged rfl

/-- A sweep says that it is done and leaves the graph alone, or it says that it is not and there are
    fewer classes. -/
theorem inferMaps_spec (g : Graph) : g.inferMaps = (g, true) ∨
    g.inferMaps.2 = false ∧ g.inferMaps.1.classPlaces ⊂ g.classPlaces := by
  refine List.foldlRecOn (motive := fun s : Graph × Bool =>
    s = (g, true) ∨ s.2 = false ∧ s.1.classPlaces ⊂ g.classPlaces) _ _ (.inl rfl) ?_
  rintro s (rfl | ⟨hdone, hless⟩) r -
  · rcases inferMap_cases g r with ⟨-, heq⟩ | ⟨ps, -, -, heq⟩
    · exact .inl (by simp only [heq, Bool.not_false, Bool.and_self])
    · exact .inr ⟨by simp only [heq, Bool.not_true, Bool.and_false],
        classPlaces_inferMap_ssubset (by rw [heq])⟩
  · exact .inr ⟨by simp only [hdone, Bool.false_and],
      (classPlaces_inferMap_subset s.1 r).trans_ssubset hless⟩

/-- **A sweep that changes nothing says so.** -/
theorem done_of_same (hsame : g.inferMaps.1.collect.same g = true) :
    g.inferMaps = (g, true) := by
  refine (inferMaps_spec g).resolve_right fun ⟨_, hless⟩ => ?_
  refine Nat.lt_irrefl g.classPlaces.card ?_
  calc g.classPlaces.card
      ≤ g.inferMaps.1.collect.classPlaces.card := Finset.card_le_card (classPlaces_of_same hsame)
    _ ≤ g.inferMaps.1.classPlaces.card := card_classPlaces_collect_le _
    _ < g.classPlaces.card := Finset.card_lt_card hless

/-! ## Stages -/

/-- A sweep with what is cleaned up after it. -/
def sweepMaps (g : Graph) : Graph := g.inferMaps.1.collect

theorem wellFormed_sweepMaps (hg : g.WellFormed) : g.sweepMaps.WellFormed :=
  (kept_inferMaps hg).collect.wellFormed

theorem nanFree_sweepMaps (hg : g.WellFormed) (hnan : g.NaNFree) : g.sweepMaps.NaNFree :=
  have hedits := edits_inferMaps NodeClass.heritable_nanFree (hnan.fit hg)
  Steps.nanFree (hedits.steps.tail .collect) hg hnan

/-- After two sweeps there is nothing left to do. -/
theorem inferMaps_sweepMaps_sweepMaps (hg : g.WellFormed) :
    inferMaps g.sweepMaps.sweepMaps = (g.sweepMaps.sweepMaps, true) := by
  have hno : g.sweepMaps.NoDictionaries :=
    (noDictionaries_inferMaps g).collect (kept_inferMaps hg).wellFormed
  have hsweep := wellFormed_sweepMaps hg
  refine inferMaps_of_noLikeness ?_
  exact (noLikeness_inferMaps hsweep hno).collect (kept_inferMaps hsweep).wellFormed

/-- After a sweep that is done, one more changes nothing. -/
theorem sweepMaps_sweepMaps_of_done (hg : g.WellFormed) (hdone : g.inferMaps = (g, true)) :
    g.sweepMaps.sweepMaps = g.sweepMaps := by
  have hfst : g.inferMaps.1 = g := congrArg Prod.fst hdone
  have hno : g.NoDictionaries := hfst ▸ noDictionaries_inferMaps g
  have hlike : g.NoLikeness := hfst ▸ noLikeness_inferMaps hg hno
  rw [sweepMaps, sweepMaps, hfst, inferMaps_of_noLikeness (hlike.collect hg)]
  exact collect_collect hg

open Stage

/-- **Inference of maps comes to an end.**  In every well-formed graph, there is nothing left to do
    after two sweeps, and that is what the stage ends with.  It succeeds if all bounds are numbers
    then, as they are if they were before.  Where one is not, no sweep leaves the graph equal to
    what it was, and the stage fails. -/
theorem inferMaps_converges (hg : g.WellFormed) (stage : String) :
    (toFixedPoint stage fun _ => inferMaps).run g =
      (if g.sweepMaps.sweepMaps.NaNFree then .ok ⟨⟩ else .error (.changedAfterDone stage),
        g.sweepMaps.sweepMaps) ∧
      (g.NaNFree → g.sweepMaps.sweepMaps.NaNFree) ∧
      inferMaps g.sweepMaps.sweepMaps = (g.sweepMaps.sweepMaps, true) ∧
      g.sweepMaps.sweepMaps.collect = g.sweepMaps.sweepMaps := by
  have hsweep := wellFormed_sweepMaps hg
  have hdone := inferMaps_sweepMaps_sweepMaps hg
  have hcollect : g.sweepMaps.sweepMaps.collect = g.sweepMaps.sweepMaps :=
    collect_collect (kept_inferMaps hsweep).wellFormed
  refine ⟨?_, fun hnan => nanFree_sweepMaps hsweep (nanFree_sweepMaps hg hnan), hdone, hcollect⟩
  have hstep : ∀ g : Graph, g.inferMaps.1.collect = g.sweepMaps := fun _ => rfl
  have hagain : g.sweepMaps.sweepMaps.sweepMaps = g.sweepMaps.sweepMaps := by
    rw [← hstep, hdone, hcollect]
  rw [toFixedPoint, show iterationLimit = 60 + 2 + 1 + 1 from rfl, run_repeatFrom_succ, hstep]
  split
  · next hsame =>
    have heq := sweepMaps_sweepMaps_of_done hg (done_of_same hsame)
    rw [done_of_same hsame, if_pos rfl, heq, if_pos (nanFree_of_same hsame)]
  rw [if_neg Bool.false_ne_true, run_repeatFrom_succ, hstep]
  split
  · next hsame => rw [done_of_same hsame, if_pos rfl, if_pos (nanFree_of_same hsame)]
  · next hchanged =>
    by_cases hnan : g.sweepMaps.sweepMaps.NaNFree
    · -- a sweep that changes anything after one that was done would fail
      have hnot : g.inferMaps.2 = false := Bool.eq_false_iff.2 fun h => by
        have hspec := (inferMaps_spec g).resolve_right fun hless => by cases h.symm.trans hless.1
        rw [sweepMaps_sweepMaps_of_done hg hspec] at hchanged hnan
        exact hchanged hnan.same_self
      rw [hnot, if_neg Bool.false_ne_true, run_repeatFrom_succ, hstep, hagain,
        if_pos hnan.same_self, hdone, if_pos rfl, if_pos hnan]
    · rw [run_repeatFrom_of_not_nanFree hdone hcollect hnan, if_neg hnan, ite_self]

/-- A glossary, with an entry for each of twenty letters.  Some entries have two numbered lines and
    others three. -/
def glossary : Graph where
  nodes := #[.new (.record (.ofList ("abcdefghijklmnopqrst".toList.map fun c =>
      (c.toString, ⟨if c < 'm' then 1 else 2, false⟩)))),
    .new (.record (.ofList [("1", ⟨3, false⟩), ("2", ⟨3, false⟩)])),
    .new (.record (.ofList [("1", ⟨3, false⟩), ("2", ⟨3, false⟩), ("3", ⟨3, false⟩)])),
    .new (.string none)]
  topLevels := .ofList [("Glossary", 0)]

/-- The first sweep makes maps of the entries, the second one of the glossary, since they are
    alike then. -/
theorem inferMaps_converges_glossary :
    glossary.WellFormed ∧ (glossary.sweepMaps.classProperties? 0).isSome = true ∧
      (toFixedPoint "infer maps" fun _ => inferMaps).run glossary =
        (.ok ⟨⟩, glossary.sweepMaps.sweepMaps) ∧
      glossary.sweepMaps.sweepMaps.kind 0 = .map 1 := by
  have hg : glossary.WellFormed := ⟨by decide +kernel, by decide⟩
  have hnan : glossary.NaNFree := by decide +kernel
  obtain ⟨hrun, hkeeps, -, -⟩ := inferMaps_converges hg "infer maps"
  rw [if_pos (hkeeps hnan)] at hrun
  exact ⟨hg, by decide +kernel, hrun, by decide +kernel⟩

/-- The stage may fail: where a bound is not a number, each sweep seems to change the graph. -/
theorem not_forall_inferMaps_ok : ¬∀ (g : Graph) (stage : String), g.WellFormed →
    ∃ g', (toFixedPoint stage fun _ => inferMaps).run g = (.ok ⟨⟩, g') := by
  intro h
  have hpass : inferMaps reading = (reading, true) := by decide +kernel
  have hrun := run_toFixedPoint_of_not_nanFree hpass (by decide +kernel) (by decide) "infer maps"
  obtain ⟨g', hok⟩ := h reading "infer maps" ⟨by decide, by decide⟩
  cases hrun.symm.trans hok

end Graph

end SchemaTypes
