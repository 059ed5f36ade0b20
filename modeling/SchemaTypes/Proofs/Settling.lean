/-
  What flattening makes of each union.

  Where no intersection is in the way, each union of a graph is flat once its turn is over, or it
  is redirected to a type that is no union:

  * `flatMembers_unify`: merged members are of pairwise different categories;
  * `Settling`: what flattening in turn has come to, for the unions that had theirs and those
    that did not (`settling_step`, `settling_foldl`);
  * `Settling.flatAt_collect`: what is left of the unions in the end is flat;
  * `flattenUnions_done`: so flattening is done if it makes no further unions.
-/
import SchemaTypes.Proofs.Flatness
import SchemaTypes.Proofs.Flattening
import SchemaTypes.Proofs.Keeping

namespace SchemaTypes

theorem Category.nodup_all : all.Nodup := by decide

namespace Graph

open Kind

variable {g g' : Graph} {conflate : Bool} {ls : List NodeId} {P : Kind → Prop}

/-! ## Categories of merged members -/

theorem category_mergeCategory (hg : g.WellFormed) {c : Category} {rs : List NodeId}
    (hrs : rs ≠ []) (hc : ∀ r ∈ rs, (g.kind r).category? = some c) :
    ((g.mergeCategory c rs).2.kind (g.mergeCategory c rs).1).category? = some c := by
  refine mergeCategory_cases (P := fun m g' => (g'.kind m).category? = some c) hrs
    (fun only honly => ?_) (fun hstring => ?_) (fun henumeration => ?_) (fun harray => ?_)
    (fun hobject => ?_) fun _ _ _ _ first hfirst => ?_
  · exact hc only (honly ▸ List.mem_singleton_self only)
  · simp [hstring, kind_push, mergedStrings, Node.new, category?]
  · simp [henumeration, kind_push, Node.new, category?]
  · simp [harray, kind_push, Node.new, category?]
  · have hobjectLike := (unified_unifyObjects hg rs).isObjectLike
    simpa [hobject, kind_push] using category_of_isObjectLike hobjectLike
  · have hfirst := hc first hfirst
    rw [(grows_setAttributes g first _).kind_eq first (lt_size_of_category hfirst), hfirst]

/-- Merged members have categories that were asked for, each at most once, and only such as
    leaves have. -/
theorem categories_mergeCategories (cs : List Category) (hg : g.WellFormed)
    (hlt : ∀ l ∈ ls, l < g.size) :
    ((mergeCategories ls cs g).1.map fun m =>
        ((mergeCategories ls cs g).2.kind m).category?).Sublist (cs.map some) ∧
      ∀ m ∈ (mergeCategories ls cs g).1, ∃ l ∈ ls,
        (g.kind l).category? = ((mergeCategories ls cs g).2.kind m).category? := by
  induction cs generalizing g with
  | nil => simp [mergeCategories]
  | cons c cs ih =>
    simp only [mergeCategories]
    split
    · obtain ⟨hsub, hleaf⟩ := ih hg hlt
      exact ⟨hsub.cons _, hleaf⟩
    · next hne =>
      have hrs : ∀ r ∈ ls.filter (fun m => (g.kind m).category? = some c),
          r ∈ ls ∧ (g.kind r).category? = some c := fun r hr => by
        simpa using List.mem_filter.1 hr
      have hcat := category_mergeCategory hg hne fun r hr => (hrs r hr).2
      have M := merged_mergeCategory hg hne (fun r hr => hlt r (hrs r hr).1)
        fun r hr => (hrs r hr).2
      obtain ⟨l, hl⟩ := List.exists_mem_of_ne_nil _ hne
      generalize g.mergeCategory c (ls.filter fun m => (g.kind m).category? = some c) = merged
        at hcat M ⊢
      obtain ⟨r, g₁⟩ := merged
      dsimp only at hcat M ⊢
      have hlt₁ : ∀ l ∈ ls, l < g₁.size := fun l hl =>
        Nat.lt_of_lt_of_le (hlt l hl) M.grows.size_le
      obtain ⟨hsub, hleaf⟩ := ih (M.grows.wellFormed hg) hlt₁
      have hr : ((mergeCategories ls cs g₁).2.kind r).category? = some c := by
        rw [(merged_mergeCategories cs (M.grows.wellFormed hg) hlt₁).grows.kind_eq r
          (M.lt_size r (List.mem_singleton_self r)), hcat]
      refine ⟨?_, fun m hm => ?_⟩
      · rw [List.map_cons, List.map_cons, hr]
        exact hsub.cons_cons _
      · rcases List.mem_cons.1 hm with rfl | hm
        · exact ⟨l, (hrs l hl).1, (hrs l hl).2.trans hr.symm⟩
        · obtain ⟨l, hl, heq⟩ := hleaf m hm
          exact ⟨l, hl, by rw [← heq, M.grows.kind_eq l (hlt l hl)]⟩

theorem nodup_mergedCategories (g : Graph) (conflate : Bool) (ls : List NodeId) :
    (g.mergedCategories conflate ls).Nodup := by
  unfold mergedCategories
  split
  · exact Category.nodup_all.filter _
  · exact Category.nodup_all

/-- Where numbers are conflated, integers are not asked for beside doubles. -/
theorem not_integer_mem_mergedCategories {d : NodeId} (hd : d ∈ ls)
    (hdouble : (g.kind d).category? = some .double) :
    .integer ∉ g.mergedCategories true ls := by
  have hany : (ls.any fun m => (g.kind m).category? = some .double) = true :=
    List.any_eq_true.2 ⟨d, hd, by simpa using hdouble⟩
  simp [mergedCategories, hany]

/-- **Merged members are those of a flat union, if there are several.** -/
theorem flatMembers_unify (hg : g.WellFormed) (hlt : ∀ l ∈ ls, l < g.size)
    (htwo : 2 ≤ (g.unify conflate ls).1.length) :
    (g.unify conflate ls).2.FlatMembers conflate (.ofList (g.unify conflate ls).1) := by
  unfold unify at htwo ⊢
  split at htwo
  · simp at htwo
  obtain ⟨hsub, hleaf⟩ := categories_mergeCategories (g.mergedCategories conflate ls) hg hlt
  generalize mergeCategories ls (g.mergedCategories conflate ls) g = merged at *
  obtain ⟨ms, g₁⟩ := merged
  dsimp only at *
  have hmem : ∀ m ∈ ms, ∃ c ∈ g.mergedCategories conflate ls,
      (g₁.kind m).category? = some c := fun m hm => by
    obtain ⟨c, hc, heq⟩ := List.mem_map.1 (hsub.subset
      (List.mem_map_of_mem (f := fun m => (g₁.kind m).category?) hm))
    exact ⟨c, hc, heq.symm⟩
  have hnodup : (ms.map fun m => (g₁.kind m).category?).Nodup :=
    hsub.nodup ((nodup_mergedCategories g conflate ls).map fun _ _ h => Option.some.inj h)
  constructor
  · obtain ⟨m, n, rest, rfl⟩ : ∃ m n rest, ms = m :: n :: rest := by
      rcases ms with _ | ⟨m, _ | ⟨n, rest⟩⟩
      · simp at htwo
      · simp at htwo
      · exact ⟨m, n, rest, rfl⟩
    refine ⟨m, by simp, n, by simp, fun heq => ?_⟩
    simp [heq] at hnodup
  · intro m hm
    obtain ⟨c, -, hc⟩ := hmem m (SortedSet.mem_ofList.1 hm)
    exact ⟨c, hc⟩
  · intro m hm n hn heq
    exact List.inj_on_of_nodup_map hnodup (SortedSet.mem_ofList.1 hm) (SortedSet.mem_ofList.1 hn)
      heq
  · rintro rfl m hm n hn hi hd
    obtain ⟨l, hl, heq⟩ := hleaf n (SortedSet.mem_ofList.1 hn)
    obtain ⟨c, hc, hcm⟩ := hmem m (SortedSet.mem_ofList.1 hm)
    cases hcm.symm.trans hi
    exact not_integer_mem_mergedCategories hl (heq.trans hd) hc

/-! ## One union after the other -/

/-- What flattening in turn has come to, but for the unions `us`.  Types that are no unions, flat
    unions and those in `us` are what they were; all other unions are flat or redirected.  New
    nodes are of kinds with a property. -/
structure Settling (conflate : Bool) (P : Kind → Prop) (g : Graph) (us : List NodeId)
    (s : Flattening) : Prop where
  edited : g.Edited s.graph
  every : s.graph.Every (·.isIntersection = false)
  not_waiting : s.waiting = false
  redirected : ∀ r m, s.redirection.get? r = some m → (s.graph.kind r).isUnion = true ∧
    m < s.graph.size ∧ (s.graph.kind m).isUnion = false
  kept : ∀ r < g.size, (g.kind r).isUnion = false ∨ g.FlatAt conflate r ∨ r ∈ us →
    s.graph.kind r = g.kind r ∧ s.redirection.get? r = none
  flatAt : ∀ r < g.size, r ∉ us → s.redirection.get? r = none → s.graph.FlatAt conflate r
  fresh : ∀ r, g.size ≤ r → r < s.graph.size → P (s.graph.kind r)

theorem settling_start (hg : g.WellFormed) (h : g.Every (·.isIntersection = false)) :
    Settling conflate P g (g.idsWhere Kind.isUnion) ⟨g, ∅, false⟩ where
  edited := .refl hg
  every := h
  not_waiting := rfl
  redirected _ _ hm := by cases hm
  kept _ _ _ := ⟨rfl, rfl⟩
  flatAt r hr hus _ := by
    refine flatAt_of_not_isUnion ((Bool.not_eq_true _).mp fun hu => hus ?_)
    exact List.mem_filter.2 ⟨List.mem_range.2 hr, hu⟩
  fresh r hr hlt := absurd hlt (Nat.not_lt.2 hr)

namespace Settling

variable {us : List NodeId} {s : Flattening} {u : NodeId}

/-- Flat unions of the graph are still flat. -/
theorem flatAt_of_flatAt (H : Settling conflate P g us s) {r : NodeId} (hr : r < g.size)
    (h : g.FlatAt conflate r) : s.graph.FlatAt conflate r := by
  intro ms hk
  rw [(H.kept r hr (.inr (.inl h))).1] at hk
  refine (h ms hk).congr fun m hm => ?_
  obtain ⟨c, hc⟩ := (h ms hk).categorized m hm
  rw [(H.kept m (lt_size_of_category hc) (.inl ((h ms hk).not_isUnion hm))).1]

/-- A union that is flat as it is has had its turn. -/
theorem skip (H : Settling conflate P g (u :: us) s) (h : s.graph.FlatAt conflate u) :
    Settling conflate P g us s where
  edited := H.edited
  every := H.every
  not_waiting := H.not_waiting
  redirected := H.redirected
  kept r hr hor := H.kept r hr (hor.imp_right (Or.imp_right (List.mem_cons_of_mem u)))
  flatAt r hr hus hnone := by
    by_cases hru : r = u
    · exact hru ▸ h
    · exact H.flatAt r hr (by simp [hru, hus]) hnone
  fresh := H.fresh

/-- The graph grows. -/
theorem grow (H : Settling conflate P g us s) {g₁ : Graph} (h₁ : Added P s.graph g₁)
    (hevery : g₁.Every (·.isIntersection = false)) :
    Settling conflate P g us { s with graph := g₁ } where
  edited := H.edited.trans (h₁.toGrows.edited H.edited.wellFormed)
  every := hevery
  not_waiting := H.not_waiting
  redirected r m hm := by
    obtain ⟨hr, hlt, hu⟩ := H.redirected r m hm
    dsimp only
    rw [h₁.kind_eq r (lt_size_of_isUnion hr), h₁.kind_eq m hlt]
    exact ⟨hr, Nat.lt_of_lt_of_le hlt h₁.size_le, hu⟩
  kept r hr hor := by
    dsimp only
    rw [h₁.kind_eq r (Nat.lt_of_lt_of_le hr H.edited.size_le)]
    exact H.kept r hr hor
  flatAt r hr hus hnone ms hk := by
    dsimp only at hk
    rw [h₁.kind_eq r (Nat.lt_of_lt_of_le hr H.edited.size_le)] at hk
    exact (H.flatAt r hr hus hnone ms hk).grow h₁.toGrows
  fresh r hr hlt := by
    by_cases hrs : r < s.graph.size
    · dsimp only
      rw [h₁.kind_eq r hrs]
      exact H.fresh r hr hrs
    · exact h₁.kind_new r (Nat.not_lt.1 hrs) hlt

theorem addAttributes (H : Settling conflate P g us s) (r : NodeId) (a : Attributes) :
    Settling conflate P g us { s with graph := s.graph.addAttributes r a } := by
  refine H.grow ⟨grows_addAttributes s.graph r a, fun c hc hlt => ?_⟩ (H.every.addAttributes r a)
  rw [size_addAttributes] at hlt
  exact absurd hlt (Nat.not_lt.2 hc)

/-- A union that is not flat is none of the nodes that are to stay when it has had its turn. -/
theorem ne_of_kept (H : Settling conflate P g (u :: us) s) (hu : (s.graph.kind u).isUnion = true)
    (hnot : u ∉ us) (hflat : ¬g.FlatAt conflate u) {r : NodeId} (hr : r < g.size)
    (hor : (g.kind r).isUnion = false ∨ g.FlatAt conflate r ∨ r ∈ us) : r ≠ u := by
  rintro rfl
  rcases hor with hor | hor | hor
  · rw [(H.kept r hr (.inl hor)).1, hor] at hu
    cases hu
  · exact hflat hor
  · exact hnot hor

/-- A union is redirected to a type that is no union. -/
theorem redirect (H : Settling conflate P g (u :: us) s) (hu : (s.graph.kind u).isUnion = true)
    (hnot : u ∉ us) (hflat : ¬g.FlatAt conflate u) {m : NodeId} (hlt : m < s.graph.size)
    (hm : (s.graph.kind m).isUnion = false) :
    Settling conflate P g us { s with redirection := s.redirection.insert u m } where
  edited := H.edited
  every := H.every
  not_waiting := H.not_waiting
  redirected r t ht := by
    rw [SortedMap.get?_insert] at ht
    split at ht
    · next hru =>
      cases ht
      exact ⟨hru ▸ hu, hlt, hm⟩
    · exact H.redirected r t ht
  kept r hr hor := by
    have hor' := hor.imp_right (Or.imp_right (List.mem_cons_of_mem u))
    refine ⟨(H.kept r hr hor').1, ?_⟩
    rw [SortedMap.get?_insert, if_neg (H.ne_of_kept hu hnot hflat hr hor)]
    exact (H.kept r hr hor').2
  flatAt r hr hus hnone := by
    rw [SortedMap.get?_insert] at hnone
    split at hnone
    · cases hnone
    · next hru => exact H.flatAt r hr (by simp [hru, hus]) hnone
  fresh := H.fresh

/-- A union becomes a flat one, or a type without values. -/
theorem modify (H : Settling conflate P g (u :: us) s) (hult : u < g.size)
    (hu : (s.graph.kind u).isUnion = true)
    (hnot : u ∉ us) (hflat : ¬g.FlatAt conflate u) {k : Kind} (a : Attributes)
    (hk : k = .nothing ∨ ∃ ms, k = .union ms ∧ s.graph.FlatMembers conflate ms) :
    Settling conflate P g us
      { s with graph := s.graph.modify u ({ · with kind := k, attributes := a }) } := by
  have hkind : ∀ r < s.graph.size,
      (s.graph.modify u ({ · with kind := k, attributes := a })).kind r =
        if u = r then k else s.graph.kind r := fun r hr => kind_modify _ _ _ _ hr
  have hlt : ∀ r < g.size, r < s.graph.size := fun r hr =>
    Nat.lt_of_lt_of_le hr H.edited.size_le
  -- members of flat unions are no unions, so that they stay
  have hcongr : ∀ {ms}, s.graph.FlatMembers conflate ms →
      (s.graph.modify u ({ · with kind := k, attributes := a })).FlatMembers conflate ms :=
    fun hms => hms.congr fun m hm => by
      obtain ⟨c, hc⟩ := hms.categorized m hm
      rw [hkind m (lt_size_of_category hc), if_neg]
      rintro rfl
      rw [hms.not_isUnion hm] at hu
      cases hu
  exact {
    edited := by
      refine H.edited.modify u fun _ c hc => ?_
      rcases hk with rfl | ⟨ms, rfl, hms⟩
      · cases hc
      · obtain ⟨d, hd⟩ := hms.categorized c hc
        exact lt_size_of_category hd
    every := by
      refine H.every.modify fun _ => ?_
      rcases hk with rfl | ⟨ms, rfl, -⟩ <;> rfl
    not_waiting := H.not_waiting
    redirected := fun r m hm => by
      obtain ⟨hr, hmlt, hmu⟩ := H.redirected r m hm
      have hnone := (H.kept u hult (.inr (.inr List.mem_cons_self))).2
      have hur : u ≠ r := by
        rintro rfl
        cases hnone.symm.trans hm
      have hum : u ≠ m := by
        rintro rfl
        rw [hmu] at hu
        cases hu
      dsimp only
      rw [size_modify, hkind r (lt_size_of_isUnion hr), hkind m hmlt, if_neg hur, if_neg hum]
      exact ⟨hr, hmlt, hmu⟩
    kept := fun r hr hor => by
      have hkept := H.kept r hr (hor.imp_right (Or.imp_right (List.mem_cons_of_mem u)))
      dsimp only
      rwa [hkind r (hlt r hr), if_neg]
      rintro rfl
      exact H.ne_of_kept hu hnot hflat hr hor rfl
    flatAt := fun r hr hus hnone ms hms => by
      dsimp only at hms
      rw [hkind r (hlt r hr)] at hms
      split at hms
      · rcases hk with rfl | ⟨ns, rfl, hns⟩
        · cases hms
        · cases hms
          exact hcongr hns
      · next hur =>
        exact hcongr (H.flatAt r hr (by simp [Ne.symm hur, hus]) hnone ms hms)
    fresh := fun r hr hrlt => by
      dsimp only at hrlt ⊢
      rw [size_modify] at hrlt
      rw [hkind r hrlt, if_neg]
      · exact H.fresh r hr hrlt
      rintro rfl
      exact absurd hult (Nat.not_lt.2 hr) }

end Settling

/-- **Each union has its turn.** -/
theorem settling_step {us : List NodeId} {s : Flattening} {u : NodeId}
    (H : Settling conflate P g (u :: us) s) (hu : (g.kind u).isUnion = true) (hnot : u ∉ us)
    (hP : Added P s.graph (s.graph.unify conflate (s.graph.leaves u)).2) :
    Settling conflate P g us (s.step conflate u) := by
  have hult : u < g.size := lt_size_of_isUnion hu
  have hlt : ∀ l ∈ s.graph.leaves u, l < s.graph.size := fun l hl =>
    lt_of_mem_walk (List.mem_filter.1 hl).1
  have M := merged_unify H.edited.wellFormed conflate hlt
  have hmembers : 2 ≤ (s.graph.unify conflate (s.graph.leaves u)).1.length →
      (s.graph.unify conflate (s.graph.leaves u)).2.FlatMembers conflate
        (.ofList (s.graph.unify conflate (s.graph.leaves u)).1) :=
    flatMembers_unify H.edited.wellFormed hlt
  have H₁ := H.grow hP (every_unify mergeable_isIntersection conflate _ H.every)
  have hu₁ := (H₁.kept u hult (.inr (.inr List.mem_cons_self))).1
  rw [← hu₁] at hu
  refine Flattening.step_cases (P := Settling conflate P g us) (fun l hl hi => ?_)
    (fun hflat => H.skip (isFlat_iff.1 hflat)) fun _ hflat ms g₁ heq a _ => ?_
  · rw [H.every l (hlt l hl)] at hi
    cases hi
  rw [heq] at M hmembers H₁ hu
  have hflat : ¬g.FlatAt conflate u := fun h => by
    rw [isFlat_iff.2 (H.flatAt_of_flatAt hult h)] at hflat
    cases hflat
  refine ⟨fun _ => H₁.modify hult hu hnot hflat a (.inl rfl), fun m hm => ?_,
    fun htwo => H₁.modify hult hu hnot hflat a (.inr ⟨_, rfl, hmembers htwo⟩)⟩
  subst hm
  have hlt₁ := M.lt_size m (List.mem_singleton_self m)
  refine (H₁.addAttributes m a).redirect ?_ hnot hflat ?_ ?_
  · simpa using hu
  · simpa using hlt₁
  · rw [kind_addAttributes]
    rcases M.kind_cases m (List.mem_singleton_self m) with hk | ⟨c, hc⟩
    · rw [hk]
      rfl
    · exact (isGround_iff.1 (isGround_of_category hc)).1

/-- **All unions have their turn**, if each makes new nodes of the given kinds alone. -/
theorem settling_foldl
    (hP : ∀ u us s, (g.kind u).isUnion = true → Settling conflate P g (u :: us) s →
      Added P s.graph (s.graph.unify conflate (s.graph.leaves u)).2)
    (us : List NodeId) (hnodup : us.Nodup) (hus : ∀ u ∈ us, (g.kind u).isUnion = true)
    {s : Flattening} (H : Settling conflate P g us s) :
    Settling conflate P g [] (us.foldl (Flattening.step conflate) s) := by
  induction us generalizing s with
  | nil => exact H
  | cons u us ih =>
    rw [List.nodup_cons] at hnodup
    exact ih hnodup.2 (fun v hv => hus v (List.mem_cons_of_mem u hv))
      (settling_step H (hus u List.mem_cons_self) hnodup.1
        (hP u us s (hus u List.mem_cons_self) H))

theorem settling_settle (hg : g.WellFormed) (h : g.Every (·.isIntersection = false))
    (hP : ∀ u us s, (g.kind u).isUnion = true → Settling conflate P g (u :: us) s →
      Added P s.graph (s.graph.unify conflate (s.graph.leaves u)).2) :
    Settling conflate P g [] (g.settle conflate) :=
  settling_foldl hP _ (List.nodup_range.filter _) (fun _ hu => (List.mem_filter.1 hu).2)
    (settling_start hg h)

/-! ## What comes of it -/

namespace Settling

variable {s : Flattening} (H : Settling conflate P g [] s)

include H

theorem get?_of_not_isUnion {r : NodeId} (hr : (s.graph.kind r).isUnion = false) :
    s.redirection.get? r = none := by
  refine Option.eq_none_iff_forall_ne_some.2 fun m hm => ?_
  rw [(H.redirected r m hm).1] at hr
  cases hr

/-- References are redirected to nodes that are not redirected. -/
theorem get?_follow (r : NodeId) : s.redirection.get? (s.redirection.follow r) = none := by
  cases hr : s.redirection.get? r with
  | none => rwa [follow_of_none hr]
  | some m =>
    have hm := H.get?_of_not_isUnion (H.redirected r m hr).2.2
    rwa [follow_of_some hr hm]

/-- No reachable node is redirected. -/
theorem get?_of_mem_reachable {r : NodeId} (hr : r ∈ (s.graph.forward s.redirection).reachable) :
    s.redirection.get? r = none := by
  refine walk_induction (P := fun r => s.redirection.get? r = none) (fun r hr => ?_)
    (fun r c _ hc => ?_) hr
  · simp only [forward, renameReferences, OrderedMap.values, OrderedMap.mapValues, List.map_map,
      List.mem_map, Function.comp_apply] at hr
    obtain ⟨e, -, rfl⟩ := hr
    exact H.get?_follow e.2
  · rw [forward, kind_renameReferences, mem_children_mapChildren] at hc
    obtain ⟨d, -, rfl⟩ := hc
    exact H.get?_follow d

theorem flatAt_forward {r : NodeId} (hr : s.graph.FlatAt conflate r) :
    (s.graph.forward s.redirection).FlatAt conflate r := by
  intro ms hk
  rw [forward, kind_renameReferences] at hk
  obtain ⟨ns, hns, rfl⟩ := eq_union_of_mapChildren hk
  refine (hr ns hns).map fun m hm => ?_
  have hnone := H.get?_of_not_isUnion ((hr ns hns).not_isUnion hm)
  rw [follow_of_none hnone, forward, kind_renameReferences, category_mapChildren]

/-- **What is left of the unions of the graph is flat.** -/
theorem flatAt_collect {r : NodeId} (hr : r < g.size)
    (hreach : r ∈ (s.graph.forward s.redirection).reachable) :
    (s.graph.forward s.redirection).collect.FlatAt conflate
      ((s.graph.forward s.redirection).place r) :=
  (H.flatAt_forward (H.flatAt r hr List.not_mem_nil (H.get?_of_mem_reachable hreach))).collect
    hreach

/-- All is flat if no further unions were made. -/
theorem isFlat_collect (hP : ∀ k, P k → k.isUnion = false) :
    (s.graph.forward s.redirection).collect.ids.all
      ((s.graph.forward s.redirection).collect.isFlat conflate) = true := by
  rw [List.all_eq_true]
  intro i hi
  obtain ⟨r, hr, rfl⟩ := exists_place_eq (List.mem_range.1 hi)
  rw [isFlat_iff]
  by_cases hrg : r < g.size
  · exact H.flatAt_collect hrg hr
  · have hlt : r < s.graph.size := by simpa [forward] using lt_of_mem_walk hr
    refine FlatAt.collect (flatAt_of_not_isUnion ?_) hr
    have hkind := hP _ (H.fresh r (Nat.not_lt.1 hrg) hlt)
    rw [forward, kind_renameReferences]
    generalize s.graph.kind r = k at hkind
    cases k <;> first | rfl | cases hkind

end Settling

/-- **Flattening is done if it makes no further unions.** -/
theorem flattenUnions_done (hg : g.WellFormed) (h : g.Every (·.isIntersection = false))
    (hunion : ∀ k, P k → k.isUnion = false)
    (hP : ∀ u us s, (g.kind u).isUnion = true → Settling conflate P g (u :: us) s →
      Added P s.graph (s.graph.unify conflate (s.graph.leaves u)).2) :
    (flattenUnions conflate g).2 = true := by
  have H := settling_settle hg h hP
  rw [flattenUnions_snd, H.not_waiting, Bool.not_false, Bool.true_and]
  exact H.isFlat_collect hunion

end Graph

end SchemaTypes
