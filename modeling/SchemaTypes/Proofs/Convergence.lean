/-
  Passes that say when they are done.

  Flattening and resolution say whether they leave something to do, and stages rely on it.

  * `flattenUnions_of_flat`, `resolveIntersections_of_every`: where they say that they are done,
    they change nothing when applied again;
  * `flattenUnions_done_of_same`: where flattening changes nothing, it says that it is done.  A
    union that is replaced does not come back at its old place: by induction on how nodes are
    reached, all before it are where they were;
  * `run_toFixedPoint_of_nanFree`, `run_toFixedPoint_of_not_nanFree`: what a stage makes of a pass
    that does nothing, where the graph equals itself, and where it does not;
  * `done_means_done`: what follows for stages.
-/
import SchemaTypes.Proofs.Failures
import SchemaTypes.Proofs.Numbering

namespace SchemaTypes

/-! ## Comparison -/

theorem OrderedMap.eq_of_same_mapValues {κ ν : Type} [DecidableEq κ] [DecidableEq ν] {f : ν → ν}
    {m : OrderedMap κ ν} (h : (m.mapValues f).same m = true) : ∀ e ∈ m.entries, f e.2 = e.2 := by
  intro e he
  rw [same, Bool.and_eq_true, List.all_eq_true] at h
  have hf := beq_iff_eq.1 (h.2 (e.1, f e.2) (List.mem_map_of_mem he))
  rw [get?_eq_some_iff.2 he] at hf
  exact (Option.some.inj hf).symm

namespace Kind

/-- If renaming the children changes a kind in no more than the order of its properties, then
    it renames none, but perhaps members of unions and intersections. -/
theorem eq_of_same_mapChildren {f : NodeId → NodeId} {k : Kind} (hu : k.isUnion = false)
    (hi : k.isIntersection = false) (h : (k.mapChildren f).same k = true) :
    ∀ c ∈ k.children, f c = c := by
  have htypes : ∀ {ps : Properties}, (ps.mapTypes f).same ps = true → ∀ c ∈ ps.types, f c = c := by
    intro ps hps c hc
    obtain ⟨p, hp, rfl⟩ := List.mem_map.1 hc
    obtain ⟨e, he, rfl⟩ := List.mem_map.1 hp
    exact congrArg Property.type (OrderedMap.eq_of_same_mapValues hps e he)
  cases k with
  | array items => simpa [mapChildren, Kind.same, children] using h
  | map values => simpa [mapChildren, Kind.same, children] using h
  | record ps => exact htypes h
  | object ps a =>
    simp only [mapChildren, Kind.same, Bool.and_eq_true, beq_iff_eq] at h
    intro c hc
    rcases List.mem_append.1 hc with hc | hc
    · exact htypes h.1 c hc
    · cases a with
      | none => cases hc
      | some a =>
        obtain rfl := List.mem_singleton.1 hc
        exact Option.some.inj h.2
  | union ms => cases hu
  | intersection ms => cases hi
  | _ => exact fun c hc => absurd hc List.not_mem_nil

theorem same_cases {k l : Kind} (h : k.same l = true) : k = l ∨
    (∃ ps qs a, k = object ps a ∧ l = object qs a ∧ ps.same qs = true) ∨
    ∃ ps qs, k = record ps ∧ l = record qs ∧ ps.same qs = true := by
  unfold Kind.same at h
  split at h
  · next ps a qs b =>
    rw [Bool.and_eq_true, beq_iff_eq] at h
    obtain ⟨hps, rfl⟩ := h
    exact .inr (.inl ⟨ps, qs, a, rfl, rfl, hps⟩)
  · next ps qs => exact .inr (.inr ⟨ps, qs, rfl, rfl, h⟩)
  · exact .inl (beq_iff_eq.1 h)

theorem mem_children_of_same {k l : Kind} (h : k.same l = true) {c : NodeId}
    (hc : c ∈ k.children) : c ∈ l.children := by
  have htypes : ∀ {ps qs : Properties}, ps.same qs = true → c ∈ ps.types → c ∈ qs.types := by
    intro ps qs hsame hc
    obtain ⟨p, hp, rfl⟩ := List.mem_map.1 hc
    obtain ⟨e, he, rfl⟩ := List.mem_map.1 hp
    rw [OrderedMap.same, Bool.and_eq_true, List.all_eq_true] at hsame
    exact Properties.mem_types (beq_iff_eq.1 (hsame.2 e he))
  rcases same_cases h with rfl | ⟨ps, qs, a, rfl, rfl, hps⟩ | ⟨ps, qs, rfl, rfl, hps⟩
  · exact hc
  · rw [children, List.mem_append] at hc ⊢
    exact hc.imp_left (htypes hps)
  · exact htypes hps hc

end Kind

namespace Graph

open Kind

variable {g g' : Graph} {conflate : Bool} {P : Kind → Prop}

/-! ## Nothing left to do -/

theorem renameReferences_eq_self (hg : g.WellFormed) {f : NodeId → NodeId}
    (hf : ∀ r < g.size, f r = r) : g.renameReferences f = g := by
  refine eq_of_node_eq (size_renameReferences g f) (fun r hr => ?_) ?_
  · have hkind : (g.kind r).mapChildren f = g.kind r :=
      (mapChildren_congr fun c hc => hf c (hg.lt_of_mem_children hc)).trans (mapChildren_id _)
    rw [node_renameReferences, hkind]
    rfl
  · exact OrderedMap.mapValues_eq_self fun r hr => hf r (hg.2 r hr)

/-- A flat union is left as it is. -/
theorem step_of_flatAt (g : Graph) (moved : Redirection) (waiting : Bool) {u : NodeId}
    (hu : (g.kind u).isUnion = true) (h : g.FlatAt conflate u) :
    Flattening.step conflate ⟨g, moved, waiting⟩ u = ⟨g, moved, waiting⟩ := by
  obtain ⟨ms, hms⟩ : ∃ ms, g.kind u = .union ms := ⟨_, eq_union_of_isUnion hu⟩
  have hmembers := (h ms hms).nearly .string
  simp only [Flattening.step]
  split
  · next hinter =>
    obtain ⟨l, hl, hi⟩ := List.any_eq_true.1 hinter
    obtain ⟨c, hc⟩ := hmembers.categorized l ((mem_leaves hms hmembers).1 hl)
    generalize g.kind l = k at hi hc
    cases k <;> first | cases hi; done | cases hc
  · rw [if_pos (isFlat_iff.2 h)]

/-- **Flattening changes nothing where all unions are flat.** -/
theorem flattenUnions_of_flat (hg : g.WellFormed) (hcollect : g.collect = g)
    (hflat : g.Flat conflate) : flattenUnions conflate g = (g, true) := by
  have hsettle : g.settle conflate = ⟨g, ∅, false⟩ := by
    refine List.foldlRecOn (motive := fun s => s = (⟨g, ∅, false⟩ : Flattening)) _ _ rfl
      fun s hs u hu => ?_
    rw [hs]
    exact step_of_flatAt g ∅ false (List.mem_filter.1 hu).2 (hflat u)
  have hforward : g.forward ∅ = g :=
    renameReferences_eq_self hg fun r _ => follow_of_none rfl
  have hfst : (flattenUnions conflate g).1 = g := by
    rw [flattenUnions_fst, hsettle, hforward, hcollect]
  refine Prod.ext hfst ?_
  rw [flattenUnions_snd, hsettle, hfst, Bool.not_false, Bool.true_and, List.all_eq_true]
  exact fun r _ => isFlat_iff.2 (hflat r)

/-- **Resolution changes nothing where no intersection is left.** -/
theorem resolveIntersections_of_every (hcollect : g.collect = g)
    (h : g.Every (·.isIntersection = false)) : g.resolveIntersections = (g, true) := by
  have hfst : g.resolveIntersections.1 = g := by
    show (Resolution.rounds _ (.ofGraph g)).graph.collect = g
    rw [Resolution.rounds_of_nil (s := .ofGraph g) (Resolution.reachableIntersections_eq_nil h)]
    exact hcollect
  refine Prod.ext hfst ?_
  show (g.resolveIntersections.1.idsWhere Kind.isIntersection).isEmpty = true
  rw [hfst]
  exact isEmpty_idsWhere h

/-! ## Nothing changed -/

theorem topLevel?_of_same (h : g'.same g = true) {name : String} {r : NodeId}
    (hr : g'.topLevel? name = some r) : g.topLevel? name = some r := by
  rw [same, Bool.and_eq_true] at h
  have htop := h.2
  rw [OrderedMap.same, Bool.and_eq_true, List.all_eq_true] at htop
  exact beq_iff_eq.1 (htop.2 _ (OrderedMap.get?_eq_some_iff.1 hr))

/-- What the top levels lead to in one of two graphs that are the same they lead to in the
    other. -/
theorem reached_of_same (h : g'.same g = true) {r : NodeId} (hr : g'.Reached r) : g.Reached r := by
  induction hr with
  | topLevel hr => exact .topLevel (topLevel?_of_same h hr)
  | child _ hc ih => exact .child ih (mem_children_of_same (kind_same_of_same h _) hc)

theorem Reached.lt_size (hg : g.WellFormed) {r : NodeId} (hr : g.Reached r) : r < g.size := by
  cases hr with
  | topLevel hr => exact hg.lt_of_topLevel hr
  | child _ hc => exact hg.lt_of_mem_children hc

/-- The node is where it was after references were redirected and nodes collected. -/
def Stays (s : Flattening) (r : NodeId) : Prop :=
  s.redirection.follow r ∈ (s.graph.forward s.redirection).reachable ∧
    (s.graph.forward s.redirection).place (s.redirection.follow r) = r

namespace Settling

variable {s : Flattening} (H : Settling conflate P g [] s)

include H

theorem wellFormed_forward : (s.graph.forward s.redirection).WellFormed :=
  (H.edited.forward fun r m hm => (H.redirected r m hm).2.1).wellFormed

/-- What is known of a node that stays, was flat and was no intersection. -/
theorem kind_of_stays {r : NodeId} (hr : r < g.size) (hflat : g.FlatAt conflate r)
    (hstays : Stays s r) : (s.graph.forward s.redirection).collect.kind r =
      (g.kind r).mapChildren
        ((s.graph.forward s.redirection).place ∘ s.redirection.follow) := by
  obtain ⟨hreach, hplace⟩ := hstays
  obtain ⟨hkind, hnone⟩ := H.kept r hr (.inr (.inl hflat))
  rw [follow_of_none hnone] at hreach hplace
  have hcollect := kind_collect hreach
  rwa [hplace, forward, kind_renameReferences, mapChildren_mapChildren, hkind] at hcollect

/-- Children are reachable where their parents are. -/
theorem follow_mem_reachable {r c : NodeId} (hr : r < g.size) (hflat : g.FlatAt conflate r)
    (hstays : Stays s r) (hc : c ∈ (g.kind r).children) :
    s.redirection.follow c ∈ (s.graph.forward s.redirection).reachable := by
  obtain ⟨hkind, hnone⟩ := H.kept r hr (.inr (.inl hflat))
  have hreach := hstays.1
  rw [follow_of_none hnone] at hreach
  refine mem_reachable_of_mem_children H.wellFormed_forward hreach ?_
  rw [forward, kind_renameReferences, hkind, mem_children_mapChildren]
  exact ⟨c, hc, rfl⟩

variable (hsame : (s.graph.forward s.redirection).collect.same g = true)

include hsame

/-- **Children stay with their parents.**  The members of a flat union may change places, but
    their categories tell that they do not. -/
theorem stays_child (hg : g.WellFormed) (hinter : g.Every (·.isIntersection = false))
    {r c : NodeId} (hr : r < g.size) (hflat : g.FlatAt conflate r) (hstays : Stays s r)
    (hc : c ∈ (g.kind r).children) : Stays s c := by
  have hreach := H.follow_mem_reachable hr hflat hstays hc
  refine ⟨hreach, ?_⟩
  have hkind := kind_same_of_same hsame r
  rw [H.kind_of_stays hr hflat hstays] at hkind
  by_cases hu : (g.kind r).isUnion = true
  · obtain ⟨ms, hms⟩ : ∃ ms, g.kind r = .union ms := ⟨_, eq_union_of_isUnion hu⟩
    rw [hms] at hc hkind
    have hmembers := hflat ms hms
    have hplace : (s.graph.forward s.redirection).place (s.redirection.follow c) ∈ ms := by
      have heq : ms.map ((s.graph.forward s.redirection).place ∘ s.redirection.follow) = ms := by
        simpa [mapChildren, Kind.same] using hkind
      rw [← heq]
      exact SortedSet.mem_map.2 ⟨c, hc, rfl⟩
    -- the node at the new place of a member has its category
    obtain ⟨hkept, hnone⟩ :=
      H.kept c (hg.lt_of_mem_children (r := r) (by rw [hms]; exact hc))
        (.inl (hmembers.not_isUnion hc))
    rw [follow_of_none hnone] at hplace hreach ⊢
    refine hmembers.eq_of_category _ hplace c hc ?_
    rw [← category_of_same (kind_same_of_same hsame _), kind_collect hreach,
      category_mapChildren, forward, kind_renameReferences, category_mapChildren, hkept]
  · exact eq_of_same_mapChildren ((Bool.not_eq_true _).mp hu) (hinter r hr) hkind c hc

/-- A node that stays is no union that was replaced: it is flat. -/
theorem flatAt_of_stays {r : NodeId} (hr : r < g.size) (hstays : Stays s r) :
    g.FlatAt conflate r := by
  rw [← flatAt_iff_of_same hsame]
  obtain ⟨hreach, hplace⟩ := hstays
  cases hm : s.redirection.get? r with
  | none =>
    rw [follow_of_none hm] at hreach hplace
    have hflat := H.flatAt_collect hr hreach
    rwa [hplace] at hflat
  | some m =>
    have hu := (H.redirected r m hm).2.2
    have hfollow := follow_of_some hm (H.get?_of_not_isUnion hu)
    rw [hfollow] at hreach hplace
    refine flatAt_of_not_isUnion ?_
    rw [← hplace, kind_collect hreach, forward, kind_renameReferences]
    generalize s.graph.kind m = k at hu
    cases k <;> first | rfl | cases hu

/-- **All that the top levels lead to stays, and is flat.** -/
theorem stays_of_reached (hg : g.WellFormed) (hinter : g.Every (·.isIntersection = false))
    {r : NodeId} (hr : g.Reached r) : Stays s r ∧ g.FlatAt conflate r := by
  induction hr with
  | @topLevel name r hr =>
    have hlt := hg.lt_of_topLevel hr
    have htop : (s.graph.forward s.redirection).topLevel? name =
        some (s.redirection.follow r) := by
      rw [topLevel?, forward, renameReferences, OrderedMap.get?_mapValues, H.edited.topLevels_eq]
      exact congrArg _ hr
    have hplace := (topLevel?_collect _ name).trans (congrArg _ htop)
    have hstays : Stays s r :=
      ⟨mem_reachable_of_topLevel H.wellFormed_forward htop,
        Option.some.inj ((topLevel?_of_same hsame hplace).symm.trans hr)⟩
    exact ⟨hstays, H.flatAt_of_stays hsame hlt hstays⟩
  | @child r c hr hc ih =>
    have hstays := H.stays_child hsame hg hinter (hr.lt_size hg) ih.2 ih.1 hc
    exact ⟨hstays, H.flatAt_of_stays hsame (hg.lt_of_mem_children hc) hstays⟩

end Settling

/-- The leaves of a union are merged into new nodes. -/
theorem Settling.added_unify {us : List NodeId} {s : Flattening} (H : Settling conflate P g us s)
    (u : NodeId) : Added (fun _ => True) s.graph (s.graph.unify conflate (s.graph.leaves u)).2 :=
  ⟨(merged_unify H.edited.wellFormed conflate fun _ hl =>
    lt_of_mem_walk (List.mem_filter.1 hl).1).grows, fun _ _ _ => trivial⟩

/-- Without intersections, unions are settled, whatever nodes that takes. -/
theorem settling_true (hg : g.WellFormed) (hinter : g.Every (·.isIntersection = false)) :
    Settling conflate (fun _ => True) g [] (g.settle conflate) :=
  settling_settle hg hinter fun u _ _ _ H => H.added_unify u

/-- **Flattening that changes nothing says that it is done**, if no intersection is in the way. -/
theorem flattenUnions_done_of_same (hg : g.WellFormed) (hinter : g.Every (·.isIntersection = false))
    (hsame : (flattenUnions conflate g).1.collect.same g = true) :
    (flattenUnions conflate g).2 = true := by
  have H : Settling conflate (fun _ => True) g [] (g.settle conflate) := settling_true hg hinter
  have hwf := H.wellFormed_forward
  rw [flattenUnions_fst, collect_collect hwf] at hsame
  rw [flattenUnions_snd, H.not_waiting, Bool.not_false, Bool.true_and, List.all_eq_true]
  intro r hr
  rw [isFlat_iff, flattenUnions_fst, flatAt_iff_of_same hsame]
  have hreached := reached_collect hwf (List.mem_range.1 hr)
  exact (H.stays_of_reached hsame hg hinter (reached_of_same hsame hreached)).2

/-! ## Done for good -/

theorem nanFree_flattenUnions (conflate : Bool) (hg : g.WellFormed) (hnan : g.NaNFree) :
    (flattenUnions conflate g).1.NaNFree :=
  (steps_flattenUnions NodeClass.heritable_nanFree conflate (hnan.fit hg)).nanFree hg hnan

theorem nanFree_resolveIntersections (hg : g.WellFormed) (hnan : g.NaNFree) :
    g.resolveIntersections.1.NaNFree :=
  (steps_resolveIntersections NodeClass.heritable_nanFree (hnan.fit hg)).nanFree hg hnan

theorem collect_flattenUnions (hg : g.WellFormed) :
    (flattenUnions conflate g).1.collect = (flattenUnions conflate g).1 :=
  collect_collect (kept_settle conflate hg).wellFormed

theorem collect_resolveIntersections (hg : g.WellFormed) :
    g.resolveIntersections.1.collect = g.resolveIntersections.1 :=
  collect_collect (kept_rounds hg).wellFormed

/-- **Flattening that is done is done for good.** -/
theorem flattenUnions_again (hg : g.WellFormed) (h : flattenUnions conflate g = (g', true)) :
    flattenUnions conflate g' = (g', true) := by
  obtain ⟨rfl, hdone⟩ := Prod.ext_iff.1 h
  exact flattenUnions_of_flat (kept_flattenUnions conflate hg).wellFormed (collect_flattenUnions hg)
    (flat_of_flattenUnions hdone)

/-- **Resolution that is done is done for good.** -/
theorem resolveIntersections_again (hg : g.WellFormed) (h : g.resolveIntersections = (g', true)) :
    g'.resolveIntersections = (g', true) := by
  obtain ⟨rfl, hdone⟩ := Prod.ext_iff.1 h
  exact resolveIntersections_of_every (collect_resolveIntersections hg)
    (every_resolveIntersections hdone)

/-- Resolution and flattening that are done are done for good. -/
theorem resolveAndFlatten_again (hg : g.WellFormed)
    (h : resolveAndFlatten conflate g = (g', true)) :
    resolveAndFlatten conflate g' = (g', true) := by
  obtain ⟨hfst, hdone⟩ := Prod.ext_iff.1 h
  rw [resolveAndFlatten, Bool.and_eq_true] at hdone
  have hwf := (kept_resolveIntersections hg).wellFormed
  have hflat : flattenUnions conflate g.resolveIntersections.1 = (g', true) :=
    Prod.ext hfst hdone.2
  have hagain := flattenUnions_again hwf hflat
  have hevery := every_flattenUnions mergeable_isIntersection conflate
    (every_resolveIntersections hdone.1)
  have hcollect : (flattenUnions conflate g.resolveIntersections.1).1.collect =
      (flattenUnions conflate g.resolveIntersections.1).1 := collect_flattenUnions hwf
  rw [hflat] at hevery hcollect
  simp only [resolveAndFlatten, resolveIntersections_of_every hcollect hevery, hagain,
    Bool.and_self]

end Graph

/-! ## Stages -/

open SchemaTypes.Graph Stage

variable {g : Graph} {stage : String} {pass : Pass}

/-- **A pass that does nothing ends the stage** where the graph equals itself. -/
theorem run_toFixedPoint_of_nanFree (hpass : (pass g).1 = g) (hcollect : g.collect = g)
    (hnan : g.NaNFree) (stage : String) :
    (toFixedPoint stage fun _ => pass).run g =
      (if (pass g).2 then .ok ⟨⟩ else .error (.notConverged stage), g) := by
  have hlimit : iterationLimit = 63 + 1 := rfl
  rw [toFixedPoint, hlimit, run_repeatFrom_succ, hpass, hcollect, hnan.same_self]
  cases (pass g).2 <;> rfl

/-- **A pass that does nothing is found to change a graph that does not equal itself.** -/
theorem run_repeatFrom_of_not_nanFree (hpass : pass g = (g, true)) (hcollect : g.collect = g)
    (hnan : ¬g.NaNFree) (stage : String) (n i : Nat) (done : Bool) :
    (repeatFrom stage (fun _ => pass) (n + 2) i done).run g =
      (.error (.changedAfterDone stage), g) := by
  have hsame : ¬g.same g = true := fun h => hnan (same_self_iff.1 h)
  rw [run_repeatFrom_succ, hpass]
  dsimp only
  rw [hcollect, if_neg hsame]
  cases done with
  | true => rfl
  | false =>
    rw [if_neg Bool.false_ne_true, run_repeatFrom_succ, hpass]
    dsimp only
    rw [hcollect, if_neg hsame, if_pos rfl]

theorem run_toFixedPoint_of_not_nanFree (hpass : pass g = (g, true)) (hcollect : g.collect = g)
    (hnan : ¬g.NaNFree) (stage : String) :
    (toFixedPoint stage fun _ => pass).run g = (.error (.changedAfterDone stage), g) :=
  run_repeatFrom_of_not_nanFree hpass hcollect hnan stage 62 0 false

/-- A pass is done for good in well-formed graphs: where it says that it is done, it changes
    nothing when applied again. -/
structure Final (pass : Pass) : Prop where
  kept : ∀ g : Graph, g.WellFormed → g.Kept (pass g).1
  nanFree : ∀ g : Graph, g.WellFormed → g.NaNFree → (pass g).1.NaNFree
  collected : ∀ g : Graph, g.WellFormed → (pass g).1.collect = (pass g).1
  again : ∀ g g' : Graph, g.WellFormed → pass g = (g', true) → pass g' = (g', true)

theorem final_flattenUnions (conflate : Bool) : Final (flattenUnions conflate) where
  kept _ := kept_flattenUnions conflate
  nanFree _ := nanFree_flattenUnions conflate
  collected _ := collect_flattenUnions
  again _ _ := flattenUnions_again

theorem final_resolveIntersections : Final resolveIntersections where
  kept _ := kept_resolveIntersections
  nanFree _ := nanFree_resolveIntersections
  collected _ := collect_resolveIntersections
  again _ _ := resolveIntersections_again

theorem final_resolveAndFlatten (conflate : Bool) : Final (resolveAndFlatten conflate) where
  kept _ := kept_resolveAndFlatten conflate
  nanFree _ hg hnan := nanFree_flattenUnions conflate (kept_resolveIntersections hg).wellFormed
    (nanFree_resolveIntersections hg hnan)
  collected _ hg := collect_flattenUnions (kept_resolveIntersections hg).wellFormed
  again _ _ := resolveAndFlatten_again

/-- Nothing changes after a pass that is done for good, if all bounds are numbers. -/
theorem Final.same_again (h : Final pass) (hg : g.WellFormed) (hnan : g.NaNFree)
    (hdone : (pass g).2 = true) :
    (pass (pass g).1.collect).1.collect.same (pass g).1.collect = true := by
  rw [h.collected g hg, h.again g _ hg (Prod.ext rfl hdone), h.collected g hg]
  exact (h.nanFree g hg hnan).same_self

/-- **A stage of a pass that is done for good never finds a change after that**, if all bounds are
    numbers. -/
theorem Final.failsOnly (h : Final pass) (hg : g.WellFormed) (hnan : g.NaNFree) :
    FailsOnly (toFixedPoint stage fun _ => pass) g fun e => ∀ stage', e ≠ .changedAfterDone stage' := by
  refine failsOnly_toFixedPoint (I := fun g => g.WellFormed ∧ g.NaNFree) (fun _ g hg => ?_)
    (fun _ => StageError.noConfusion) (fun _ _ _ _ _ _ => StageError.noConfusion)
    (fun _ g hg hdone hchanged => ?_) ⟨hg, hnan⟩
  · rw [h.collected g hg.1]
    exact ⟨(h.kept g hg.1).wellFormed, h.nanFree g hg.1 hg.2⟩
  · rw [h.same_again hg.1 hg.2 hdone] at hchanged
    cases hchanged

/-- **Flattening fails only at the limit**, if no intersection is in the way and all bounds are
    numbers.  Where one is not, a change may be found after it was done. -/
theorem failsOnly_flattenUnions (conflate : Bool) (hg : g.WellFormed)
    (hinter : g.Every (·.isIntersection = false)) (n i : Nat) :
    FailsOnly (repeatFrom stage (fun _ => flattenUnions conflate) n i false) g fun e =>
      e = .iterationLimit stage iterationLimit ∨ ¬g.NaNFree ∧ e = .changedAfterDone stage := by
  refine failsOnly_repeatFrom (I := fun g' => g'.WellFormed ∧
      g'.Every (·.isIntersection = false) ∧ (g.NaNFree → g'.NaNFree))
    (fun _ g' hg' => ?_) (.inl rfl) (fun _ g' hg' hsame hdone => ?_)
    (fun _ g' hg' hdone hchanged => ?_) n i false ⟨hg, hinter, id⟩ Bool.noConfusion
  · rw [collect_flattenUnions hg'.1]
    exact ⟨(kept_flattenUnions conflate hg'.1).wellFormed,
      every_flattenUnions Kind.mergeable_isIntersection conflate hg'.2.1,
      fun hnan => nanFree_flattenUnions conflate hg'.1 (hg'.2.2 hnan)⟩
  · rw [flattenUnions_done_of_same hg'.1 hg'.2.1 hsame] at hdone
    cases hdone
  · refine .inr ⟨fun hnan => ?_, rfl⟩
    rw [(final_flattenUnions conflate).same_again hg'.1 (hg'.2.2 hnan) hdone] at hchanged
    cases hchanged

/-- **Done means done, and stuck means done.**  Flattening or resolution that says that it is done
    changes nothing when it is applied again, so that a stage never finds a change after it was
    told that all is done, if all bounds are numbers.  Where no intersection is in the way,
    flattening that changes nothing says that it is done, so that a stage never finds that it got
    stuck. -/
theorem done_means_done (hg : g.WellFormed) :
    (∀ conflate g', flattenUnions conflate g = (g', true) →
      flattenUnions conflate g' = (g', true)) ∧
    (∀ g', g.resolveIntersections = (g', true) → g'.resolveIntersections = (g', true)) ∧
    (g.NaNFree →
      (∀ stage conflate, FailsOnly (toFixedPoint stage fun _ => flattenUnions conflate) g
        fun e => ∀ stage', e ≠ .changedAfterDone stage') ∧
      (∀ stage, FailsOnly (toFixedPoint stage fun _ => resolveIntersections) g
        fun e => ∀ stage', e ≠ .changedAfterDone stage') ∧
      ∀ stage conflate, FailsOnly (toFixedPoint stage fun _ => resolveAndFlatten conflate) g
        fun e => ∀ stage', e ≠ .changedAfterDone stage') ∧
    (g.Every (·.isIntersection = false) → ∀ conflate,
      ((flattenUnions conflate g).1.collect.same g = true → (flattenUnions conflate g).2 = true) ∧
      ∀ stage, FailsOnly (toFixedPoint stage fun _ => flattenUnions conflate) g
        fun e => ∀ stage', e ≠ .notConverged stage') := by
  refine ⟨fun conflate g' h => flattenUnions_again hg h, fun g' h => resolveIntersections_again hg h,
    fun hnan => ⟨fun stage conflate => (final_flattenUnions conflate).failsOnly hg hnan,
      fun stage => final_resolveIntersections.failsOnly hg hnan,
      fun stage conflate => (final_resolveAndFlatten conflate).failsOnly hg hnan⟩,
    fun hinter conflate => ⟨flattenUnions_done_of_same hg hinter, fun stage e g' hrun stage' => ?_⟩⟩
  rcases failsOnly_flattenUnions conflate hg hinter iterationLimit 0 e g' hrun with rfl | ⟨-, rfl⟩
  · exact StageError.noConfusion
  · exact StageError.noConfusion

/-- Marks, given as whole numbers or as anything a nested union has. -/
def marks : Graph where
  nodes := #[.new (.array 1), .new (.union (.ofList [2, 3])), .new .integer,
    .new (.union (.ofList [4, 5])), .new .null, .new .integer]
  topLevels := .ofList [("Marks", 0)]

/-- Flattening marks is done after it has changed them, and then changes nothing. -/
theorem done_means_done_marks : marks.WellFormed ∧ marks.NaNFree ∧
    marks.Every (·.isIntersection = false) ∧ (flattenUnions true marks).1 ≠ marks ∧
    flattenUnions true (flattenUnions true marks).1 = ((flattenUnions true marks).1, true) ∧
    (FailsOnly (toFixedPoint "flatten unions" fun _ => flattenUnions true) marks
      fun e => ∀ stage', e ≠ .changedAfterDone stage') ∧
    (flattenUnions true (flattenUnions true marks).1).2 = true := by
  have hg : marks.WellFormed := ⟨by decide, by decide⟩
  have hnan : marks.NaNFree := by decide
  have hinter : ∀ r < marks.size, (marks.kind r).isIntersection = false := by decide
  have hdone : (flattenUnions true marks).2 = true := by decide +kernel
  have hflat := (kept_flattenUnions true hg).wellFormed
  have hflatInter := every_flattenUnions Kind.mergeable_isIntersection true hinter
  refine ⟨hg, hnan, hinter, by decide +kernel, (done_means_done hg).1 true _ (Prod.ext rfl hdone),
    ((done_means_done hg).2.2.1 hnan).1 _ true, ?_⟩
  exact ((done_means_done hflat).2.2.2 hflatInter true).1 (by decide +kernel)

/-- A change may be found after flattening was done: a bound that is not a number differs from
    itself. -/
theorem not_forall_unchanged_after_done : ¬∀ (g : Graph) (conflate : Bool) (stage : String),
    g.WellFormed → FailsOnly (toFixedPoint stage fun _ => flattenUnions conflate) g
      fun e => ∀ stage', e ≠ .changedAfterDone stage' := by
  intro h
  have hpass : flattenUnions true reading = (reading, true) := by decide +kernel
  have hrun := run_toFixedPoint_of_not_nanFree hpass (by decide +kernel) (by decide)
    "flatten unions"
  exact h reading true "flatten unions" ⟨by decide, by decide⟩ _ _ hrun "flatten unions" rfl

end SchemaTypes
