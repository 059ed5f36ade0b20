/-
  Which kinds of types the passes make.

  * `Graph.Every`: every node has a kind of a class;
  * `Renamable`, `Mergeable`: classes that are closed under renaming of children, and under what
    is made where types are merged;
  * `every_flattenUnions`, `every_replaceObjects`, `every_combineClasses`, `every_inferMaps`:
    these passes stay inside mergeable classes;
  * `every_of_foldl`: a pass over all nodes brings them into a class, one after the other.
-/
import SchemaTypes.Graph.Classes
import SchemaTypes.Proofs.Unification
import SchemaTypes.Graph.Flattening
import SchemaTypes.Graph.Texts

namespace SchemaTypes

namespace Kind

/-- The class is closed under renaming of children. -/
def Renamable (K : Kind → Prop) : Prop := ∀ f k, K k → K (k.mapChildren f)

/-- The class is closed under what is made where types are merged. -/
structure Mergeable (K : Kind → Prop) : Prop where
  rename : Renamable K
  nothing : K .nothing
  union : ∀ ms, K (.union ms)
  array : ∀ items, K (.array items)
  map : ∀ values, K (.map values)
  record : ∀ ps, K (.record ps)
  object : ∀ {ps a}, K (.object ps a) → ∀ qs b, K (.object qs b)
  enumeration : ∀ cases, K (.enumeration cases)
  string : ∀ {cases}, K (.string (some cases)) → ∀ cases', K (.string (some cases'))

theorem isIntersection_renamable : Renamable (·.isIntersection = false) := fun _ _ h =>
  isIntersection_mapChildren.trans h

theorem mergeable_isIntersection : Mergeable (·.isIntersection = false) where
  rename := isIntersection_renamable
  nothing := rfl
  union _ := rfl
  array _ := rfl
  map _ := rfl
  record _ := rfl
  object _ _ _ := rfl
  enumeration _ := rfl
  string _ _ := rfl

end Kind

namespace Graph

open Kind

variable {K K' : Kind → Prop} {g : Graph}

theorem lt_size_of_category {r : NodeId} {c : Category} (h : (g.kind r).category? = some c) :
    r < g.size := by
  refine lt_size_of_kind_ne fun hn => ?_
  rw [hn] at h
  cases h

/-- Every node has a kind of the class. -/
def Every (K : Kind → Prop) (g : Graph) : Prop := ∀ r < g.size, K (g.kind r)

namespace Every

theorem imp (h : g.Every K) (hK : ∀ k, K k → K' k) : g.Every K' := fun r hr => hK _ (h r hr)

theorem push (h : g.Every K) {n : Node} (hn : K n.kind) : (g.push n).Every K := by
  intro r hr
  rw [kind_push]
  split
  · exact hn
  · next hne =>
    rw [size_push] at hr
    exact h r (Nat.lt_of_le_of_ne (Nat.le_of_lt_succ hr) hne)

theorem modify (h : g.Every K) {r : NodeId} {f : Node → Node}
    (hf : r < g.size → K (f (g.node r)).kind) : (g.modify r f).Every K := by
  intro s hs
  rw [size_modify] at hs
  rw [kind_modify _ _ _ _ hs]
  split
  · next hrs =>
    subst hrs
    exact hf hs
  · exact h s hs

theorem setKind (h : g.Every K) {r : NodeId} {k : Kind} (hk : K k) : (g.setKind r k).Every K :=
  h.modify fun _ => hk

theorem setAttributes (h : g.Every K) (r : NodeId) (a : Attributes) :
    (g.setAttributes r a).Every K :=
  h.modify fun hr => h r hr

theorem addAttributes (h : g.Every K) (r : NodeId) (a : Attributes) :
    (g.addAttributes r a).Every K := by
  unfold Graph.addAttributes
  split
  · exact h
  · exact h.setAttributes r _

theorem forward (hK : Renamable K) (h : g.Every K) (moved : Redirection) :
    (g.forward moved).Every K := by
  intro r hr
  rw [Graph.forward, kind_renameReferences]
  rw [Graph.forward, size_renameReferences] at hr
  exact hK _ _ (h r hr)

theorem collect (hK : Renamable K) (h : g.Every K) : g.collect.Every K := by
  intro i hi
  obtain ⟨r, hr, rfl⟩ := exists_place_eq hi
  rw [kind_collect hr]
  exact hK _ _ (h r (lt_of_mem_walk hr))

end Every

/-- The graph grows by nodes of kinds of the class. -/
structure Added (K : Kind → Prop) (g g' : Graph) : Prop extends g.Grows g' where
  kind_new : ∀ r, g.size ≤ r → r < g'.size → K (g'.kind r)

namespace Added

theorem refl (g : Graph) : Added K g g :=
  ⟨.refl g, fun _ hr hlt => absurd hr (Nat.not_le.2 hlt)⟩

theorem trans {g₁ g₂ : Graph} (h : Added K g g₁) (h' : Added K g₁ g₂) : Added K g g₂ where
  toGrows := h.toGrows.trans h'.toGrows
  kind_new r hr hlt := by
    by_cases hr₁ : r < g₁.size
    · rw [h'.kind_eq r hr₁]
      exact h.kind_new r hr hr₁
    · exact h'.kind_new r (Nat.not_lt.1 hr₁) hlt

theorem push {n : Node} (hn : K n.kind) (hc : ∀ c ∈ n.kind.children, c < g.size) :
    Added K g (g.push n) where
  toGrows := grows_push fun c h => Nat.lt_succ_of_lt (hc c h)
  kind_new r hr hlt := by
    rw [size_push] at hlt
    rw [kind_push, if_pos (Nat.le_antisymm (Nat.le_of_lt_succ hlt) hr)]
    exact hn

theorem every {g' : Graph} (h : Added K g g') (hg : g.Every K') (hK : ∀ k, K k → K' k) :
    g'.Every K' := by
  intro r hr
  by_cases hr' : r < g.size
  · rw [h.kind_eq r hr']
    exact hg r hr'
  · exact hK _ (h.kind_new r (Nat.not_lt.1 hr') hr)

end Added

@[simp] theorem size_mapKinds (g : Graph) (f : Kind → Kind) : (g.mapKinds f).size = g.size := by
  simp [size, mapKinds]

theorem kind_mapKinds (f : Kind → Kind) {r : NodeId} (hr : r < g.size) :
    (g.mapKinds f).kind r = f (g.kind r) := by
  have hr : r < g.nodes.size := hr
  simp [kind, node, mapKinds, Array.getD, hr]

theorem Every.mapKinds (h : g.Every K) {f : Kind → Kind} (hf : ∀ k, K k → K' (f k)) :
    (g.mapKinds f).Every K' := by
  intro r hr
  rw [size_mapKinds] at hr
  rw [kind_mapKinds f hr]
  exact hf _ (h r hr)

/-! ## One type for several -/

section

variable (hK : Mergeable K)

include hK

theorem every_unionOf (h : g.Every K) (ms : SortedSet NodeId) : (g.unionOf ms).2.Every K :=
  unionOf_cases (P := fun _ => Every K) (fun _ => h.push hK.nothing) (fun _ _ _ => h)
    (h.push (hK.union ms))

/-- Objects are only made of objects. -/
theorem every_unifyObjects (rs : List NodeId) (h : g.Every K) :
    K (g.unifyObjects rs).1.kind ∧ (g.unifyObjects rs).2.Every K := by
  refine ⟨?_, unifyObjects_induction (fun _ ms h _ _ => every_unionOf hK h ms) h⟩
  rcases unifyObjects_cases g rs with ⟨values, hk⟩ | ⟨ps, a, hk, r, -, qs, b, hr⟩ | ⟨⟨ps, hk⟩, -⟩ <;>
    rw [hk]
  · exact hK.map values
  · exact hK.object (hr ▸ h r (lt_size_of_isObjectLike (hr ▸ rfl))) ps a
  · exact hK.record ps

theorem every_mergeCategory {c : Category} {rs : List NodeId} (hrs : rs ≠ [])
    (hc : ∀ r ∈ rs, (g.kind r).category? = some c) (h : g.Every K) :
    (g.mergeCategory c rs).2.Every K := by
  have hlt : ∀ r ∈ rs, r < g.size := fun r hr => lt_size_of_category (hc r hr)
  have hunified := every_unifyObjects hK rs h
  refine mergeCategory_cases (P := fun _ => Every K) hrs (fun _ _ => h) (fun hstring => h.push ?_)
    (fun _ => h.push (hK.enumeration _)) (fun _ => (every_unionOf hK h _).push (hK.array _))
    (fun _ => hunified.2.push hunified.1) fun _ _ _ _ r _ => h.setAttributes r _
  subst hstring
  dsimp only [mergedStrings, Node.new]
  split
  · next hall =>
    obtain ⟨r, hr, heq⟩ := List.mem_map.1 (List.contains_iff_mem.1 hall)
    exact heq ▸ h r (hlt r hr)
  · next hall =>
    obtain ⟨r, hr⟩ := List.exists_mem_of_ne_nil rs hrs
    have hcr := hc r hr
    have hkr := h r (hlt r hr)
    have hmem := List.mem_map_of_mem (f := g.kind) hr
    generalize g.kind r = k at hcr hkr hmem
    cases k <;> cases hcr
    next cases =>
    cases cases with
    | none => exact absurd (List.contains_iff_mem.2 hmem) hall
    | some cases => exact hK.string hkr _

theorem every_unify (conflate : Bool) (ls : List NodeId) (h : g.Every K) :
    (g.unify conflate ls).2.Every K :=
  unify_induction conflate (fun _ _ _ h hne _ hrs => every_mergeCategory hK hne hrs h) h

theorem every_flatteningStep (conflate : Bool) {s : Flattening} (h : s.graph.Every K)
    (u : NodeId) : (s.step conflate u).graph.Every K := by
  refine Flattening.step_cases (P := fun s => s.graph.Every K) (fun _ _ _ => h) (fun _ => h)
    fun _ _ ms g₁ heq a _ => ?_
  have hunify := every_unify hK conflate (s.graph.leaves u) h
  rw [heq] at hunify
  exact ⟨fun _ => hunify.modify fun _ => hK.nothing, fun m _ => hunify.addAttributes m a,
    fun _ => hunify.modify fun _ => hK.union _⟩

/-- **Flattening unions stays inside a mergeable class.** -/
theorem every_flattenUnions (conflate : Bool) (h : g.Every K) :
    (flattenUnions conflate g).1.Every K := by
  have hfold : ((g.idsWhere Kind.isUnion).foldl (Flattening.step conflate)
      ⟨g, ∅, false⟩).graph.Every K :=
    List.foldlRecOn (motive := fun s : Flattening => s.graph.Every K) _ _ h fun s hs u _ =>
      every_flatteningStep hK conflate hs u
  exact (hfold.forward hK.rename _).collect hK.rename

/-! ## Classes and maps -/

theorem every_replaceObject (leaveFull : Bool) (h : g.Every K) (r : NodeId) :
    (replaceObject leaveFull g r).Every K :=
  replaceObject_cases (fun _ => h) (fun _ _ _ _ => h) (fun _ _ _ => h.modify fun _ => hK.record _)
    (fun _ _ _ _ => h.setKind (hK.map _)) fun _ _ _ => (every_unionOf hK h _).setKind (hK.map _)

theorem every_replaceObjects (leaveFull : Bool) (h : g.Every K) :
    (replaceObjects leaveFull g).Every K :=
  List.foldlRecOn (motive := Every K) _ _ h fun _ hg r _ => every_replaceObject hK leaveFull hg r

theorem every_combineClasses (same : Bool) (h : g.Every K) : (combineClasses same g).Every K := by
  unfold combineClasses
  extract_lets groups moved
  refine Every.forward hK.rename ?_ moved
  refine List.foldlRecOn (motive := Every K) _ _ h fun g hg group _ => ?_
  obtain ⟨hn, hg⟩ := every_unifyObjects hK (group.1 :: group.2) hg
  exact hg.modify fun _ => hn

theorem every_inferMaps (h : g.Every K) : g.inferMaps.1.Every K := by
  rw [inferMaps_fst]
  refine List.foldlRecOn (motive := Every K) _ _ h fun g hg r _ => ?_
  rcases inferMap_cases g r with ⟨-, heq⟩ | ⟨ps, -, -, heq⟩ <;> rw [heq]
  · exact hg
  · exact (every_unionOf hK hg _).setKind (hK.map _)

/-! ## Strings in unions -/

theorem every_absorbStrings (h : g.Every K) : g.absorbStrings.Every K := by
  refine Every.forward hK.rename ?_ _
  refine List.foldlRecOn (motive := fun s : Absorption => s.graph.Every K) _ _ h fun s hs u _ => ?_
  unfold Absorption.step
  extract_lets g members
  split
  · exact hs
  extract_lets kept
  split
  · exact hs
  split
  · exact hs.addAttributes _ _
  · exact hs.setKind (hK.union _)

end

/-! ## One node after the other -/

/-- Every node has a kind of the class, but perhaps those listed. -/
def EveryBut (K : Kind → Prop) (rs : List NodeId) (g : Graph) : Prop :=
  ∀ r < g.size, r ∈ rs ∨ K (g.kind r)

theorem EveryBut.push {rs : List NodeId} (h : g.EveryBut K rs) {n : Node} (hn : K n.kind) :
    (g.push n).EveryBut K rs := by
  intro r hr
  rw [kind_push]
  split
  · exact .inr hn
  · next hne =>
    rw [size_push] at hr
    exact h r (Nat.lt_of_le_of_ne (Nat.le_of_lt_succ hr) hne)

theorem EveryBut.added {rs : List NodeId} {g' : Graph} (hg : g.EveryBut K rs)
    (h : Added K' g g') (hK : ∀ k, K' k → K k) : g'.EveryBut K rs := by
  intro r hr
  by_cases hr' : r < g.size
  · rw [h.kind_eq r hr']
    exact hg r hr'
  · exact .inr (hK _ (h.kind_new r (Nat.not_lt.1 hr') hr))

/-- A node gets a kind of the class. -/
theorem EveryBut.modify {r : NodeId} {rs : List NodeId} (h : g.EveryBut K (r :: rs))
    {f : Node → Node} (hf : r < g.size → K (f (g.node r)).kind) : (g.modify r f).EveryBut K rs := by
  intro s hs
  rw [size_modify] at hs
  rw [kind_modify _ _ _ _ hs]
  split
  · next hrs =>
    subst hrs
    exact .inr (hf hs)
  · next hne =>
    refine (h s hs).imp (fun hm => ?_) id
    exact (List.mem_cons.1 hm).resolve_left fun h => hne h.symm

theorem EveryBut.skip {r : NodeId} {rs : List NodeId} (h : g.EveryBut K (r :: rs))
    (hr : K (g.kind r)) : g.EveryBut K rs := by
  intro s hs
  rcases h s hs with hm | hk
  · rcases List.mem_cons.1 hm with rfl | hm
    · exact .inr hr
    · exact .inl hm
  · exact .inr hk

/-- A pass that brings one node after the other into a class brings all of them there. -/
theorem every_of_foldl {step : Graph → NodeId → Graph}
    (hstep : ∀ g r rs, g.EveryBut K (r :: rs) → (step g r).EveryBut K rs)
    (rs : List NodeId) (h : g.EveryBut K rs) : (rs.foldl step g).Every K := by
  induction rs generalizing g with
  | nil => exact fun r hr => (h r hr).resolve_left List.not_mem_nil
  | cons r rs ih => exact ih (hstep g r rs h)

theorem everyBut_unionOf {rs : List NodeId} (hnothing : K .nothing) (hunion : ∀ ms, K (.union ms))
    (h : g.EveryBut K rs) (ms : SortedSet NodeId) : (g.unionOf ms).2.EveryBut K rs :=
  unionOf_cases (P := fun _ g' => g'.EveryBut K rs) (fun _ => h.push hnothing) (fun _ _ _ => h)
    (h.push (hunion ms))

/-- **No object type is left unless those with all kinds of properties are.** -/
theorem every_replaceObjects_false (g : Graph) :
    (replaceObjects false g).Every (isObject · = false) := by
  refine every_of_foldl (fun g r rs h => ?_) _ fun r hr => ?_
  · exact replaceObject_cases (P := fun g' => g'.EveryBut _ rs) h.skip
      (fun _ _ _ hleave => by cases hleave) (fun _ _ _ => h.modify fun _ => rfl)
      (fun _ _ _ _ => h.modify fun _ => rfl)
      fun _ _ _ => (everyBut_unionOf (K := (isObject · = false)) rfl (fun _ => rfl) h _).modify
        fun _ => rfl
  · by_cases hobj : isObject (g.kind r) = true
    · exact .inl (List.mem_filter.2 ⟨List.mem_range.2 hr, hobj⟩)
    · exact .inr ((Bool.not_eq_true _).mp hobj)

end Graph

end SchemaTypes
