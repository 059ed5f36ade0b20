/-
  Unions of arrays of each other.

  Flattening replaces a union of arrays by an array, whose items are a new union, of the items of
  all.  Where these are the arrays again, nothing is won:

  * `Tangle`: a graph with a union of several arrays whose items are its members;
  * `Tied`: what flattening in turn has made of that union (`tied_step`, `tied_foldl`);
  * `exists_tangle`: so flattening leaves a graph with such a union;
  * `flattening_never_done`: no number of applications is enough.
-/
import SchemaTypes.Proofs.Convergence
import SchemaTypes.Proofs.Winding

namespace SchemaTypes

open SchemaTypes.Graph Stage

namespace Graph

open Kind

variable {g g' : Graph} {conflate : Bool} {u : NodeId} {ms : SortedSet NodeId}
  {ls : List NodeId}

/-! ## Merged arrays -/

/-- Where no member of a union is one, the leaves are the members. -/
theorem leaves_of_members (hk : g.kind u = .union ms)
    (hms : ∀ m ∈ ms, m < g.size ∧ (g.kind m).isUnion = false) : g.leaves u = ms.toList := by
  have hnext : (g.kind u).unionMembers = ms.toList := by rw [hk]; rfl
  have hu : (g.kind u).isUnion = true := by rw [hk]; rfl
  unfold leaves unionWalk
  rw [walk_of_leaves (lt_size_of_isUnion hu), hnext, List.filter_cons_of_neg (by simp [hu]),
    List.filter_eq_self.2 fun m hm => by simp [(hms m hm).2]]
  · rw [hnext, List.nodup_cons]
    refine ⟨fun hr => ?_, ms.sorted.imp Nat.ne_of_lt⟩
    rw [(hms u hr).2] at hu
    cases hu
  · intro m hm
    rw [hnext] at hm
    refine ⟨(hms m hm).1, ?_⟩
    have hmu := (hms m hm).2
    generalize g.kind m = k at hmu
    cases k <;> first | rfl | cases hmu

/-- Nothing is made for categories that no leaf has. -/
theorem mergeCategories_of_ne (cs : List Category)
    (h : ∀ c ∈ cs, ∀ l ∈ ls, (g.kind l).category? ≠ some c) : mergeCategories ls cs g = ([], g) := by
  induction cs with
  | nil => rfl
  | cons c cs ih =>
    have hnil : ls.filter (fun m => (g.kind m).category? = some c) = [] := by
      rw [List.filter_eq_nil_iff]
      intro l hl hc
      exact h c List.mem_cons_self l hl (by simpa using hc)
    simp only [mergeCategories, hnil]
    exact ih fun d hd => h d (List.mem_cons_of_mem c hd)

/-- Leaves of one category are merged into one member. -/
theorem mergeCategories_of_category {c : Category} {cs : List Category} (hg : g.WellFormed)
    (hls : ls ≠ []) (h : ∀ l ∈ ls, (g.kind l).category? = some c) (hmem : c ∈ cs)
    (hcs : cs.Nodup) :
    mergeCategories ls cs g = ([(g.mergeCategory c ls).1], (g.mergeCategory c ls).2) := by
  have hlt : ∀ l ∈ ls, l < g.size := fun l hl => lt_size_of_category (h l hl)
  induction cs with
  | nil => cases hmem
  | cons d cs ih =>
    obtain ⟨hd, hcs⟩ := List.nodup_cons.1 hcs
    by_cases hdc : d = c
    · subst hdc
      have hall : ls.filter (fun m => (g.kind m).category? = some d) = ls :=
        List.filter_eq_self.2 fun l hl => by simpa using h l hl
      have hgrows := (merged_mergeCategory hg hls hlt h).grows
      have hrest : mergeCategories ls cs (g.mergeCategory d ls).2 =
          ([], (g.mergeCategory d ls).2) := by
        refine mergeCategories_of_ne cs fun c hc l hl heq => hd ?_
        rw [hgrows.kind_eq l (hlt l hl), h l hl] at heq
        exact Option.some.inj heq ▸ hc
      obtain ⟨l, rest, rfl⟩ := List.exists_cons_of_ne_nil hls
      simp only [mergeCategories, hall, hrest]
    · have hnil : ls.filter (fun m => (g.kind m).category? = some d) = [] := by
        rw [List.filter_eq_nil_iff]
        intro l hl hc
        exact hdc (Option.some.inj ((by simpa using hc : _ = some d).symm.trans (h l hl)))
      simp only [mergeCategories, hnil]
      exact ih ((List.mem_cons.1 hmem).resolve_left (Ne.symm hdc)) hcs

theorem unionOf_of_ne {a b : NodeId} (ha : a ∈ ms) (hb : b ∈ ms) (hab : a ≠ b) :
    g.unionOf ms = (g.size, g.push (.new (.union ms))) := by
  unfold unionOf
  split
  · next hnil =>
    rw [← SortedSet.mem_toList, hnil] at ha
    cases ha
  · next only he => exact absurd (congrArg List.length he) (SortedSet.size_ne_one ha hb hab)
  · rfl

/-- Arrays are merged into an array of the union of all items. -/
theorem mergeCategory_arrays {items : SortedSet NodeId}
    (hk : ∀ l ∈ ls, g.kind l = .array (g.itemOf l))
    (hitems : ∀ i, i ∈ items ↔ ∃ l ∈ ls, g.itemOf l = i) {a b : NodeId} (ha : a ∈ items)
    (hb : b ∈ items) (hab : a ≠ b) : ∃ attributes, g.mergeCategory .array ls =
      (g.size + 1, (g.push (.new (.union items))).push (.new (.array g.size) attributes)) := by
  have htypes : itemTypes (ls.map g.kind) = items := by
    ext i
    rw [itemTypes, SortedSet.mem_ofList, List.flatMap_map, List.mem_flatMap, hitems]
    refine exists_congr fun l => and_congr_right fun hl => ?_
    rw [hk l hl]
    exact List.mem_singleton.trans eq_comm
  unfold mergeCategory
  split
  · next only =>
    obtain ⟨l, hl, rfl⟩ := (hitems a).1 ha
    obtain ⟨m, hm, rfl⟩ := (hitems b).1 hb
    rw [List.mem_singleton.1 hl, List.mem_singleton.1 hm] at hab
    exact absurd rfl hab
  · refine ⟨g.joinedAttributes ls, ?_⟩
    simp only [htypes, unionOf_of_ne ha hb hab, size_push]

/-- Leaves that are arrays, of several items, are merged into an array alone. -/
theorem unify_arrays (conflate : Bool) (hg : g.WellFormed) {items : SortedSet NodeId}
    (hk : ∀ l ∈ ls, g.kind l = .array (g.itemOf l))
    (hitems : ∀ i, i ∈ items ↔ ∃ l ∈ ls, g.itemOf l = i) {a b : NodeId} (ha : a ∈ items)
    (hb : b ∈ items) (hab : a ≠ b) : ∃ attributes, g.unify conflate ls = ([g.size + 1],
      (g.push (.new (.union items))).push (.new (.array g.size) attributes)) := by
  obtain ⟨attributes, hmerge⟩ := mergeCategory_arrays hk hitems ha hb hab
  obtain ⟨l, hl, -⟩ := (hitems a).1 ha
  have hcategory : ∀ l ∈ ls, (g.kind l).category? = some .array := fun l hl => by
    rw [hk l hl]
    rfl
  have hany : ls.find? (fun l => g.kind l = .any) = none := by
    rw [List.find?_eq_none]
    intro l hl h
    rw [hk l hl] at h
    cases of_decide_eq_true h
  have hmem : Category.array ∈ g.mergedCategories conflate ls := by
    unfold mergedCategories
    split <;> decide
  refine ⟨attributes, ?_⟩
  rw [unify, hany]
  dsimp only
  rw [mergeCategories_of_category hg (List.ne_nil_of_mem hl) hcategory hmem
    (nodup_mergedCategories ..), hmerge]

/-! ## A union of arrays of each other -/

/-- The top levels lead to the node through types that flattening leaves as they are. -/
inductive Held (conflate : Bool) (g : Graph) : NodeId → Prop
  | topLevel {name : String} {r : NodeId} (h : g.topLevel? name = some r) : Held conflate g r
  | child {r c : NodeId} (hr : Held conflate g r) (hflat : g.FlatAt conflate r)
      (hc : c ∈ (g.kind r).children) : Held conflate g c

/-- A union of several arrays, whose items are its members. -/
structure Tangle (conflate : Bool) (g : Graph) (u : NodeId) (ms : SortedSet NodeId) : Prop where
  held : Held conflate g u
  kind_eq : g.kind u = .union ms
  arrays : ∀ m ∈ ms, g.kind m = .array (g.itemOf m)
  items : ∀ i, i ∈ ms ↔ ∃ m ∈ ms, g.itemOf m = i
  several : ∃ a ∈ ms, ∃ b ∈ ms, a ≠ b

namespace Tangle

theorem isUnion (T : Tangle conflate g u ms) : (g.kind u).isUnion = true := by
  rw [T.kind_eq]
  rfl

theorem not_isUnion (T : Tangle conflate g u ms) {m : NodeId} (hm : m ∈ ms) :
    (g.kind m).isUnion = false := by
  rw [T.arrays m hm]
  rfl

theorem category_eq (T : Tangle conflate g u ms) {m : NodeId} (hm : m ∈ ms) :
    (g.kind m).category? = some .array := by
  rw [T.arrays m hm]
  rfl

/-- The members have one category, so that the union is not flat. -/
theorem not_flatAt (T : Tangle conflate g u ms) : ¬g.FlatAt conflate u := fun h => by
  obtain ⟨a, ha, b, hb, hab⟩ := T.several
  exact hab ((h ms T.kind_eq).eq_of_category a ha b hb
    ((T.category_eq ha).trans (T.category_eq hb).symm))

/-- The union may have another place, and its members other places. -/
theorem rename (T : Tangle conflate g u ms) {f : NodeId → NodeId} {u' : NodeId}
    (hheld : Held conflate g' u') (hu : g'.kind u' = .union (ms.map f))
    (hk : ∀ m ∈ ms, g'.kind (f m) = .array (f (g.itemOf m)))
    (hf : ∀ a ∈ ms, ∀ b ∈ ms, f a = f b → a = b) : Tangle conflate g' u' (ms.map f) where
  held := hheld
  kind_eq := hu
  arrays i hi := by
    obtain ⟨m, hm, rfl⟩ := SortedSet.mem_map.1 hi
    rw [itemOf_eq (hk m hm), hk m hm]
  items i := by
    rw [SortedSet.mem_map]
    constructor
    · rintro ⟨i, hi, rfl⟩
      obtain ⟨m, hm, rfl⟩ := (T.items i).1 hi
      exact ⟨f m, SortedSet.mem_map.2 ⟨m, hm, rfl⟩, itemOf_eq (hk m hm)⟩
    · rintro ⟨_, hi, rfl⟩
      obtain ⟨m, hm, rfl⟩ := SortedSet.mem_map.1 hi
      exact ⟨g.itemOf m, (T.items _).2 ⟨m, hm, rfl⟩, (itemOf_eq (hk m hm)).symm⟩
  several := by
    obtain ⟨a, ha, b, hb, hab⟩ := T.several
    exact ⟨f a, SortedSet.mem_map.2 ⟨a, ha, rfl⟩, f b, SortedSet.mem_map.2 ⟨b, hb, rfl⟩,
      fun h => hab (hf a ha b hb h)⟩

end Tangle

/-! ## One application -/

/-- The union is redirected to a new array, of a new union of the same members. -/
structure Tied (g : Graph) (u : NodeId) (ms : SortedSet NodeId) (s : Flattening) (a v : NodeId) :
    Prop where
  redirected : s.redirection.get? u = some a
  array_eq : s.graph.kind a = .array v
  union_eq : s.graph.kind v = .union ms
  not_redirected : s.redirection.get? v = none
  new : g.size ≤ a ∧ g.size ≤ v

section
variable {us : List NodeId} {s : Flattening} {P : Kind → Prop}

/-- The union is tied when it has its turn. -/
theorem tied_step (H : Settling conflate P g (u :: us) s) (T : Tangle conflate g u ms) :
    ∃ a v, Tied g u ms (s.step conflate u) a v := by
  have hult : u < g.size := lt_size_of_isUnion T.isUnion
  have hku : s.graph.kind u = .union ms :=
    (H.kept u hult (.inr (.inr List.mem_cons_self))).1.trans T.kind_eq
  have hkm : ∀ m ∈ ms, s.graph.kind m = g.kind m := fun m hm =>
    (H.kept m (lt_size_of_array (T.arrays m hm)) (.inl (T.not_isUnion hm))).1
  have hitem : ∀ m ∈ ms, s.graph.itemOf m = g.itemOf m := fun m hm =>
    itemOf_eq ((hkm m hm).trans (T.arrays m hm))
  have harrays : ∀ m ∈ ms, s.graph.kind m = .array (s.graph.itemOf m) := fun m hm => by
    rw [hitem m hm, hkm m hm, T.arrays m hm]
  have hitems : ∀ i, i ∈ ms ↔ ∃ m ∈ ms, s.graph.itemOf m = i := fun i => by
    rw [T.items]
    exact exists_congr fun m => and_congr_right fun hm => by rw [hitem m hm]
  obtain ⟨a, ha, b, hb, hab⟩ := T.several
  have hleaves : s.graph.leaves u = ms.toList := leaves_of_members hku fun m hm =>
    ⟨lt_size_of_array (harrays m hm), by rw [harrays m hm]; rfl⟩
  obtain ⟨attributes, hunify⟩ :=
    unify_arrays conflate H.edited.wellFormed harrays hitems ha hb hab
  have hinter : (ms.toList.any fun m => (s.graph.kind m).isIntersection) = false := by
    rw [List.any_eq_false]
    intro m hm hi
    rw [harrays m hm] at hi
    cases hi
  have hflat : s.graph.isFlat conflate u = false := by
    rw [← Bool.not_eq_true, isFlat_iff]
    intro h
    refine hab ((h ms hku).eq_of_category a ha b hb ?_)
    rw [hkm a ha, hkm b hb, T.category_eq ha, T.category_eq hb]
  refine ⟨s.graph.size + 1, s.graph.size, ?_⟩
  simp only [Flattening.step, hleaves, hinter, hflat, hunify, Bool.false_eq_true, if_false]
  refine ⟨?_, ?_, ?_, ?_, ?_⟩
  · rw [SortedMap.get?_insert, if_pos rfl]
  · rw [kind_addAttributes, kind_push, if_pos (by rw [size_push])]
    rfl
  · rw [kind_addAttributes, kind_push, if_neg (by rw [size_push]; exact Nat.ne_of_lt (Nat.lt_succ_self _)),
      kind_push, if_pos rfl]
    rfl
  · rw [SortedMap.get?_insert, if_neg]
    · refine Option.eq_none_iff_forall_ne_some.2 fun m hm => ?_
      exact absurd (lt_size_of_isUnion (H.redirected _ m hm).1) (Nat.lt_irrefl _)
    · rintro rfl
      exact absurd hult (Nat.not_lt.2 H.edited.size_le)
  · exact ⟨Nat.le_succ_of_le H.edited.size_le, H.edited.size_le⟩

/-- The turns of other unions leave nodes as they are. -/
theorem step_frame (hg : s.graph.WellFormed) {w r : NodeId} (hr : r < s.graph.size) (hne : w ≠ r) :
    (s.step conflate w).graph.kind r = s.graph.kind r ∧
      (s.step conflate w).redirection.get? r = s.redirection.get? r := by
  have hleaves : ∀ l ∈ s.graph.leaves w, l < s.graph.size := fun l hl =>
    lt_of_mem_walk (List.mem_filter.1 hl).1
  have hgrows := (merged_unify hg conflate hleaves).grows
  refine Flattening.step_cases (P := fun s' => s'.graph.kind r = s.graph.kind r ∧
    s'.redirection.get? r = s.redirection.get? r) (fun _ _ _ => ⟨rfl, rfl⟩) (fun _ => ⟨rfl, rfl⟩)
    fun _ _ ms g₁ heq a _ => ?_
  rw [heq] at hgrows
  have hlt := Nat.lt_of_lt_of_le hr hgrows.size_le
  have hkind := hgrows.kind_eq r hr
  refine ⟨fun _ => ⟨?_, rfl⟩, fun m _ => ⟨?_, ?_⟩, fun _ => ⟨?_, rfl⟩⟩
  · rw [kind_modify _ _ _ _ hlt, if_neg hne, hkind]
  · rw [kind_addAttributes, hkind]
  · rw [SortedMap.get?_insert, if_neg (Ne.symm hne)]
  · rw [kind_modify _ _ _ _ hlt, if_neg hne, hkind]

theorem Tied.step {a v : NodeId} (H : Settling conflate P g us s) (h : Tied g u ms s a v)
    {w : NodeId} (hw : w < g.size) (hne : w ≠ u) (hu : u < g.size) :
    Tied g u ms (s.step conflate w) a v := by
  have hold : ∀ r, g.size ≤ r → w ≠ r := fun r hr => by
    rintro rfl
    exact absurd hw (Nat.not_lt.2 hr)
  have hframe : ∀ r < s.graph.size, w ≠ r →
      (s.step conflate w).graph.kind r = s.graph.kind r ∧
        (s.step conflate w).redirection.get? r = s.redirection.get? r :=
    fun _ hr hne => step_frame H.edited.wellFormed hr hne
  have ha := hframe a (lt_size_of_array h.array_eq) (hold a h.new.1)
  have hv := hframe v (lt_size_of_isUnion (by rw [h.union_eq]; rfl)) (hold v h.new.2)
  exact {
    redirected := (hframe u (Nat.lt_of_lt_of_le hu H.edited.size_le) hne).2.trans h.redirected
    array_eq := ha.1.trans h.array_eq
    union_eq := hv.1.trans h.union_eq
    not_redirected := hv.2.trans h.not_redirected
    new := h.new }

/-- The union is tied when all unions had their turn. -/
theorem tied_foldl (T : Tangle conflate g u ms) (us : List NodeId) (hnodup : us.Nodup)
    (hus : ∀ w ∈ us, (g.kind w).isUnion = true) (H : Settling conflate (fun _ => True) g us s)
    (hu : u ∈ us ∨ ∃ a v, Tied g u ms s a v) :
    ∃ a v, Tied g u ms (us.foldl (Flattening.step conflate) s) a v := by
  induction us generalizing s with
  | nil => exact hu.resolve_left List.not_mem_nil
  | cons w us ih =>
    obtain ⟨hw, hnodup⟩ := List.nodup_cons.1 hnodup
    have hwu := hus w List.mem_cons_self
    refine ih hnodup (fun x hx => hus x (List.mem_cons_of_mem w hx))
      (settling_step H hwu hw (H.added_unify w)) ?_
    by_cases hne : w = u
    · subst hne
      exact .inr (tied_step H T)
    · refine hu.imp (fun hu => (List.mem_cons.1 hu).resolve_left (Ne.symm hne)) ?_
      rintro ⟨a, v, h⟩
      exact ⟨a, v, h.step H (lt_size_of_isUnion hwu) hne (lt_size_of_isUnion T.isUnion)⟩

end

theorem tied_settle (hg : g.WellFormed) (hinter : g.Every (·.isIntersection = false))
    (T : Tangle conflate g u ms) : ∃ a v, Tied g u ms (g.settle conflate) a v := by
  refine tied_foldl T _ (List.nodup_range.filter _) (fun _ hw => (List.mem_filter.1 hw).2)
    (settling_start hg hinter) (.inl ?_)
  exact List.mem_filter.2 ⟨List.mem_range.2 (lt_size_of_isUnion T.isUnion), T.isUnion⟩

/-! ## What comes of it -/

section
variable {s : Flattening}

theorem kind_settled {r : NodeId} (hr : r ∈ (s.graph.forward s.redirection).reachable) :
    (s.graph.forward s.redirection).collect.kind ((s.graph.forward s.redirection).place r) =
      (s.graph.kind r).mapChildren
        ((s.graph.forward s.redirection).place ∘ s.redirection.follow) := by
  rw [kind_collect hr, forward, kind_renameReferences, mapChildren_mapChildren]

theorem follow_mem_children {r c : NodeId} (hc : c ∈ (s.graph.kind r).children) :
    s.redirection.follow c ∈ ((s.graph.forward s.redirection).kind r).children := by
  rw [forward, kind_renameReferences, mem_children_mapChildren]
  exact ⟨c, hc, rfl⟩

variable {P : Kind → Prop} (H : Settling conflate P g [] s)

include H

/-- **The top levels still lead to what they led to through types that stay.** -/
theorem held_settled {r : NodeId} (hr : Held conflate g r) :
    s.redirection.follow r ∈ (s.graph.forward s.redirection).reachable ∧
      Held conflate (s.graph.forward s.redirection).collect
        ((s.graph.forward s.redirection).place (s.redirection.follow r)) := by
  induction hr with
  | @topLevel name r hr =>
    have htop : (s.graph.forward s.redirection).topLevel? name =
        some (s.redirection.follow r) := by
      rw [topLevel?, forward, renameReferences, OrderedMap.get?_mapValues, H.edited.topLevels_eq]
      exact congrArg _ hr
    exact ⟨mem_reachable_of_topLevel H.wellFormed_forward htop,
      .topLevel ((topLevel?_collect _ name).trans (congrArg _ htop))⟩
  | @child r c _ hflat hc ih =>
    have hlt : r < g.size := lt_size_of_kind_ne fun hn => by
      rw [hn] at hc
      cases hc
    obtain ⟨hkept, hnone⟩ := H.kept r hlt (.inr (.inl hflat))
    obtain ⟨hreach, hheld⟩ := ih
    rw [follow_of_none hnone] at hreach hheld
    rw [← hkept] at hc
    refine ⟨mem_reachable_of_mem_children H.wellFormed_forward hreach (follow_mem_children hc),
      .child hheld (H.flatAt_collect hlt hreach) ?_⟩
    rw [kind_settled hreach, mem_children_mapChildren]
    exact ⟨c, hc, rfl⟩

/-- A tied union leads to another of its form. -/
theorem Tied.exists_tangle (T : Tangle conflate g u ms) {a v : NodeId}
    (h : Tied g u ms s a v) :
    ∃ u' ms', Tangle conflate (s.graph.forward s.redirection).collect u' ms' := by
  have ha : (s.graph.kind a).isUnion = false := by rw [h.array_eq]; rfl
  obtain ⟨hareach, haheld⟩ := held_settled H T.held
  rw [follow_of_some h.redirected (H.get?_of_not_isUnion ha)] at hareach haheld
  have hfollow : s.redirection.follow v = v := follow_of_none h.not_redirected
  have hkeep : ∀ m ∈ ms, s.redirection.follow m = m ∧ s.graph.kind m = .array (g.itemOf m) :=
    fun m hm => by
      obtain ⟨hkept, hnone⟩ :=
        H.kept m (lt_size_of_array (T.arrays m hm)) (.inl (T.not_isUnion hm))
      exact ⟨follow_of_none hnone, hkept.trans (T.arrays m hm)⟩
  -- the array leads to the union, and that to its members
  have hvreach : v ∈ (s.graph.forward s.redirection).reachable := by
    refine mem_reachable_of_mem_children H.wellFormed_forward hareach ?_
    rw [← hfollow]
    refine follow_mem_children ?_
    rw [h.array_eq]
    exact List.mem_singleton_self v
  have hmreach : ∀ m ∈ ms, m ∈ (s.graph.forward s.redirection).reachable := fun m hm => by
    refine mem_reachable_of_mem_children H.wellFormed_forward hvreach ?_
    rw [← (hkeep m hm).1]
    refine follow_mem_children ?_
    rw [h.union_eq]
    exact hm
  refine ⟨(s.graph.forward s.redirection).place v, _, T.rename (.child haheld
    (flatAt_of_not_isUnion ?_) ?_) ((kind_settled hvreach).trans (congrArg _ h.union_eq))
      (fun m hm => ?_) fun x hx y hy hxy => ?_⟩
  · rw [kind_settled hareach, h.array_eq]
    rfl
  · rw [kind_settled hareach, h.array_eq, mem_children_mapChildren]
    exact ⟨v, List.mem_singleton_self v, by rw [Function.comp_apply, hfollow]⟩
  · rw [Function.comp_apply, (hkeep m hm).1, kind_settled (hmreach m hm), (hkeep m hm).2]
    rfl
  · rw [Function.comp_apply, Function.comp_apply, (hkeep x hx).1, (hkeep y hy).1] at hxy
    exact place_injective (hmreach x hx) (hmreach y hy) hxy

end

/-- **Flattening leaves a union of arrays of each other**, if there was one. -/
theorem exists_tangle (hg : g.WellFormed) (hinter : g.Every (·.isIntersection = false))
    (T : Tangle conflate g u ms) :
    ∃ u' ms', Tangle conflate (flattenUnions conflate g).1 u' ms' := by
  obtain ⟨a, v, h⟩ := tied_settle hg hinter T
  exact h.exists_tangle (settling_true hg hinter) T

/-! ## Any number of applications -/

variable {stage : String}

/-- Where there is such a union, flattening is not done. -/
theorem flattenUnions_snd_of_tangle (T : Tangle conflate (flattenUnions conflate g).1 u ms) :
    (flattenUnions conflate g).2 = false := by
  rw [← Bool.not_eq_true]
  intro hdone
  rw [flattenUnions_snd, Bool.and_eq_true, List.all_eq_true] at hdone
  refine T.not_flatAt (isFlat_iff.1 (hdone.2 u ?_))
  exact List.mem_range.2 (lt_size_of_isUnion T.isUnion)

/-- The graph has a union of arrays of each other, and no intersection is in the way. -/
structure Tangled (conflate : Bool) (g : Graph) : Prop where
  wellFormed : g.WellFormed
  every : g.Every (·.isIntersection = false)
  tangle : ∃ u ms, Tangle conflate g u ms

/-- An application leaves the graph tangled, and is not done. -/
theorem Tangled.step (h : g.Tangled conflate) :
    (flattenUnions conflate g).1.collect.Tangled conflate ∧
      (flattenUnions conflate g).2 = false := by
  obtain ⟨hg, hinter, u, ms, T⟩ := h
  obtain ⟨u', ms', T'⟩ := exists_tangle hg hinter T
  rw [collect_flattenUnions hg]
  exact ⟨⟨(kept_flattenUnions conflate hg).wellFormed,
    every_flattenUnions mergeable_isIntersection conflate hinter, u', ms', T'⟩,
    flattenUnions_snd_of_tangle T'⟩

/-- No number of applications makes the graph flat. -/
theorem ensures_of_tangled (h : g.Tangled conflate) (n i : Nat) :
    Ensures (repeatFrom stage (fun _ => flattenUnions conflate) n i false) g fun _ _ => False := by
  refine (ensures_repeatFrom (Q := fun _ => False) (I := Tangled conflate) (fun _ _ h => h.step.1)
    (fun _ _ h _ hdone => ?_) n i false h).mono fun _ _ h => h.2
  cases h.step.2.symm.trans hdone

/-- Since no application is done, all changed something: it is the limit that is reached. -/
theorem failsOnly_of_tangled (h : g.Tangled conflate) (n i : Nat) :
    FailsOnly (repeatFrom stage (fun _ => flattenUnions conflate) n i false) g
      (· = .iterationLimit stage iterationLimit) := by
  refine failsOnly_repeatFrom (P := (· = .iterationLimit stage iterationLimit))
    (I := Tangled conflate) (fun _ _ h => h.step.1) rfl (fun _ g h hsame hnot => ?_)
    (fun _ g h hdone _ => ?_) n i false h Bool.noConfusion
  · cases hnot.symm.trans (flattenUnions_done_of_same h.wellFormed h.every hsame)
  · cases h.step.2.symm.trans hdone

/-- **Flattening does not converge** where the top levels lead to a union of arrays of each other
    through types that it leaves as they are: any number of applications is too few. -/
theorem flattening_never_done (hg : g.WellFormed) (hinter : g.Every (·.isIntersection = false))
    (T : Tangle conflate g u ms) (stage : String) (n : Nat) :
    ∃ g', (repeatFrom stage (fun _ => flattenUnions conflate) n 0 false).run g =
      (.error (.iterationLimit stage iterationLimit), g') :=
  have h : g.Tangled conflate := ⟨hg, hinter, u, ms, T⟩
  (failsOnly_of_tangled h n 0).exists_run_eq (ensures_of_tangled h n 0)

/-- Lists of lists without end, of two kinds. -/
def tangledLists : Graph where
  nodes := #[.new (.array 0), .new (.array 1), .new (.union (.ofList [0, 1]))]
  topLevels := .ofList [("Lists", 2)]

theorem wellFormed_tangledLists : tangledLists.WellFormed := ⟨by decide, by decide⟩

theorem every_tangledLists : tangledLists.Every (·.isIntersection = false) := by
  have hevery : ∀ r < tangledLists.size, (tangledLists.kind r).isIntersection = false := by decide
  exact hevery

theorem tangle_tangledLists : Tangle conflate tangledLists 2 (.ofList [0, 1]) where
  held := .topLevel (show tangledLists.topLevel? "Lists" = some 2 from rfl)
  kind_eq := rfl
  arrays := by decide
  items i := by
    have hitems : (SortedSet.ofList [0, 1]).map tangledLists.itemOf = .ofList [0, 1] := by decide
    rw [← SortedSet.mem_map, hitems]
  several := ⟨0, by decide, 1, by decide, by decide⟩

/-- Flattening need not converge. -/
theorem not_forall_flattened : ¬∀ (g : Graph) (conflate : Bool) (stage : String), g.WellFormed →
    g.Every (·.isIntersection = false) →
      ∃ g', (toFixedPoint stage fun _ => flattenUnions conflate).run g = (.ok ⟨⟩, g') := by
  intro h
  obtain ⟨g', hrun⟩ := h tangledLists false "" wellFormed_tangledLists every_tangledLists
  have htangled : tangledLists.Tangled false :=
    ⟨wellFormed_tangledLists, every_tangledLists, 2, _, tangle_tangledLists⟩
  exact ensures_of_tangled htangled iterationLimit 0 _ g' hrun

end Graph

end SchemaTypes
