/-
  Merged classes and inferred maps admit what the classes they replace do.

  * `Widened`: a graph whose nodes admit what the old kinds beside it do, kept by merging a
    group of classes (`widened_mergeGroup`) and by making a map of a class
    (`widened_inferMap`);
  * `admitsAt_combineClasses`, `admitsAt_inferMaps`: neither pass loses a value;
  * `merging_keeps_values`: no pass that merges types loses a value.
-/
import SchemaTypes.Graph.Classes
import SchemaTypes.Proofs.Flattening

namespace SchemaTypes.Graph

variable {ρ : Reading} {g₀ g h : Graph}

/-! ## Widened nodes -/

/-- The kind of `s` admits what `r` does with the old kinds. -/
def Covers (ρ : Reading) (g h : Graph) (r s : NodeId) : Prop :=
  ∀ v, h.Admits ρ r v → (g.kind s).Admits ρ (h.Admits ρ) v

theorem Covers.extend (hg₀ : g₀.WellFormed) (H : Beside g₀ g h) {g₁ : Graph} (h₁ : g.Grows g₁)
    {r s : NodeId} (hr : r < h.size) (hs : s < h.size) (hrs : Covers ρ g h r s) :
    Covers ρ g₁ (h.extendedBy g₁) r s := fun v hv => by
  rw [h₁.kind_eq s (H.size_eq ▸ hs)]
  refine (hrs v ((H.admits_extendedBy hg₀ h₁ hr).1 hv)).mono fun c hc w hw => ?_
  exact (H.admits_extendedBy hg₀ h₁ (H.lt_of_mem_children hc)).2 hw

/-- A graph beside old kinds: nodes keep their kinds, or are ground and admit what the old kinds
    do. -/
structure Widened (ρ : Reading) (g₀ g h : Graph) : Prop extends Beside g₀ g h where
  kept : ∀ r, g.kind r = h.kind r ∨ (g.kind r).isGround = true
  covers : ∀ r, Covers ρ g h r r

namespace Widened

theorem refl (hg : g.WellFormed) : Widened ρ g g g where
  toBeside := .refl hg
  kept _ := .inl rfl
  covers _ _ := admits_iff.1

theorem extend (hg₀ : g₀.WellFormed) (H : Widened ρ g₀ g h) {g₁ : Graph} (h₁ : g.Grows g₁) :
    Widened ρ g₀ g₁ (h.extendedBy g₁) := by
  refine ⟨H.toBeside.extend h₁, fun r => ?_, fun r => ?_⟩ <;> by_cases hr : r < h.size
  · rw [h₁.kind_eq r (H.size_eq ▸ hr), (grows_extendedBy H.size_eq h₁).kind_eq r hr]
    exact H.kept r
  · exact .inl (by rw [kind_extendedBy, if_neg hr])
  · exact (H.covers r).extend hg₀ H.toBeside h₁ hr hr
  · intro v hv
    have hk : g₁.kind r = (h.extendedBy g₁).kind r := by rw [kind_extendedBy, if_neg hr]
    rwa [hk, ← admits_iff]

/-- What changes where a node gets another kind. -/
theorem covers_modify {r : NodeId} {k : Kind} {f : Node → Node} (hf : ∀ n, (f n).kind = k)
    (hadm : ∀ v, (g.kind r).Admits ρ (h.Admits ρ) v → k.Admits ρ (h.Admits ρ) v) {s t : NodeId}
    (hst : Covers ρ g h s t) : Covers ρ (g.modify r f) h s t := fun v hv => by
  rcases kind_modify_cases g r t hf with ht | ⟨rfl, ht⟩
  · rw [ht]
    exact hst v hv
  · rw [ht]
    exact hadm v (hst v hv)

/-- A node gets a ground kind that admits what it does. -/
theorem modify (H : Widened ρ g₀ g h) {r : NodeId} {k : Kind} {f : Node → Node}
    (hf : ∀ n, (f n).kind = k) (hk : k.isGround = true) (hlt : ∀ c ∈ k.children, c < h.size)
    (hadm : ∀ v, (g.kind r).Admits ρ (h.Admits ρ) v → k.Admits ρ (h.Admits ρ) v) :
    Widened ρ g₀ (g.modify r f) h := by
  refine ⟨H.toBeside.modify fun n => by rw [hf]; exact hlt, fun s => ?_,
    fun s => covers_modify hf hadm (H.covers s)⟩
  rcases kind_modify_cases g r s hf with hs | ⟨rfl, hs⟩
  · rw [hs]
    exact H.kept s
  · rw [hs]
    exact .inr hk

/-- **Redirected references reach what admits the old values**, if whatever is redirected goes
    to nodes that stay. -/
theorem admits_forward (H : Widened ρ g₀ g h) {moved : Redirection}
    (hmoved : ∀ r m, moved.get? r = some m →
      moved.get? m = none ∧ (g.kind m).isGround = true ∧ Covers ρ g h r m) {r : NodeId} {v : Json}
    (hv : h.Admits ρ r v) : (g.forward moved).Admits ρ (moved.follow r) v := by
  refine Admits.transfer (fun r v hv => ?_) hv
  have hkind : ∀ m, (g.forward moved).kind m = (g.kind m).mapChildren moved.follow :=
    fun m => by rw [forward, kind_renameReferences]
  cases hm : moved.get? r with
  | some m =>
    obtain ⟨hnone, hground, hcov⟩ := hmoved r m hm
    exact .inr (.inr ⟨g.kind m, m, hground, hcov v hv, hkind m,
      .inl (follow_of_some hm hnone).symm⟩)
  | none =>
    rcases H.kept r with hk | hk
    · exact .inl (by rw [follow_of_none hm, hkind, hk])
    · exact .inr (.inr ⟨g.kind r, r, hk, H.covers r v hv, hkind r, .inl (follow_of_none hm).symm⟩)

theorem admits_of (H : Widened ρ g₀ g h) {r : NodeId} {v : Json} (hv : h.Admits ρ r v) :
    g.Admits ρ r v := by
  refine Admits.transfer (f := id) (fun r v hv => ?_) hv
  rcases H.kept r with hk | hk
  · exact .inl (by rw [Kind.mapChildren_id, id_eq, hk])
  · exact .inr (.inr ⟨g.kind r, r, hk, H.covers r v hv, (Kind.mapChildren_id _).symm, .inl rfl⟩)

end Widened

/-! ## Groups of classes -/

/-- The classes of a group. -/
def ClassGroup.classes (group : ClassGroup) : List NodeId := group.1 :: group.2

theorem perm_addToGroups (same : Bool) (g : Graph) (c : NodeId) (groups : List ClassGroup) :
    ((g.addToGroups same c groups).flatMap ClassGroup.classes).Perm
      (c :: groups.flatMap ClassGroup.classes) := by
  induction groups with
  | nil => simp [addToGroups, ClassGroup.classes]
  | cons group rest ih =>
    unfold addToGroups
    split
    · have hperm : (group.2 ++ [c] ++ rest.flatMap ClassGroup.classes).Perm
          (c :: (group.2 ++ rest.flatMap ClassGroup.classes)) := by
        rw [List.append_assoc]
        exact List.perm_middle
      simp only [List.flatMap_cons, ClassGroup.classes, List.cons_append]
      exact (hperm.cons _).trans (.swap _ _ _)
    · rw [List.flatMap_cons, List.flatMap_cons]
      exact (ih.append_left _).trans List.perm_middle

/-- Each class that is not fixed is in one group, once. -/
theorem perm_classGroups (same : Bool) (g : Graph) :
    ((g.classGroups same).flatMap ClassGroup.classes).Perm
      (g.ids.filter fun r => !(g.node r).fixed && (g.classProperties? r).isSome) := by
  have key : ∀ (cs : List NodeId) (groups : List ClassGroup),
      ((cs.foldl (fun groups c => g.addToGroups same c groups) groups).flatMap
        ClassGroup.classes).Perm (cs.reverse ++ groups.flatMap ClassGroup.classes) := by
    intro cs
    induction cs with
    | nil => exact fun groups => .refl _
    | cons c cs ih =>
      intro groups
      rw [List.foldl_cons, List.reverse_cons, List.append_assoc]
      exact (ih _).trans ((perm_addToGroups same g c groups).append_left _)
  exact (key _ []).trans (by simp [ids, List.reverse_perm])

theorem nodup_classGroups (same : Bool) (g : Graph) :
    ((g.classGroups same).flatMap ClassGroup.classes).Nodup :=
  (perm_classGroups same g).nodup_iff.2 (List.nodup_range.filter _)

/-- The first class of a group is no further class of any group. -/
theorem not_mem_rest_of_nodup {groups : List ClassGroup}
    (hn : (groups.flatMap ClassGroup.classes).Nodup) {a b : ClassGroup} (ha : a ∈ groups)
    (hb : b ∈ groups) : a.1 ∉ b.2 := by
  induction groups with
  | nil => cases ha
  | cons group rest ih =>
    rw [List.flatMap_cons, List.nodup_append] at hn
    obtain ⟨hgroup, hrest, hdisj⟩ := hn
    have hmem : ∀ {c : ClassGroup} {r}, c ∈ rest → r ∈ c.classes →
        r ∈ rest.flatMap ClassGroup.classes := fun hc hr => List.mem_flatMap.2 ⟨_, hc, hr⟩
    rcases List.mem_cons.1 ha with rfl | har <;> rcases List.mem_cons.1 hb with rfl | hbr
    · exact (List.nodup_cons.1 hgroup).1
    · exact fun h => hdisj a.1 (by simp [ClassGroup.classes]) a.1
        (hmem hbr (List.mem_cons_of_mem b.1 h)) rfl
    · exact fun h => hdisj a.1 (List.mem_cons_of_mem b.1 h) a.1
        (hmem har (by simp [ClassGroup.classes])) rfl
    · exact ih hrest har hbr

/-- The groups of several similar classes. -/
def similarGroups (same : Bool) (g : Graph) : List ClassGroup :=
  (g.classGroups same).filter fun group => !group.2.isEmpty

/-- References to the further classes of a group go to the first. -/
def classRedirection (same : Bool) (g : Graph) : Redirection :=
  .ofList ((g.similarGroups same).flatMap fun group => group.2.map (·, group.1))

theorem combineClasses_eq (same : Bool) (g : Graph) : combineClasses same g =
    ((g.similarGroups same).foldl mergeGroup g).forward (g.classRedirection same) := rfl

theorem mem_classGroups_of_similarGroups {same : Bool} {group : ClassGroup}
    (h : group ∈ g.similarGroups same) : group ∈ g.classGroups same := (List.mem_filter.1 h).1

theorem exists_group_of_get? {same : Bool} {r m : NodeId}
    (h : (g.classRedirection same).get? r = some m) :
    ∃ group ∈ g.similarGroups same, r ∈ group.2 ∧ m = group.1 := by
  obtain ⟨group, hgroup, hr⟩ := List.mem_flatMap.1 (SortedMap.mem_of_get?_ofList h)
  obtain ⟨c, hc, he⟩ := List.mem_map.1 hr
  cases he
  exact ⟨group, hgroup, hc, rfl⟩

/-- The first class of a group is not redirected. -/
theorem get?_classRedirection_of_get? {same : Bool} {r m : NodeId}
    (h : (g.classRedirection same).get? r = some m) :
    (g.classRedirection same).get? m = none := by
  obtain ⟨group, hgroup, -, rfl⟩ := exists_group_of_get? h
  refine Option.eq_none_iff_forall_ne_some.2 fun m' hm' => ?_
  obtain ⟨other, hother, hmem, -⟩ := exists_group_of_get? hm'
  exact not_mem_rest_of_nodup (nodup_classGroups same g)
    (mem_classGroups_of_similarGroups hgroup) (mem_classGroups_of_similarGroups hother) hmem

/-- Classes are being merged: those of the groups so far are covered by the first of their
    group. -/
structure Merging (ρ : Reading) (g₀ : Graph) (groups : List ClassGroup) (g h : Graph) : Prop
    extends Widened ρ g₀ g h where
  isObjectLike : ∀ r, (g₀.kind r).isObjectLike = true → (g.kind r).isObjectLike = true
  merged : ∀ group ∈ groups, ∀ r ∈ group.classes, r < g₀.size ∧ Covers ρ g h r group.1

/-- **Merging a group widens its first class.** -/
theorem merging_mergeGroup (hρ : ρ.openClasses = false) (hg₀ : g₀.WellFormed)
    {groups : List ClassGroup} (H : Merging ρ g₀ groups g h) {group : ClassGroup}
    (hgroup : ∀ r ∈ group.classes, (g₀.kind r).isObjectLike = true) :
    ∃ h', Merging ρ g₀ (group :: groups) (g.mergeGroup group) h' := by
  unfold mergeGroup
  have U := unified_unifyObjects H.wellFormed group.classes
  change ∃ h', Merging ρ g₀ (group :: groups)
    (((g.unifyObjects group.classes).2).modify group.1 fun _ => (g.unifyObjects group.classes).1) h'
  generalize g.unifyObjects group.classes = p at U ⊢
  obtain ⟨n, g₁⟩ := p
  dsimp only at U ⊢
  have H₁ := H.extend hg₀ U.grows
  have hsize : ∀ r ∈ group.classes, r < h.size := fun r hr =>
    Nat.lt_of_lt_of_le (lt_size_of_isObjectLike (hgroup r hr)) H.grows.size_le
  have hkind : ∀ r ∈ group.classes, g₁.kind r = g.kind r := fun r hr =>
    U.grows.kind_eq r (H.size_eq ▸ hsize r hr)
  have hfirst : group.1 ∈ group.classes := List.mem_cons_self
  -- the unified type admits what the classes of the group are by now
  have hadm : ∀ r ∈ group.classes, ∀ v,
      (g₁.kind r).Admits ρ ((h.extendedBy g₁).Admits ρ) v →
        n.kind.Admits ρ ((h.extendedBy g₁).Admits ρ) v := fun r hr v hv => by
    rw [hkind r hr] at hv
    exact U.admits ρ _ hρ (agrees_extendedBy H.size_eq) r hr
      (H.isObjectLike r (hgroup r hr)) v hv
  have hlt : ∀ c ∈ n.kind.children, c < (h.extendedBy g₁).size := by
    rw [H₁.size_eq]
    exact U.lt_size
  have hground : n.kind.isGround = true := Kind.isGround_of_isObjectLike U.isObjectLike
  have hcov : ∀ {s t}, Covers ρ g₁ (h.extendedBy g₁) s t → Covers ρ _ (h.extendedBy g₁) s t :=
    Widened.covers_modify (f := fun _ => n) (fun _ => rfl) (hadm group.1 hfirst)
  refine ⟨h.extendedBy g₁, H₁.modify (fun _ => rfl) hground hlt (hadm group.1 hfirst),
    fun r hr => ?_, fun other ho r hr => ?_⟩
  · rcases kind_modify_cases g₁ group.1 r (f := fun _ => n) fun _ => rfl with hs | ⟨rfl, hs⟩
    · rw [hs, U.grows.kind_eq r]
      · exact H.isObjectLike r hr
      · rw [← H.size_eq]
        exact Nat.lt_of_lt_of_le (lt_size_of_isObjectLike hr) H.grows.size_le
    · rw [hs]
      exact U.isObjectLike
  · rcases List.mem_cons.1 ho with rfl | ho
    · refine ⟨lt_size_of_isObjectLike (hgroup r hr), fun v hv => ?_⟩
      have hn : (g₁.modify other.1 fun _ => n).kind other.1 = n.kind := by
        rw [kind_modify _ _ _ _ (Nat.lt_of_lt_of_le (H.size_eq ▸ hsize other.1 hfirst)
          U.grows.size_le), if_pos rfl]
      rw [hn]
      exact hadm r hr v (H₁.covers r v hv)
    · obtain ⟨hr, hrs⟩ := H.merged other ho r hr
      have hother := (H.merged other ho other.1 List.mem_cons_self).1
      exact ⟨hr, hcov (hrs.extend hg₀ H.toBeside U.grows
        (Nat.lt_of_lt_of_le hr H.grows.size_le) (Nat.lt_of_lt_of_le hother H.grows.size_le))⟩

theorem merging_foldl (hρ : ρ.openClasses = false) (hg₀ : g₀.WellFormed) (todo : List ClassGroup)
    (htodo : ∀ group ∈ todo, ∀ r ∈ group.classes, (g₀.kind r).isObjectLike = true)
    {groups : List ClassGroup} (H : Merging ρ g₀ groups g h) :
    ∃ h', Merging ρ g₀ (todo.reverse ++ groups) (todo.foldl mergeGroup g) h' := by
  induction todo generalizing groups g h with
  | nil => exact ⟨h, H⟩
  | cons group todo ih =>
    obtain ⟨h₁, H₁⟩ := merging_mergeGroup hρ hg₀ H (htodo group List.mem_cons_self)
    rw [List.reverse_cons, List.append_assoc, List.foldl_cons]
    exact ih (fun other ho => htodo other (List.mem_cons_of_mem _ ho)) H₁

/-- **Merging similar classes loses no value of a top level.** -/
theorem admitsAt_combineClasses (hρ : ρ.openClasses = false) (same : Bool) (hg : g.WellFormed)
    {name : String} {v : Json} (hv : g.AdmitsAt ρ name v) :
    (combineClasses same g).AdmitsAt ρ name v := by
  rw [combineClasses_eq]
  have hobj : ∀ group ∈ g.similarGroups same, ∀ r ∈ group.classes,
      (g.kind r).isObjectLike = true := by
    intro group hgroup r hr
    have hr := (perm_classGroups same g).subset
      (List.mem_flatMap.2 ⟨group, mem_classGroups_of_similarGroups hgroup, hr⟩)
    have hr := (List.mem_filter.1 hr).2
    rw [Bool.and_eq_true] at hr
    obtain ⟨ps, hps⟩ := Option.isSome_iff_exists.1 hr.2
    rw [classProperties?_eq_some.1 hps]
    rfl
  have hstart : Merging ρ g [] g g := ⟨.refl hg, fun _ => id, fun _ h => absurd h List.not_mem_nil⟩
  obtain ⟨h, H⟩ := merging_foldl hρ hg (g.similarGroups same) hobj hstart
  rw [List.append_nil] at H
  refine admitsAt_forward hg H.topLevels_eq (fun r hr v hv => ?_) hv
  refine H.admits_forward (fun r m hm => ?_) ((H.grows.admits_iff hg hr).2 hv)
  obtain ⟨group, hgroup, hr, rfl⟩ := exists_group_of_get? hm
  refine ⟨get?_classRedirection_of_get? hm, ?_, ?_⟩
  · exact Kind.isGround_of_isObjectLike (H.isObjectLike _ (hobj group hgroup _ List.mem_cons_self))
  · exact (H.merged group (by simpa using hgroup) r (List.mem_cons_of_mem _ hr)).2

/-! ## Dictionaries -/

/-- **Making a map of a class widens it.** -/
theorem widened_inferMap (hρ : ρ.openClasses = false) (hg₀ : g₀.WellFormed)
    (H : Widened ρ g₀ g h) (r : NodeId) : ∃ h', Widened ρ g₀ (g.inferMap r).2 h' := by
  rcases inferMap_cases g r with ⟨-, heq⟩ | ⟨ps, ⟨hr, -⟩, -, heq⟩ <;> rw [heq]
  · exact ⟨h, H⟩
  have hlt : ∀ t ∈ SortedSet.ofList ps.types, t < g.size := fun t ht =>
    H.wellFormed.lt_of_mem_children (r := r) (by rw [hr]; exact SortedSet.mem_ofList.1 ht)
  have hgrows := grows_unionOf hlt
  have hadm : ∀ {h' : Graph} {t : NodeId} {v : Json},
      h'.Agrees g (g.unionOf (.ofList ps.types)).2 → t ∈ ps.types → h'.Admits ρ t v →
        h'.Admits ρ (g.unionOf (.ofList ps.types)).1 v := fun hh ht hv =>
    admits_unionOf hh (SortedSet.mem_ofList.2 ht) hv
  have hvalues := unionOf_lt hlt
  generalize g.unionOf (.ofList ps.types) = p at hgrows hadm hvalues ⊢
  obtain ⟨values, g₁⟩ := p
  dsimp only at hgrows hadm hvalues ⊢
  have H₁ := H.extend hg₀ hgrows
  refine ⟨_, H₁.modify (k := .map values) (fun _ => rfl) rfl ?_ fun v hv => ?_⟩
  · simpa [Kind.children, H₁.size_eq] using hvalues
  · rw [hgrows.kind_eq r (lt_size_of_record hr), hr] at hv
    obtain ⟨fields, rfl, hfields⟩ := hv
    refine ⟨fields, rfl, fun e he => ?_⟩
    have hv := hfields.2 e he
    split at hv
    · next p hp =>
      exact hadm (agrees_extendedBy H.size_eq) (Properties.mem_types hp) hv
    · rw [hρ] at hv
      cases hv

/-- **Making maps of classes loses no value of a top level.** -/
theorem admitsAt_inferMaps (hρ : ρ.openClasses = false) (hg : g.WellFormed) {name : String}
    {v : Json} (hv : g.AdmitsAt ρ name v) : g.inferMaps.1.AdmitsAt ρ name v := by
  have H : ∃ h, Widened ρ g g.inferMaps.1 h := by
    rw [inferMaps_fst]
    exact List.foldlRecOn (motive := fun g₁ => ∃ h, Widened ρ g g₁ h) _ _ ⟨g, .refl hg⟩
      fun _ ⟨_, H⟩ r _ => widened_inferMap hρ hg H r
  obtain ⟨h, H⟩ := H
  obtain ⟨r, hr, hv⟩ := hv
  refine ⟨r, (congrArg (·.get? name) H.topLevels_eq).trans hr, ?_⟩
  exact H.admits_of ((H.grows.admits_iff hg (hg.lt_of_topLevel hr)).2 hv)

/-! ## All passes that merge -/

/-- **No pass that merges types loses a value of a top level**: neither flattening unions, nor
    merging similar classes, nor making maps of classes. -/
theorem merging_keeps_values (formats : Format → String → Prop) (hg : g.WellFormed)
    (conflate same : Bool) {name : String} {v : Json}
    (hv : g.AdmitsAt (.closed formats) name v) :
    (flattenUnions conflate g).1.AdmitsAt (.closed formats) name v ∧
      (combineClasses same g).AdmitsAt (.closed formats) name v ∧
      g.inferMaps.1.AdmitsAt (.closed formats) name v :=
  ⟨admitsAt_flattenUnions rfl conflate hg hv, admitsAt_combineClasses rfl same hg hv,
    admitsAt_inferMaps rfl hg hv⟩

/-- Lists as cells: null, or an entry with the rest of the list. -/
def cells : Graph where
  nodes := #[.new (.union (.ofList [1, 2])), .new .null,
    .new (.record (.ofList [("0", ⟨3, false⟩), ("1", ⟨0, true⟩)])), .new .bool]
  topLevels := .ofList [("List", 0)]

/-- A list of two entries. -/
def twoCells : Json := .object [("0", .bool true), ("1", .object [("0", .bool false)])]

theorem admits_cells {formats : Format → String → Prop} {b : Bool} {fields : Json.Fields}
    (h : ∀ e ∈ fields, e.1 = "1" ∧ cells.Admits (.closed formats) 0 e.2) :
    cells.Admits (.closed formats) 0 (.object (("0", .bool b) :: fields)) := by
  have hbool : cells.Admits (.closed formats) 3 (.bool b) := admits_iff.2 ⟨b, rfl⟩
  refine admits_iff.2 ⟨2, by decide, admits_iff.2 ⟨_, rfl, fun name p hp ho => ?_, fun e he => ?_⟩⟩
  · have hmem : (name, p) ∈ [("0", ⟨3, false⟩), ("1", (⟨0, true⟩ : Property))] :=
      OrderedMap.get?_eq_some_iff.1 hp
    rcases List.mem_cons.1 hmem with he | hmem
    · cases he
      exact List.mem_cons_self
    · cases List.mem_singleton.1 hmem
      cases ho
  · rcases List.mem_cons.1 he with rfl | he
    · exact hbool
    · obtain ⟨k, w⟩ := e
      obtain ⟨rfl, hw⟩ := h _ he
      exact hw

theorem merging_keeps_twoCells :
    cells.WellFormed ∧ cells.AdmitsAt (.closed fun _ _ => False) "List" twoCells ∧
      cells.inferMaps.1.AdmitsAt (.closed fun _ _ => False) "List" twoCells := by
  have hg : cells.WellFormed := ⟨by decide, by decide⟩
  have hv : cells.AdmitsAt (.closed fun _ _ => False) "List" twoCells :=
    ⟨0, rfl, admits_cells fun e he => by
      obtain rfl := List.mem_singleton.1 he
      exact ⟨rfl, admits_cells (by simp)⟩⟩
  exact ⟨hg, hv, (merging_keeps_values _ hg true true hv).2.2⟩

end SchemaTypes.Graph
