/-
  Equal types are merged until there are none.

  An application redirects each type to the first that is its equal, and drops what nothing leads to
  any more.  Types that were different may be equal then, since their children were merged.

  * `Twins`: equal types without an identity of their own;
  * `keeper_spec`: a type is redirected to a twin that stays, if to any;
  * `mergesInto_mergeStep`: **an application merges twins alone**, and what is not merged stays alike;
  * `size_mergeStep_lt`, `mergeStep_of_done`: there are fewer types after it, or all stays as it is;
  * `merging_completes`: **so merging ends, and then no twins are left**.
-/
import Mathlib.Logic.Function.Iterate
import SchemaTypes.Proofs.Chains
import SchemaTypes.Proofs.Convergence
import SchemaTypes.Proofs.Isomorphism
import SchemaTypes.Proofs.Meaning
import SchemaTypes.Proofs.Rows

namespace SchemaTypes

namespace Graph

variable {g : Graph} {r s t : NodeId}

/-! ## Twins -/

/-- Equal types without an identity of their own. -/
structure Twins (g : Graph) (r s : NodeId) : Prop where
  noIdentity : hasIdentity (g.kind r) = false
  kind_eq : g.kind r = g.kind s
  fixed_eq : (g.node r).fixed = (g.node s).fixed
  attributes_same : (g.attributes r).same (g.attributes s) = true

namespace Twins

theorem symm (h : g.Twins r s) : g.Twins s r :=
  ⟨h.kind_eq ▸ h.noIdentity, h.kind_eq.symm, h.fixed_eq.symm,
    Attributes.same_symm h.attributes_same⟩

theorem trans (h : g.Twins r s) (h' : g.Twins s t) : g.Twins r t :=
  ⟨h.noIdentity, h.kind_eq.trans h'.kind_eq, h.fixed_eq.trans h'.fixed_eq,
    Attributes.same_trans h.attributes_same h'.attributes_same⟩

end Twins

theorem duplicates_iff_twins (hs : hasIdentity (g.kind s) = false) :
    g.duplicates r s = true ↔ g.Twins r s := by
  rw [duplicates, Bool.and_eq_true, Bool.and_eq_true, beq_iff_eq]
  constructor
  · rintro ⟨⟨hkind, hattributes⟩, hfixed⟩
    have heq := Kind.eq_of_same hs hkind
    exact ⟨heq ▸ hs, heq, hfixed, hattributes⟩
  · intro h
    exact ⟨⟨h.kind_eq ▸ Kind.same_self _, h.attributes_same⟩, h.fixed_eq⟩

/-! ## Merged types -/

/-- The types that have no identity. -/
def candidates (g : Graph) : List NodeId := g.idsWhere fun k => !hasIdentity k

/-- The types that are merged, each with the one that stays. -/
def merged (g : Graph) : List (NodeId × NodeId) := g.merges [] g.candidates

theorem mergeDuplicates_eq (g : Graph) :
    g.mergeDuplicates = (g.forward (.ofList g.merged), g.merged.isEmpty) := rfl

theorem mem_candidates : r ∈ g.candidates ↔ r < g.size ∧ hasIdentity (g.kind r) = false := by
  rw [candidates, idsWhere, List.mem_filter, ids, List.mem_range, Bool.not_eq_true']

theorem nodup_candidates (g : Graph) : g.candidates.Nodup := List.nodup_range.filter _

section

variable {kept l : List NodeId} {e e' : NodeId × NodeId}

theorem merges_cons_of_some (h : kept.find? (g.duplicates r) = some s) :
    g.merges kept (r :: l) = (r, s) :: g.merges kept l := by
  rw [merges, h]

theorem merges_cons_of_none (h : kept.find? (g.duplicates r) = none) :
    g.merges kept (r :: l) = g.merges (kept ++ [r]) l := by
  rw [merges, h]

theorem mem_of_mem_merges (he : e ∈ g.merges kept l) : e.1 ∈ l := by
  induction l generalizing kept with
  | nil => cases he
  | cons r l ih =>
    cases hfind : kept.find? (g.duplicates r) with
    | some s =>
      rw [merges_cons_of_some hfind, List.mem_cons] at he
      exact List.mem_cons.2 (he.imp (congrArg Prod.fst) ih)
    | none =>
      rw [merges_cons_of_none hfind] at he
      exact List.mem_cons_of_mem r (ih he)

/-- What stays is not merged. -/
theorem ne_of_mem_merges (hnodup : (kept ++ l).Nodup) (he : e ∈ g.merges kept l)
    (he' : e' ∈ g.merges kept l) : e.2 ≠ e'.1 := by
  induction l generalizing kept with
  | nil => cases he
  | cons r l ih =>
    have hrest := List.nodup_cons.1 (List.perm_middle.nodup_iff.1 hnodup)
    cases hfind : kept.find? (g.duplicates r) with
    | some s =>
      rw [merges_cons_of_some hfind, List.mem_cons] at he he'
      have hmem : s ∈ kept := List.mem_of_find?_eq_some hfind
      rcases he with he | he <;> rcases he' with he' | he'
      · rw [he, he']
        exact fun hsr : s = r => hrest.1 (List.mem_append_left _ (hsr ▸ hmem))
      · rw [he]
        exact (List.nodup_append.1 hrest.2).2.2 s hmem _ (mem_of_mem_merges he')
      · rw [he']
        exact fun her : e.2 = r => hrest.1 (her ▸ List.mem_append.2 (duplicates_of_mem_merges he).2)
      · exact ih hrest.2 he he'
    | none =>
      rw [merges_cons_of_none hfind] at he he'
      refine ih ?_ he he'
      rwa [List.append_assoc, List.singleton_append]

/-- Where nothing is merged, nothing equals anything before it. -/
theorem pairwise_of_merges_eq_nil (h : g.merges kept l = []) :
    (∀ s ∈ kept, ∀ r ∈ l, g.duplicates r s = false) ∧
      l.Pairwise fun s r => g.duplicates r s = false := by
  induction l generalizing kept with
  | nil => exact ⟨fun _ _ _ hr => absurd hr List.not_mem_nil, .nil⟩
  | cons r l ih =>
    cases hfind : kept.find? (g.duplicates r) with
    | some s =>
      rw [merges_cons_of_some hfind] at h
      cases h
    | none =>
      rw [merges_cons_of_none hfind] at h
      rw [List.find?_eq_none] at hfind
      obtain ⟨hkept, hl⟩ := ih h
      refine ⟨fun s hs => List.forall_mem_cons.2 ⟨Bool.eq_false_iff.2 (hfind s hs), ?_⟩, ?_⟩
      · exact hkept s (List.mem_append_left _ hs)
      · exact List.pairwise_cons.2 ⟨hkept r (List.mem_append_right _ List.mem_cons_self), hl⟩

end

/-- **No twins are left where nothing is merged.** -/
theorem not_twins_of_merged_eq_nil (h : g.merged = []) (hr : r < g.size) (hs : s < g.size)
    (hne : r ≠ s) : ¬g.Twins r s := by
  intro htwins
  have hpairwise : g.candidates.Pairwise fun r s => ¬g.Twins r s :=
    (pairwise_of_merges_eq_nil h).2.imp_of_mem fun {s r} hs hr hd htwins => by
      rw [(duplicates_iff_twins (mem_candidates.1 hs).2).2 htwins.symm] at hd
      cases hd
  have : Std.Symm fun r s => ¬g.Twins r s := ⟨fun _ _ hnot htwins => hnot htwins.symm⟩
  exact hpairwise.forall (mem_candidates.2 ⟨hr, htwins.noIdentity⟩)
    (mem_candidates.2 ⟨hs, htwins.symm.noIdentity⟩) hne htwins

/-! ## What a type becomes -/

theorem twins_of_mem_merged (h : (r, s) ∈ g.merged) : g.Twins r s := by
  obtain ⟨hd, hs⟩ := duplicates_of_mem_merges h
  have hs := hs.resolve_left List.not_mem_nil
  exact (duplicates_iff_twins (mem_candidates.1 hs).2).1 hd

/-- The type that a type is redirected to. -/
def keeper (g : Graph) (r : NodeId) : NodeId := Redirection.follow (.ofList g.merged) r

theorem not_mem_merged_of_mem (hrs : (r, s) ∈ g.merged) (t : NodeId) : (s, t) ∉ g.merged :=
  fun hst => ne_of_mem_merges (by simpa using g.nodup_candidates) hrs hst rfl

/-- The type that stays is not redirected. -/
theorem get?_merged_of_get? (h : SortedMap.get? (.ofList g.merged) r = some s) :
    SortedMap.get? (.ofList g.merged) s = none :=
  Option.eq_none_iff_forall_ne_some.2 fun t ht =>
    not_mem_merged_of_mem (SortedMap.mem_of_get?_ofList h) t (SortedMap.mem_of_get?_ofList ht)

/-- A type is redirected to a twin that stays, if to any. -/
theorem keeper_spec (g : Graph) (r : NodeId) :
    (∀ t, (g.keeper r, t) ∉ g.merged) ∧ (g.keeper r = r ∨ (r, g.keeper r) ∈ g.merged) := by
  unfold keeper
  cases hr : SortedMap.get? (.ofList g.merged) r with
  | none =>
    rw [follow_of_none hr]
    refine ⟨fun t ht => ?_, .inl rfl⟩
    have hsome := SortedMap.isSome_get?_ofList ht
    rw [hr] at hsome
    cases hsome
  | some s =>
    have hrs := SortedMap.mem_of_get?_ofList hr
    rw [follow_of_some hr (get?_merged_of_get? hr)]
    exact ⟨not_mem_merged_of_mem hrs, .inr hrs⟩

theorem kind_keeper (g : Graph) (r : NodeId) : g.kind (g.keeper r) = g.kind r := by
  rcases (g.keeper_spec r).2 with h | h
  · rw [h]
  · exact (twins_of_mem_merged h).kind_eq.symm

theorem fixed_keeper (g : Graph) (r : NodeId) :
    (g.node (g.keeper r)).fixed = (g.node r).fixed := by
  rcases (g.keeper_spec r).2 with h | h
  · rw [h]
  · exact (twins_of_mem_merged h).fixed_eq.symm

/-- Attributes of a type that stays may not equal themselves, those of twins equal each other. -/
theorem attributes_keeper (g : Graph) (r : NodeId) :
    g.attributes (g.keeper r) = g.attributes r ∨
      (g.attributes (g.keeper r)).same (g.attributes r) = true := by
  rcases (g.keeper_spec r).2 with h | h
  · exact .inl (by rw [h])
  · exact .inr (twins_of_mem_merged h).symm.attributes_same

/-- Only twins are redirected to one type. -/
theorem twins_of_keeper_eq (h : g.keeper r = g.keeper s) : r = s ∨ g.Twins r s := by
  rcases (g.keeper_spec r).2 with hr | hr <;> rcases (g.keeper_spec s).2 with hs | hs
  · exact .inl (hr.symm.trans (h.trans hs))
  · rw [← h, hr] at hs
    exact .inr (twins_of_mem_merged hs).symm
  · rw [h, hs] at hr
    exact .inr (twins_of_mem_merged hr)
  · rw [← h] at hs
    exact .inr ((twins_of_mem_merged hr).trans (twins_of_mem_merged hs).symm)

/-! ## Redirected graphs -/

theorem node_redirected (g : Graph) (r : NodeId) :
    g.mergeDuplicates.1.node r = { g.node r with kind := (g.kind r).mapChildren g.keeper } :=
  node_renameReferences ..

theorem kind_redirected (g : Graph) (r : NodeId) :
    g.mergeDuplicates.1.kind r = (g.kind r).mapChildren g.keeper :=
  kind_renameReferences ..

theorem wellFormed_redirected (hg : g.WellFormed) : g.mergeDuplicates.1.WellFormed :=
  (kept_mergeDuplicates hg).wellFormed

/-- The redirected graph leads to the types that stay, of those that the graph leads to. -/
theorem reached_redirected {i : NodeId} :
    g.mergeDuplicates.1.Reached i ↔ ∃ r, g.Reached r ∧ g.keeper r = i := by
  have htop : ∀ name, g.mergeDuplicates.1.topLevel? name = (g.topLevel? name).map g.keeper :=
    fun name => OrderedMap.get?_mapValues ..
  constructor
  · intro h
    induction h with
    | topLevel hi =>
      rw [htop] at hi
      obtain ⟨r, hr, rfl⟩ := Option.map_eq_some_iff.1 hi
      exact ⟨r, .topLevel hr, rfl⟩
    | child _ hc ih =>
      obtain ⟨r, hr, rfl⟩ := ih
      rw [kind_redirected, kind_keeper, Kind.mem_children_mapChildren] at hc
      obtain ⟨c, hc, rfl⟩ := hc
      exact ⟨c, .child hr hc, rfl⟩
  · rintro ⟨r, hr, rfl⟩
    induction hr with
    | topLevel hr => exact .topLevel (by rw [htop, hr]; rfl)
    | child _ hc ih =>
      refine .child ih ?_
      rw [kind_redirected, kind_keeper, Kind.mem_children_mapChildren]
      exact ⟨_, hc, rfl⟩

/-! ## Applications -/

/-- An application of merging, with what is cleaned up after it. -/
def mergeStep (g : Graph) : Graph := g.mergeDuplicates.1.collect

/-- What a type becomes. -/
def mergedInto (g : Graph) (r : NodeId) : NodeId := g.mergeDuplicates.1.place (g.keeper r)

theorem wellFormed_mergeStep (hg : g.WellFormed) : g.mergeStep.WellFormed :=
  (kept_collect (wellFormed_redirected hg)).wellFormed

theorem collect_mergeStep (hg : g.WellFormed) : g.mergeStep.collect = g.mergeStep :=
  collect_collect (wellFormed_redirected hg)

/-- **Where nothing is merged, nothing changes.** -/
theorem mergeStep_of_done (hg : g.WellFormed) (hcollect : g.collect = g)
    (hdone : g.mergeDuplicates.2 = true) : g.mergeStep = g := by
  have hnil : g.merged = [] := List.isEmpty_iff.1 hdone
  have hredirected : g.mergeDuplicates.1 = g := by
    rw [mergeDuplicates_eq, hnil]
    exact renameReferences_eq_self hg fun r _ => follow_of_none rfl
  rw [mergeStep, hredirected, hcollect]

/-- **Where something is merged, there are fewer types after it**: what is merged stays nowhere. -/
theorem size_mergeStep_lt (hg : g.WellFormed) (hdone : g.mergeDuplicates.2 = false) :
    g.mergeStep.size < g.size := by
  obtain ⟨⟨r, s⟩, hrs⟩ : ∃ e, e ∈ g.merged :=
    List.exists_mem_of_ne_nil _ fun hnil => by
      rw [mergeDuplicates_eq, hnil] at hdone
      cases hdone
  have hr : r ∉ g.mergeDuplicates.1.reachable := fun hr => by
    rw [mem_reachable_iff (wellFormed_redirected hg), reached_redirected] at hr
    obtain ⟨t, -, rfl⟩ := hr
    exact (g.keeper_spec t).1 s hrs
  have hnodup : (r :: g.mergeDuplicates.1.reachable).Nodup := List.nodup_cons.2 ⟨hr, nodup_walk⟩
  have hlength := Met.length_le_of_nodup (n := g.size) hnodup fun t ht => by
    rcases List.mem_cons.1 ht with rfl | ht
    · exact (mem_candidates.1 (mem_of_mem_merges hrs)).1
    · exact Nat.lt_of_lt_of_eq (lt_of_mem_walk ht) (size_renameReferences ..)
  rwa [List.length_cons, ← size_collect] at hlength

/-- Each type of a graph becomes one of another, alike but for the children, which become those of
    the other; and only twins become one type. -/
structure MergesInto (g h : Graph) (f : NodeId → NodeId) : Prop where
  lt_size : ∀ r < g.size, f r < h.size
  onto : ∀ i < h.size, ∃ r < g.size, f r = i
  kind_eq : ∀ r < g.size, h.kind (f r) = (g.kind r).mapChildren f
  fixed_eq : ∀ r < g.size, (h.node (f r)).fixed = (g.node r).fixed
  attributes_same : ∀ r < g.size, h.attributes (f r) = g.attributes r ∨
    (h.attributes (f r)).same (g.attributes r) = true
  topLevels_eq : h.topLevels = g.topLevels.mapValues f
  twins : ∀ r < g.size, ∀ s < g.size, f r = f s → r = s ∨ g.Twins r s

/-- **An application merges twins alone.** -/
theorem mergesInto_mergeStep (hg : g.WellFormed) (hcollect : g.collect = g) :
    g.MergesInto g.mergeStep g.mergedInto := by
  have hreach : ∀ r < g.size, g.keeper r ∈ g.mergeDuplicates.1.reachable := fun r hr => by
    rw [mem_reachable_iff (wellFormed_redirected hg), reached_redirected]
    have hreached : g.collect.Reached r := reached_collect hg (by rwa [hcollect])
    rw [hcollect] at hreached
    exact ⟨r, hreached, rfl⟩
  refine ⟨fun r hr => ?_, fun i hi => ?_, fun r hr => ?_, fun r hr => ?_, fun r hr => ?_, ?_,
    fun r hr s hs heq => ?_⟩
  · rw [mergeStep, size_collect]
    exact (getElem_place (hreach r hr)).1
  · obtain ⟨t, ht, rfl⟩ := exists_place_eq hi
    rw [mem_reachable_iff (wellFormed_redirected hg), reached_redirected] at ht
    obtain ⟨r, hr, rfl⟩ := ht
    exact ⟨r, hr.lt_size hg, rfl⟩
  · rw [mergeStep, mergedInto, kind_collect (hreach r hr), kind_redirected, kind_keeper,
      Kind.mapChildren_mapChildren]
    rfl
  · rw [mergeStep, mergedInto, node_collect (hreach r hr), node_redirected]
    exact fixed_keeper g r
  · rw [mergeStep, mergedInto, attributes, node_collect (hreach r hr), node_redirected]
    exact attributes_keeper g r
  · show (g.topLevels.mapValues g.keeper).mapValues g.mergeDuplicates.1.place = _
    simp only [OrderedMap.mapValues, List.map_map, Function.comp_def]
    rfl
  · exact twins_of_keeper_eq (place_injective (hreach r hr) (hreach s hs) heq)

/-! ## Repetition -/

/-- Repeated merging is done at some time, and no later than there are types. -/
theorem exists_done (hg : g.WellFormed) : ∃ k ≤ g.size,
    (∀ i < k, (mergeStep^[i] g).mergeDuplicates.2 = false) ∧
      (mergeStep^[k] g).mergeDuplicates.2 = true := by
  induction hsize : g.size using Nat.strong_induction_on generalizing g with
  | _ n ih =>
    subst hsize
    cases hdone : g.mergeDuplicates.2 with
    | true => exact ⟨0, Nat.zero_le _, fun i hi => absurd hi (Nat.not_lt_zero i), hdone⟩
    | false =>
      have hlt := size_mergeStep_lt hg hdone
      obtain ⟨k, hk, hbefore, hlast⟩ := ih _ hlt (wellFormed_mergeStep hg) rfl
      refine ⟨k + 1, Nat.lt_of_le_of_lt hk hlt, fun i hi => ?_, ?_⟩
      · cases i with
        | zero => exact hdone
        | succ i =>
          rw [Function.iterate_succ_apply]
          exact hbefore i (Nat.lt_of_succ_lt_succ hi)
      · rw [Function.iterate_succ_apply]
        exact hlast

/-- Repeated merging keeps a graph well-formed and collected. -/
theorem iterate_mergeStep (hg : g.WellFormed) (hcollect : g.collect = g) (i : Nat) :
    (mergeStep^[i] g).WellFormed ∧ (mergeStep^[i] g).collect = mergeStep^[i] g := by
  induction i with
  | zero => exact ⟨hg, hcollect⟩
  | succ i ih =>
    rw [Function.iterate_succ_apply']
    exact ⟨wellFormed_mergeStep ih.1, collect_mergeStep ih.1⟩

/-- **Merging comes to an end, and then all is merged.**  Take a well-formed graph that was
    collected, and merge equal types again and again.  Each application that is not done makes types
    fewer, one that is done leaves all as it is, and each one merges twins alone.  After at most as
    many applications as there are types, the next one is done; and then no two types are
    twins. -/
theorem merging_completes (hg : g.WellFormed) (hcollect : g.collect = g) :
    (∀ i, let h := mergeStep^[i] g
      (h.mergeDuplicates.2 = false → h.mergeStep.size < h.size) ∧
      (h.mergeDuplicates.2 = true → h.mergeStep = h) ∧ h.MergesInto h.mergeStep h.mergedInto) ∧
    ∃ k ≤ g.size, let h := mergeStep^[k] g
      (∀ i < k, (mergeStep^[i] g).mergeDuplicates.2 = false) ∧ h.mergeDuplicates.2 = true ∧
      ∀ r < h.size, ∀ s < h.size, r ≠ s → ¬h.Twins r s := by
  refine ⟨fun i => ?_, ?_⟩
  · obtain ⟨hi, hcollecti⟩ := iterate_mergeStep hg hcollect i
    exact ⟨size_mergeStep_lt hi, mergeStep_of_done hi hcollecti, mergesInto_mergeStep hi hcollecti⟩
  · obtain ⟨k, hk, hbefore, hlast⟩ := exists_done hg
    refine ⟨k, hk, hbefore, hlast, fun r hr s hs => ?_⟩
    exact not_twins_of_merged_eq_nil (List.isEmpty_iff.1 hlast) hr hs

/-- Weights on the two scales of a balance, and a label. -/
def balance : Graph where
  nodes := #[.new (.record (.ofList
      [("left", ⟨1, false⟩), ("right", ⟨3, false⟩), ("label", ⟨5, true⟩)])),
    .new (.array 2), .new (.string none), .new (.array 4), .new (.string none),
    .new (.string none) (.described "A label.")]
  topLevels := .ofList [("Balance", 0)]

/-- First the weights of both scales are merged, and then the scales.  The label stays. -/
theorem merging_completes_balance :
    balance.WellFormed ∧ balance.collect = balance ∧ balance.mergeStep.size < balance.size ∧
      balance.mergeStep.mergeStep.size < balance.mergeStep.size ∧
      balance.mergeStep.mergeStep.mergeStep = balance.mergeStep.mergeStep ∧
      balance.mergeStep.mergeStep.size = 4 := by
  have hg : balance.WellFormed := ⟨by decide, by decide⟩
  have hcollect : balance.collect = balance := by decide +kernel
  have heach := (merging_completes hg hcollect).1
  exact ⟨hg, hcollect, (heach 0).1 (by decide +kernel), (heach 1).1 (by decide +kernel),
    (heach 2).2.1 (by decide +kernel), by decide +kernel⟩

end Graph

end SchemaTypes
