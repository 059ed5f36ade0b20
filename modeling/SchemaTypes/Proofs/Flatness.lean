/-
  Flat unions stay flat.

  * `Graph.FlatMembers`, `Graph.Flat`: the members of every union are of pairwise different
    categories (`flat_of_isFlat`); `Graph.FlatAt` says so of one node (`isFlat_iff`);
  * `Flat.collect`, `Flat.forward`, `flat_absorbStrings`, `flat_mergeDuplicates`: passes that
    keep the categories of members keep unions flat.
-/
import Mathlib.Data.List.Nodup
import SchemaTypes.Graph.Duplicates
import SchemaTypes.Proofs.Comparison
import SchemaTypes.Proofs.KindClasses

namespace SchemaTypes

theorem Kind.category_mapChildren (f : NodeId → NodeId) (k : Kind) :
    (k.mapChildren f).category? = k.category? := by
  cases k <;> rfl

theorem Kind.category_of_same {k l : Kind} (h : k.same l = true) : k.category? = l.category? := by
  cases k <;> cases l <;> first | rfl | simp_all [Kind.same, Kind.category?]

theorem Kind.eq_union_of_mapChildren {f : NodeId → NodeId} {k : Kind} {ms : SortedSet NodeId}
    (h : k.mapChildren f = .union ms) : ∃ ns, k = .union ns ∧ ns.map f = ms := by
  cases k with
  | union ns =>
    cases h
    exact ⟨ns, rfl, rfl⟩
  | _ => cases h

namespace Graph

variable {g h : Graph} {conflate : Bool} {ms : SortedSet NodeId}

theorem lt_size_of_union {r : NodeId} (h : g.kind r = .union ms) : r < g.size :=
  lt_size_of_isUnion (congrArg Kind.isUnion h)

/-! ## Flat unions -/

/-- There are at least two members, of pairwise different categories, and not both kinds of
    numbers where those are conflated. -/
structure FlatMembers (g : Graph) (conflate : Bool) (ms : SortedSet NodeId) : Prop where
  exists_ne : ∃ m ∈ ms, ∃ n ∈ ms, m ≠ n
  categorized : ∀ m ∈ ms, ∃ c, (g.kind m).category? = some c
  eq_of_category : ∀ m ∈ ms, ∀ n ∈ ms, (g.kind m).category? = (g.kind n).category? → m = n
  numbers : conflate = true → ∀ m ∈ ms, ∀ n ∈ ms,
    (g.kind m).category? = some .integer → (g.kind n).category? ≠ some .double

/-- All unions are flat. -/
def Flat (g : Graph) (conflate : Bool) : Prop :=
  ∀ r ms, g.kind r = .union ms → g.FlatMembers conflate ms

theorem exists_ne_of_two_le (h : 2 ≤ ms.toList.length) : ∃ m ∈ ms, ∃ n ∈ ms, m ≠ n := by
  obtain ⟨l, hl⟩ := ms
  cases l with
  | nil => cases h
  | cons m l =>
    cases l with
    | nil => simp at h
    | cons n l =>
      refine ⟨m, List.mem_cons_self, n, List.mem_cons_of_mem m List.mem_cons_self, ?_⟩
      exact Nat.ne_of_lt ((List.pairwise_cons.1 hl).1 n List.mem_cons_self)

theorem flatMembers_of_areFlatMembers (h : g.areFlatMembers conflate ms.toList = true) :
    g.FlatMembers conflate ms := by
  simp only [areFlatMembers, Bool.and_eq_true, Bool.not_eq_true', decide_eq_true_eq] at h
  obtain ⟨⟨⟨hlen, hnone⟩, hnodup⟩, hnumbers⟩ := h
  have hmem : ∀ m ∈ ms, (g.kind m).category? ∈ ms.toList.map fun m => (g.kind m).category? :=
    fun m hm => List.mem_map_of_mem (f := fun m => (g.kind m).category?) hm
  refine ⟨?_, fun m hm => ?_, fun m hm n hn => List.inj_on_of_nodup_map hnodup hm hn, ?_⟩
  · exact exists_ne_of_two_le hlen
  · refine Option.ne_none_iff_exists'.1 fun hc => ?_
    have hm := hmem m hm
    rw [hc, ← List.contains_iff_mem, hnone] at hm
    cases hm
  · rintro rfl m hm n hn hi hd
    have hi := hi ▸ hmem m hm
    have hd := hd ▸ hmem n hn
    rw [← List.contains_iff_mem] at hi hd
    rw [hi, hd] at hnumbers
    cases hnumbers

theorem areFlatMembers_of_flatMembers (hms : g.FlatMembers conflate ms) :
    g.areFlatMembers conflate ms.toList = true := by
  have hnodup : ms.toList.Nodup := ms.sorted.imp Nat.ne_of_lt
  simp only [areFlatMembers, Bool.and_eq_true, Bool.not_eq_true', decide_eq_true_eq]
  refine ⟨⟨⟨?_, ?_⟩, hnodup.map_on fun m hm n hn => hms.eq_of_category m hm n hn⟩, ?_⟩
  · obtain ⟨m, hm, n, hn, hne⟩ := hms.exists_ne
    refine Nat.not_lt.1 fun hlt => hne ?_
    obtain ⟨x, hx⟩ := List.length_eq_one_iff.1
      (Nat.le_antisymm (Nat.le_of_lt_succ hlt) (List.length_pos_of_mem hm))
    rw [← SortedSet.mem_toList, hx, List.mem_singleton] at hm hn
    exact hm.trans hn.symm
  · rw [← Bool.not_eq_true, List.contains_iff_mem, List.mem_map]
    rintro ⟨m, hm, hnone⟩
    obtain ⟨c, hc⟩ := hms.categorized m hm
    cases hnone.symm.trans hc
  · rw [← Bool.not_eq_true, Bool.and_eq_true, Bool.and_eq_true]
    rintro ⟨⟨hconflate, hi⟩, hd⟩
    obtain ⟨m, hm, hi⟩ := List.mem_map.1 (List.contains_iff_mem.1 hi)
    obtain ⟨n, hn, hd⟩ := List.mem_map.1 (List.contains_iff_mem.1 hd)
    exact hms.numbers hconflate m hm n hn hi hd

/-- A node is a flat union, or no union at all. -/
def FlatAt (g : Graph) (conflate : Bool) (r : NodeId) : Prop :=
  ∀ ms, g.kind r = .union ms → g.FlatMembers conflate ms

theorem isFlat_iff {r : NodeId} : g.isFlat conflate r = true ↔ g.FlatAt conflate r := by
  unfold isFlat FlatAt
  split
  · next ms hk =>
    refine ⟨fun hms ns hns => ?_, fun h => areFlatMembers_of_flatMembers (h ms hk)⟩
    cases hk.symm.trans hns
    exact flatMembers_of_areFlatMembers hms
  · next hne => exact iff_of_true rfl fun ms hk => absurd hk (hne ms)

theorem flatAt_of_not_isUnion {r : NodeId} (hr : (g.kind r).isUnion = false) :
    g.FlatAt conflate r := by
  intro ms hk
  rw [hk] at hr
  cases hr

theorem flat_of_isFlat (h : g.ids.all (g.isFlat conflate) = true) : g.Flat conflate := by
  intro r ms hr
  have hflat := List.all_eq_true.1 h r (List.mem_range.2 (lt_size_of_union hr))
  exact isFlat_iff.1 hflat ms hr

/-- Members stay flat if their images are of the same categories. -/
theorem FlatMembers.map (hms : g.FlatMembers conflate ms) {f : NodeId → NodeId}
    (hf : ∀ m ∈ ms, (h.kind (f m)).category? = (g.kind m).category?) :
    h.FlatMembers conflate (ms.map f) := by
  have hmap : ∀ m', m' ∈ ms.map f → ∃ m ∈ ms, f m = m' ∧
      (h.kind m').category? = (g.kind m).category? := by
    intro m' hm'
    obtain ⟨m, hm, rfl⟩ := SortedSet.mem_map.1 hm'
    exact ⟨m, hm, rfl, hf m hm⟩
  constructor
  · obtain ⟨m, hm, n, hn, hne⟩ := hms.exists_ne
    refine ⟨f m, SortedSet.mem_map.2 ⟨m, hm, rfl⟩, f n, SortedSet.mem_map.2 ⟨n, hn, rfl⟩, ?_⟩
    intro heq
    exact hne (hms.eq_of_category m hm n hn (by rw [← hf m hm, ← hf n hn, heq]))
  · intro m' hm'
    obtain ⟨m, hm, -, hc⟩ := hmap m' hm'
    rw [hc]
    exact hms.categorized m hm
  · intro m' hm' n' hn' heq
    obtain ⟨m, hm, rfl, hcm⟩ := hmap m' hm'
    obtain ⟨n, hn, rfl, hcn⟩ := hmap n' hn'
    rw [hms.eq_of_category m hm n hn (by rw [← hcm, ← hcn, heq])]
  · intro hconf m' hm' n' hn'
    obtain ⟨m, hm, -, hcm⟩ := hmap m' hm'
    obtain ⟨n, hn, -, hcn⟩ := hmap n' hn'
    rw [hcm, hcn]
    exact hms.numbers hconf m hm n hn

theorem FlatMembers.congr (hms : g.FlatMembers conflate ms)
    (hk : ∀ m ∈ ms, (h.kind m).category? = (g.kind m).category?) :
    h.FlatMembers conflate ms := by
  have hmap := hms.map (f := id) hk
  have hid : ms.map id = ms := by
    ext m
    simp
  rwa [hid] at hmap

theorem FlatMembers.grow (hms : g.FlatMembers conflate ms) (hg : g.Grows h) :
    h.FlatMembers conflate ms :=
  hms.congr fun m hm => by
    obtain ⟨c, hc⟩ := hms.categorized m hm
    rw [hg.kind_eq m (lt_size_of_category hc)]

/-- Some of the members of a flat union, of which there are at least two. -/
theorem FlatMembers.subset (hms : g.FlatMembers conflate ms) {ms' : SortedSet NodeId}
    (hsub : ∀ m ∈ ms', m ∈ ms) (hne : ∃ m ∈ ms', ∃ n ∈ ms', m ≠ n) :
    g.FlatMembers conflate ms' where
  exists_ne := hne
  categorized m hm := hms.categorized m (hsub m hm)
  eq_of_category m hm n hn := hms.eq_of_category m (hsub m hm) n (hsub n hn)
  numbers hc m hm n hn := hms.numbers hc m (hsub m hm) n (hsub n hn)

/-- Members of flat unions are no unions. -/
theorem FlatMembers.not_isUnion (hms : g.FlatMembers conflate ms) {m : NodeId} (hm : m ∈ ms) :
    (g.kind m).isUnion = false := by
  obtain ⟨c, hc⟩ := hms.categorized m hm
  generalize g.kind m = k at hc
  cases k <;> first | rfl | cases hc

theorem exists_union_of_collect {i : NodeId} (hi : g.collect.kind i = .union ms) :
    ∃ r ∈ g.reachable, ∃ ns, g.kind r = .union ns ∧ ns.map g.place = ms := by
  obtain ⟨r, hr, rfl⟩ := exists_place_eq (lt_size_of_union hi)
  rw [kind_collect hr] at hi
  exact ⟨r, hr, Kind.eq_union_of_mapChildren hi⟩

/-- Collection keeps the members of unions that have a category, with it. -/
theorem category_collect {r m : NodeId} {c : Category} (hr : r ∈ g.reachable)
    (hk : g.kind r = .union ms) (hm : m ∈ ms) (hc : (g.kind m).category? = some c) :
    (g.collect.kind (g.place m)).category? = some c := by
  have hm : m ∈ g.reachable :=
    mem_walk_of_mem_next hr (by rw [hk]; exact hm) (lt_size_of_category hc)
  rw [kind_collect hm, Kind.category_mapChildren, hc]

theorem FlatAt.collect {r : NodeId} (h : g.FlatAt conflate r) (hr : r ∈ g.reachable) :
    g.collect.FlatAt conflate (g.place r) := by
  intro ms hk
  rw [kind_collect hr] at hk
  obtain ⟨ns, hns, rfl⟩ := Kind.eq_union_of_mapChildren hk
  refine (h ns hns).map fun m hm => ?_
  obtain ⟨c, hc⟩ := (h ns hns).categorized m hm
  rw [category_collect hr hns hm hc, hc]

theorem Flat.collect (hg : g.Flat conflate) : g.collect.Flat conflate := by
  intro i ms hi
  obtain ⟨r, hr, rfl⟩ := exists_place_eq (lt_size_of_union hi)
  exact (show g.FlatAt conflate r from hg r).collect hr ms hi

/-- Redirection keeps unions flat if it keeps the categories of nodes that have any. -/
theorem Flat.forward (hg : g.Flat conflate) {moved : Redirection}
    (hm : ∀ m c, (g.kind m).category? = some c →
      (g.kind (moved.follow m)).category? = some c) : (g.forward moved).Flat conflate := by
  intro r ms hr
  rw [Graph.forward, kind_renameReferences] at hr
  obtain ⟨ns, hk, rfl⟩ := Kind.eq_union_of_mapChildren hr
  refine (hg r ns hk).map fun m hmem => ?_
  obtain ⟨c, hc⟩ := (hg r ns hk).categorized m hmem
  rw [Graph.forward, kind_renameReferences, Kind.category_mapChildren, hm m c hc, hc]

/-- Changes of kinds keep unions flat if they keep unions and categories. -/
theorem Flat.mapKinds (hg : g.Flat conflate) {f : Kind → Kind}
    (hu : ∀ k ms, f k = .union ms → k = .union ms)
    (hc : ∀ k c, k.category? = some c → (f k).category? = some c) :
    (g.mapKinds f).Flat conflate := by
  intro r ms hr
  have hlt : r < g.size := by simpa using lt_size_of_union hr
  rw [kind_mapKinds f hlt] at hr
  refine (hg r ms (hu _ _ hr)).congr fun m hm => ?_
  obtain ⟨c, hcm⟩ := (hg r ms (hu _ _ hr)).categorized m hm
  rw [kind_mapKinds f (lt_size_of_category hcm), hc _ c hcm, hcm]

theorem Flat.addAttributes (hg : g.Flat conflate) (r : NodeId) (a : Attributes) :
    (g.addAttributes r a).Flat conflate := by
  intro s ms hs
  rw [kind_addAttributes] at hs
  exact (hg s ms hs).congr fun m _ => by rw [kind_addAttributes]

/-- A union may become another flat one. -/
theorem Flat.setUnion (hg : g.Flat conflate) {u : NodeId} (hu : (g.kind u).isUnion = true)
    (hms : g.FlatMembers conflate ms) : (g.setKind u (.union ms)).Flat conflate := by
  have hmember : ∀ {ns}, g.FlatMembers conflate ns → ∀ m ∈ ns,
      ((g.setKind u (.union ms)).kind m).category? = (g.kind m).category? := by
    intro ns hns m hm
    rcases kind_modify_cases g u m (f := ({ · with kind := .union ms })) fun _ => rfl with
      hk | ⟨rfl, -⟩
    · exact congrArg Kind.category? hk
    · rw [hns.not_isUnion hm] at hu
      cases hu
  intro r ns hr
  rcases kind_modify_cases g u r (f := ({ · with kind := .union ms })) fun _ => rfl with
    hk | ⟨rfl, hk⟩
  · have hns := hg r ns (hk.symm.trans hr)
    exact hns.congr (hmember hns)
  · cases hk.symm.trans hr
    exact hms.congr (hmember hms)

/-! ## Comparison -/

/-- Nodes of graphs that are the same have kinds that are. -/
theorem kind_same_of_same (hsame : h.same g = true) (r : NodeId) :
    (h.kind r).same (g.kind r) = true := by
  by_cases hr : r < h.size
  · have hnode := node_same_of_same hsame hr
    simp only [Node.same, Bool.and_eq_true] at hnode
    exact hnode.1.1.1
  · have hsize : h.size = g.size := by
      simp only [same, Bool.and_eq_true, beq_iff_eq] at hsame
      exact hsame.1.1
    rw [kind_eq_nothing_of_le (Nat.not_lt.1 hr), kind_eq_nothing_of_le (hsize ▸ Nat.not_lt.1 hr)]
    rfl

/-- Unions are flat in one of two graphs that are the same if they are in the other. -/
theorem flatAt_iff_of_same (hsame : h.same g = true) (r : NodeId) :
    h.FlatAt conflate r ↔ g.FlatAt conflate r := by
  have hcat : ∀ m, (h.kind m).category? = (g.kind m).category? := fun m =>
    Kind.category_of_same (kind_same_of_same hsame m)
  have hunion : ∀ ms, h.kind r = .union ms ↔ g.kind r = .union ms := by
    have hkind := kind_same_of_same hsame r
    generalize h.kind r = k at hkind
    generalize g.kind r = l at hkind
    intro ms
    cases k <;> cases l <;> simp_all [Kind.same]
  refine forall_congr' fun ms => ?_
  rw [hunion]
  exact imp_congr_right fun _ => ⟨fun hms => hms.congr fun m _ => (hcat m).symm,
    fun hms => hms.congr fun m _ => hcat m⟩

theorem Flat.of_same (hg : g.Flat conflate) (hsame : h.same g = true) : h.Flat conflate :=
  fun r => (flatAt_iff_of_same hsame r).2 (hg r)

/-! ## Strings in unions -/

/-- A partly absorbed graph has flat unions, and only unions are redirected. -/
structure Absorbed (conflate : Bool) (s : Absorption) : Prop where
  flat : s.graph.Flat conflate
  isUnion : ∀ u t, s.redirection.get? u = some t → (s.graph.kind u).isUnion = true
  lt_size : ∀ u t, s.redirection.get? u = some t → t < s.graph.size

theorem absorbed_step {s : Absorption} (h : Absorbed conflate s) (u : NodeId) :
    Absorbed conflate (s.step u) := by
  unfold Absorption.step
  extract_lets g members
  split
  · exact h
  next text htext =>
  extract_lets kept
  split
  · exact h
  have hmem : text ∈ members := List.mem_of_find?_eq_some htext
  have hkind : g.kind text = .string none := by simpa using List.find?_some htext
  have hu : (g.kind u).isUnion = true := Kind.isUnion_of_mem hmem
  split
  · refine ⟨h.flat.addAttributes _ _, fun v t hv => ?_, fun v t hv => ?_⟩
    · rw [kind_addAttributes]
      rw [SortedMap.get?_insert] at hv
      split at hv
      · next heq => exact heq ▸ hu
      · exact h.isUnion v t hv
    · rw [size_addAttributes]
      rw [SortedMap.get?_insert] at hv
      split at hv
      · cases hv
        exact lt_size_of_kind_ne (by simp [hkind])
      · exact h.lt_size v t hv
  · next hone =>
    obtain ⟨ms, hms⟩ : ∃ ms, g.kind u = .union ms := ⟨_, Kind.eq_union_of_isUnion hu⟩
    have hkept : kept = (ms.filter fun m => m == text || !(g.kind m).isStringLike).toList := by
      simp only [kept, members, hms]
      rfl
    have htwo : 2 ≤ kept.length := by
      have hpos : text ∈ kept := List.mem_filter.2 ⟨hmem, by simp⟩
      have := List.length_pos_of_mem hpos
      omega
    have hsub : ∀ m, m ∈ SortedSet.ofList kept ↔
        m ∈ ms.filter fun m => m == text || !(g.kind m).isStringLike := fun m => by
      rw [SortedSet.mem_ofList, hkept, SortedSet.mem_toList]
    have hflat : g.FlatMembers conflate (.ofList kept) := by
      refine (h.flat u ms hms).subset (fun m hm => ?_) ?_
      · exact (SortedSet.mem_filter.1 ((hsub m).1 hm)).1
      · rw [hkept] at htwo
        obtain ⟨m, hm, n, hn, hne⟩ := exists_ne_of_two_le htwo
        exact ⟨m, (hsub m).2 hm, n, (hsub n).2 hn, hne⟩
    refine ⟨h.flat.setUnion hu hflat, fun v t hv => ?_, fun v t hv => ?_⟩
    · rcases kind_modify_cases g u v (f := ({ · with kind := .union (.ofList kept) })) fun _ => rfl
        with hk | ⟨-, hk⟩
      · exact (congrArg Kind.isUnion hk).trans (h.isUnion v t hv)
      · exact congrArg Kind.isUnion hk
    · exact (size_modify ..).symm ▸ h.lt_size v t hv

theorem absorbed_foldl (hg : g.Flat conflate) :
    Absorbed conflate (g.ids.foldl Absorption.step ⟨g, ∅⟩) := by
  refine List.foldlRecOn (motive := Absorbed conflate) _ _ ⟨hg, ?_, ?_⟩ fun s hs u _ =>
    absorbed_step hs u
  · exact fun _ _ h => by cases h
  · exact fun _ _ h => by cases h

theorem flat_absorbStrings (hg : g.Flat conflate) : g.absorbStrings.Flat conflate := by
  have H := absorbed_foldl hg
  unfold absorbStrings
  generalize g.ids.foldl Absorption.step ⟨g, ∅⟩ = s at H ⊢
  refine H.flat.forward fun m c hc => ?_
  have hnone : s.redirection.get? m = none := by
    refine Option.eq_none_iff_forall_ne_some.2 fun t ht => ?_
    have hu := H.isUnion m t ht
    generalize s.graph.kind m = k at hc hu
    cases k <;> first | cases hc; done | cases hu
  rwa [follow_of_none hnone]

/-! ## Equal types -/

theorem duplicates_of_mem_merges {kept rs : List NodeId} {e : NodeId × NodeId}
    (h : e ∈ g.merges kept rs) : g.duplicates e.1 e.2 = true ∧ (e.2 ∈ kept ∨ e.2 ∈ rs) := by
  induction rs generalizing kept with
  | nil => cases h
  | cons r rs ih =>
    unfold merges at h
    split at h
    · next s hs =>
      rcases List.mem_cons.1 h with rfl | h
      · exact ⟨List.find?_some hs, .inl (List.mem_of_find?_eq_some hs)⟩
      · exact (ih h).imp id (Or.imp id (List.mem_cons_of_mem r))
    · obtain ⟨hd, hmem⟩ := ih h
      refine ⟨hd, ?_⟩
      rcases hmem with hmem | hmem
      · rcases List.mem_append.1 hmem with hmem | hmem
        · exact .inl hmem
        · exact .inr (List.mem_cons.2 (.inl (List.mem_singleton.1 hmem)))
      · exact .inr (List.mem_cons_of_mem r hmem)

theorem flat_mergeDuplicates (hg : g.Flat conflate) : g.mergeDuplicates.1.Flat conflate := by
  refine hg.forward fun m c hc => ?_
  refine follow_induction (P := fun m => (g.kind m).category? = some c) (fun r s hrs hr => ?_) hc
  have hd := (duplicates_of_mem_merges (SortedMap.mem_of_get?_ofList hrs)).1
  rw [duplicates, Bool.and_eq_true, Bool.and_eq_true] at hd
  rw [← Kind.category_of_same hd.1.1, hr]

end Graph

end SchemaTypes
