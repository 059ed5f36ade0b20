/-
  Collection of collected graphs.

  Collection numbers nodes anew, and sorting puts properties in a new order.  Both may change the
  order in which the next collection meets the nodes:

  * `collected_unchanged`: **numbering alone does not**, so that a pass that changes nothing is seen
    to change nothing, if all bounds are numbers;
  * `foldl_visit_eq_of_suffix`, `visit_eq_of_suffix`: two walks that meet nodes in the same row
    agree, and so does any walk that goes on from each node as one of the two does;
  * `reachable_collectSorted_iff`: sorting leaves the row of a collected graph as it is exactly if
    it leaves that of the graph;
  * `sorted_collection_settles`: otherwise **it is the second collection that is for good**.
-/
import SchemaTypes.Proofs.Isomorphism
import SchemaTypes.Proofs.Convergence

namespace SchemaTypes

open Stage

/-! ## Stages of a pass that changes nothing -/

namespace Graph

variable {g : Graph}

theorem apply_of_collected {pass : Pass} (hg : g.collect = g) (hpass : (pass g).1 = g) :
    apply pass g = (((pass g).2, !decide g.NaNFree), g) := by
  have hsame : g.same g = decide g.NaNFree := by
    rw [Bool.eq_iff_iff, same_self_iff, decide_eq_true_iff]
  show (((pass g).2, !(pass g).1.collect.same g), (pass g).1.collect) = _
  rw [hpass, hg, hsame]

/-- **Collection changes nothing in a collected graph**, so each way to apply a pass that changes
    nothing there leaves the graph as it is, and reports that it is unchanged if all bounds are
    numbers, and only then. -/
theorem collected_unchanged (hg : g.WellFormed) :
    g.collect.collect = g.collect ∧
      ∀ pass : Pass, (pass g.collect).1 = g.collect →
        apply pass g.collect = (((pass g.collect).2, !decide g.collect.NaNFree), g.collect) ∧
        (once pass).run g.collect = (.ok (!decide g.collect.NaNFree), g.collect) ∧
        ∀ stage,
          (exactlyOnce stage pass).run g.collect =
            (if (pass g.collect).2 then .ok ⟨⟩ else .error (.extraIteration stage), g.collect) ∧
          (g.collect.NaNFree → (toFixedPoint stage fun _ => pass).run g.collect =
            (if (pass g.collect).2 then .ok ⟨⟩ else .error (.notConverged stage), g.collect)) := by
  have hcollect := collect_collect hg
  refine ⟨hcollect, fun pass hpass => ?_⟩
  have happly := apply_of_collected hcollect hpass
  have hrun : (modifyGet (apply pass) : StageM (Bool × Bool)).run g.collect =
      (.ok ((pass g.collect).2, !decide g.collect.NaNFree), g.collect) := by
    show (Except.ok (apply pass g.collect).1, (apply pass g.collect).2) = _
    rw [happly]
  refine ⟨happly, ?_, fun stage => ⟨?_, fun hnan => ?_⟩⟩
  · rw [once, run_bind, hrun]
    rfl
  · rw [exactlyOnce, run_bind, hrun]
    cases (pass g.collect).2 <;> rfl
  · exact run_toFixedPoint_of_nanFree hpass hcollect hnan stage

/-- Nothing in a pantry is there twice, so that merging equal types is done at once. -/
theorem collected_unchanged_pantry :
    pantry.WellFormed ∧ mergeDuplicates pantry.collect = (pantry.collect, true) ∧
      pantry.collect.NaNFree ∧ pantry.collect.collect = pantry.collect ∧ pantry.collect ≠ pantry ∧
      (once mergeDuplicates).run pantry.collect = (.ok false, pantry.collect) ∧
      (toFixedPoint "duplicates" fun _ => mergeDuplicates).run pantry.collect =
        (.ok ⟨⟩, pantry.collect) := by
  have hg : pantry.WellFormed := ⟨by decide, by decide⟩
  have hmerge : mergeDuplicates pantry.collect = (pantry.collect, true) := by decide +kernel
  have hnan : pantry.collect.NaNFree := by decide +kernel
  obtain ⟨hcollect, hpass⟩ := collected_unchanged hg
  obtain ⟨-, honce, hstages⟩ := hpass mergeDuplicates (congrArg Prod.fst hmerge)
  refine ⟨hg, hmerge, hnan, hcollect, by decide +kernel, ?_, ?_⟩
  · rw [honce, decide_eq_true hnan]
    rfl
  · rw [(hstages "duplicates").2 hnan, hmerge]
    rfl

/-- A pass that does nothing may be reported to change a collected graph: one with a bound that is
    not a number. -/
theorem not_forall_reported_unchanged : ¬∀ (g : Graph) (pass : Pass), g.WellFormed →
    g.collect = g → (pass g).1 = g → (once pass).run g = (.ok false, g) := by
  intro h
  have hcollect : reading.collect = reading := by decide +kernel
  have hrun := h reading (.ofChange id) ⟨by decide, by decide⟩ hcollect rfl
  have hchanged : (once (.ofChange id)).run reading =
      (.ok (!reading.collect.same reading), reading.collect) := rfl
  rw [hchanged, hcollect, show reading.same reading = false by decide] at hrun
  cases hrun

end Graph

/-! ## Walks along the same row -/

section

variable {n d : Nat} {next₁ next₂ next₃ : Nat → List Nat} {row : List Nat}

/-- Of the numbers that are visited, the first that is lacking comes next in the row. -/
theorem exists_append_of_suffix {next : Nat → List Nat} {m : Met n} {cs : List Nat} {c : Nat}
    (hd : n ≤ d + m.order.length) (hlt : ∀ s ∈ cs, s < n)
    (hrow : (cs.foldl (visit next d) m).order <:+ row) (hc : c :: m.order <:+ row)
    (hlacks : m.lacks c) (hcs : c ∈ cs) :
    ∃ pre rest, cs = pre ++ c :: rest ∧ ∀ s ∈ pre, s ∈ m.order := by
  have hsome : (cs.find? fun s => decide (m.lacks s)).isSome :=
    List.find?_isSome.2 ⟨c, hcs, decide_eq_true hlacks⟩
  obtain ⟨s, hfind⟩ := Option.isSome_iff_exists.1 hsome
  obtain ⟨hs, pre, rest, rfl, hpre⟩ := List.find?_eq_some_iff_append.1 hfind
  have hpre : ∀ x ∈ pre, x ∈ m.order := fun x hx => by
    have hx' : ¬m.lacks x := by simpa using hpre x hx
    rw [Met.lacks_iff, not_and, not_not] at hx'
    exact hx' (hlt x (List.mem_append_left _ hx))
  rw [foldl_visit_append hpre] at hrow
  have hvisit : (visit next d m s).order <:+ row := (suffix_foldl (suffix_visit d) ..).trans hrow
  have hnext : s :: m.order <:+ row := (cons_suffix_visit hd (of_decide_eq_true hs)).trans hvisit
  have heq : c :: m.order = s :: m.order :=
    (List.suffix_of_suffix_length_le hc hnext (Nat.le_refl _)).eq_of_length rfl
  obtain rfl : c = s := (List.cons.inj heq).1
  exact ⟨pre, rest, rfl, hpre⟩

/-- Visits in turn of the same numbers that go along the same row agree, if each two visits do; and
    so does a third kind of visits, in the order of the first ones or in that of the second. -/
theorem foldl_visit_eq_of_suffix
    (hv : ∀ (m : Met n) r, n ≤ d + m.order.length → (visit next₁ d m r).order <:+ row →
      (visit next₂ d m r).order <:+ row →
        visit next₂ d m r = visit next₁ d m r ∧ visit next₃ d m r = visit next₁ d m r)
    {cs₁ cs₂ : List Nat} {m : Met n} (hd : n ≤ d + m.order.length)
    (hrow₁ : (cs₁.foldl (visit next₁ d) m).order <:+ row)
    (hrow₂ : (cs₂.foldl (visit next₂ d) m).order <:+ row) (hlt : ∀ c ∈ cs₁, c < n)
    (h₁₂ : ∀ c ∈ cs₁, c ∈ m.order ∨ c ∈ cs₂) (h₂₁ : ∀ c ∈ cs₂, c ∈ m.order ∨ c ∈ cs₁) :
    cs₂.foldl (visit next₂ d) m = cs₁.foldl (visit next₁ d) m ∧
      cs₁.foldl (visit next₃ d) m = cs₁.foldl (visit next₁ d) m ∧
      cs₂.foldl (visit next₃ d) m = cs₁.foldl (visit next₁ d) m := by
  induction cs₁ generalizing cs₂ m with
  | nil =>
    have hmet : ∀ c ∈ cs₂, c ∈ m.order := fun c hc => (h₂₁ c hc).resolve_right List.not_mem_nil
    exact ⟨foldl_visit_of_mem hmet d, rfl, foldl_visit_of_mem hmet d⟩
  | cons c cs₁ ih =>
    have hlt₁ : ∀ s ∈ cs₁, s < n := fun s hs => hlt s (List.mem_cons_of_mem c hs)
    have hlt₂ : ∀ s ∈ cs₂, s < n := fun s hs => (h₂₁ s hs).elim (m.lt s) (hlt s)
    simp only [List.foldl_cons] at hrow₁ ⊢
    by_cases hcm : c ∈ m.order
    · simp only [visit_of_mem hcm] at hrow₁ ⊢
      refine ih hd hrow₁ hrow₂ hlt₁ (fun s hs => h₁₂ s (List.mem_cons_of_mem c hs)) fun s hs => ?_
      rcases h₂₁ s hs with hs | hs
      · exact .inl hs
      rcases List.mem_cons.1 hs with rfl | hs
      · exact .inl hcm
      · exact .inr hs
    -- the number that is visited next is the same one in both rows
    have hlacks : m.lacks c := Met.lacks_iff.2 ⟨hlt c List.mem_cons_self, hcm⟩
    have hstep : c :: m.order <:+ (visit next₁ d m c).order := cons_suffix_visit hd hlacks
    have hvisit₁ : (visit next₁ d m c).order <:+ row :=
      (suffix_foldl (suffix_visit d) ..).trans hrow₁
    obtain ⟨pre, rest, rfl, hpre⟩ := exists_append_of_suffix hd hlt₂ hrow₂ (hstep.trans hvisit₁)
      hlacks ((h₁₂ c List.mem_cons_self).resolve_left hcm)
    simp only [foldl_visit_append hpre] at hrow₂ ⊢
    have hvisit₂ : (visit next₂ d m c).order <:+ row :=
      (suffix_foldl (suffix_visit d) ..).trans hrow₂
    obtain ⟨heq₂, heq₃⟩ := hv m c hd hvisit₁ hvisit₂
    rw [heq₂] at hrow₂ ⊢
    rw [heq₃]
    have hmet : ∀ s ∈ m.order, s ∈ (visit next₁ d m c).order := fun s hs =>
      hstep.subset (List.mem_cons_of_mem c hs)
    have hlen := hstep.length_le
    rw [List.length_cons] at hlen
    refine ih (by omega) hrow₁ hrow₂ hlt₁ (fun s hs => ?_) fun s hs => ?_
    · rcases h₁₂ s (List.mem_cons_of_mem c hs) with hs | hs
      · exact .inl (hmet s hs)
      rcases List.mem_append.1 hs with hs | hs
      · exact .inl (hmet s (hpre s hs))
      rcases List.mem_cons.1 hs with rfl | hs
      · exact .inl (hstep.subset List.mem_cons_self)
      · exact .inr hs
    · rcases h₂₁ s (List.mem_append_right pre (List.mem_cons_of_mem c hs)) with hs | hs
      · exact .inl (hmet s hs)
      rcases List.mem_cons.1 hs with rfl | hs
      · exact .inl (hstep.subset List.mem_cons_self)
      · exact .inr hs

/-- **Visits that go along the same row agree**, if they go on to the same numbers, in whatever
    order; and so do those that go on from each number in one of the two orders. -/
theorem visit_eq_of_suffix (hlt : ∀ r ∈ row, ∀ c ∈ next₁ r, c < n)
    (hiff : ∀ r ∈ row, ∀ c, c ∈ next₂ r ↔ c ∈ next₁ r)
    (hor : ∀ r ∈ row, next₃ r = next₁ r ∨ next₃ r = next₂ r) (d : Nat) (m : Met n) (r : Nat)
    (hd : n ≤ d + m.order.length) (hrow₁ : (visit next₁ d m r).order <:+ row)
    (hrow₂ : (visit next₂ d m r).order <:+ row) :
    visit next₂ d m r = visit next₁ d m r ∧ visit next₃ d m r = visit next₁ d m r := by
  induction d generalizing m r with
  | zero => exact ⟨rfl, rfl⟩
  | succ d ih =>
    simp only [visit] at hrow₁ hrow₂ ⊢
    by_cases hl : m.lacks r
    · simp only [dif_pos hl] at hrow₁ hrow₂ ⊢
      have hmet : (m.add r hl).order <:+ row := (suffix_foldl (suffix_visit d) ..).trans hrow₁
      have hr : r ∈ row := hmet.subset List.mem_cons_self
      obtain ⟨h₂, h₃, h₃'⟩ := foldl_visit_eq_of_suffix ih (m := m.add r hl)
        (by rw [Met.order_add, List.length_cons]; omega) hrow₁ hrow₂ (hlt r hr)
        (fun c hc => .inr ((hiff r hr c).2 hc))
        fun c hc => .inr ((hiff r hr c).1 hc)
      refine ⟨h₂, ?_⟩
      rcases hor r hr with heq | heq
      · rw [heq, h₃]
      · rw [heq, h₃']
    · simp only [dif_neg hl]
      exact ⟨trivial, trivial⟩

end

/-! ## Sorted properties -/

theorem Properties.sortKeys_sortKeys (ps : Properties) :
    (ps.sortKeys (decide <| · ≤ ·)).sortKeys (decide <| · ≤ ·) = ps.sortKeys (decide <| · ≤ ·) :=
  sortKeys_eq ps.pairwise_keys_sortKeys (.refl _)

theorem OrderedMap.sortKeys_mapValues {κ ν μ : Type} (le : κ → κ → Bool) (f : ν → μ)
    (m : OrderedMap κ ν) : (m.mapValues f).sortKeys le = (m.sortKeys le).mapValues f := by
  simp only [sortKeys, mapValues, mk.injEq]
  exact (List.map_mergeSort (f := fun e : κ × ν => (e.1, f e.2)) fun _ _ _ _ => rfl).symm

namespace Kind

theorem sortProperties_sortProperties (k : Kind) :
    k.sortProperties.sortProperties = k.sortProperties := by
  cases k with
  | object ps a => exact congrArg (object · a) ps.sortKeys_sortKeys
  | record ps => exact congrArg record ps.sortKeys_sortKeys
  | _ => rfl

theorem sortProperties_mapChildren (f : NodeId → NodeId) (k : Kind) :
    (k.mapChildren f).sortProperties = k.sortProperties.mapChildren f := by
  cases k with
  | object ps a => exact congrArg (object · (a.map f)) (OrderedMap.sortKeys_mapValues _ _ ps)
  | record ps => exact congrArg record (OrderedMap.sortKeys_mapValues _ _ ps)
  | _ => rfl

/-- Sorting changes only kinds whose children are renamed in order. -/
theorem sortProperties_eq_or (k : Kind) : k.sortProperties = k ∨
    ∀ f, (k.sortProperties.mapChildren f).children = k.sortProperties.children.map f := by
  cases k with
  | object ps a =>
    refine .inr fun f => ?_
    cases a <;> simp [sortProperties, mapChildren, children]
  | record ps => exact .inr fun f => Properties.types_mapTypes f _
  | _ => exact .inl rfl

end Kind

namespace Graph

variable {g : Graph}

/-- The collected graph, with properties in the order of their names. -/
def collectSorted (g : Graph) : Graph := g.collect.sortProperties

theorem size_sortProperties (g : Graph) : g.sortProperties.size = g.size :=
  size_mapKinds g Kind.sortProperties

theorem size_collectSorted (g : Graph) : g.collectSorted.size = g.reachable.length :=
  (size_sortProperties _).trans size_collect

theorem sortProperties_sortProperties (g : Graph) :
    g.sortProperties.sortProperties = g.sortProperties := by
  refine eq_of_node_eq (size_sortProperties _) (fun r _ => ?_) rfl
  rw [node_sortProperties, kind_sortProperties, node_sortProperties,
    Kind.sortProperties_sortProperties]

/-- Sorting before collection is sorting after it, if the nodes are met in the same row. -/
theorem collect_sortProperties (h : g.sortProperties.reachable = g.reachable) :
    g.sortProperties.collect = g.collectSorted := by
  have hplace : g.sortProperties.place = g.place := by
    funext r
    rw [place, place, h, size_sortProperties]
  have hsize : g.sortProperties.collect.size = g.collectSorted.size := by
    rw [size_collectSorted, size_collect, h]
  refine eq_of_node_eq hsize (fun i hi => ?_) ?_
  · obtain ⟨r, hr, rfl⟩ := exists_place_eq hi
    rw [node_collect hr, hplace, collectSorted, node_sortProperties g.collect]
    rw [h] at hr
    rw [kind_collect hr, node_collect hr, node_sortProperties, kind_sortProperties,
      Kind.sortProperties_mapChildren]
  · show g.topLevels.mapValues g.sortProperties.place = g.topLevels.mapValues g.place
    rw [hplace]

/-- Collection keeps sorted properties sorted. -/
theorem collectSorted_of_sorted (h : g.sortProperties = g) : g.collectSorted = g.collect := by
  rw [← collect_sortProperties (by rw [h]), h]

theorem collect_eq_self_iff (hg : g.WellFormed) :
    g.collect = g ↔ g.reachable = List.range g.size := by
  refine ⟨fun h => ?_, collect_of_reachable_eq hg⟩
  have hrange := reachable_collect hg
  rwa [h] at hrange

theorem wellFormed_collectSorted (hg : g.WellFormed) : g.collectSorted.WellFormed :=
  (kept_sortProperties (kept_collect hg).wellFormed).wellFormed

theorem kind_collectSorted {r : NodeId} (hr : r ∈ g.reachable) :
    g.collectSorted.kind (g.place r) = (g.kind r).sortProperties.mapChildren g.place := by
  rw [collectSorted, kind_sortProperties, kind_collect hr, Kind.sortProperties_mapChildren]

/-! ## Rows of sorted graphs -/

/-- What a node of the collected graph with sorted properties leads to, as nodes of the graph. -/
def sortedNext (g : Graph) (r : NodeId) : List NodeId :=
  (g.collectSorted.kind (g.place r)).children.map g.unplace

theorem map_unplace_map_place {rs : List NodeId} (hrs : ∀ r ∈ rs, r ∈ g.reachable) :
    (rs.map g.place).map g.unplace = rs := by
  rw [List.map_map]
  exact (List.map_congr_left fun r hr => unplace_place (hrs r hr)).trans (List.map_id' _)

theorem mem_sortedNext_iff (hg : g.WellFormed) {r c : NodeId} (hr : r ∈ g.reachable) :
    c ∈ g.sortedNext r ↔ c ∈ (g.kind r).children := by
  have hmem : ∀ c ∈ (g.kind r).children, g.unplace (g.place c) = c := fun c hc =>
    unplace_place (mem_reachable_of_mem_children hg hr hc)
  have hperm : ∀ c, c ∈ ((g.kind r).mapChildren g.place).sortProperties.children ↔
      c ∈ ((g.kind r).mapChildren g.place).children := fun c =>
    (perm_children_sortProperties _).mem_iff
  rw [sortedNext, kind_collectSorted hr, ← Kind.sortProperties_mapChildren, List.mem_map]
  simp only [hperm, Kind.mem_children_mapChildren]
  constructor
  · rintro ⟨_, ⟨s, hs, rfl⟩, rfl⟩
    exact (hmem s hs).symm ▸ hs
  · exact fun hc => ⟨g.place c, ⟨c, hc, rfl⟩, hmem c hc⟩

/-- The sorted graph goes on from each node as the graph does, or as the collected one does. -/
theorem children_sortProperties_eq_or (hg : g.WellFormed) {r : NodeId} (hr : r ∈ g.reachable) :
    (g.sortProperties.kind r).children = (g.kind r).children ∨
      (g.sortProperties.kind r).children = g.sortedNext r := by
  rw [kind_sortProperties, sortedNext, kind_collectSorted hr]
  refine (Kind.sortProperties_eq_or (g.kind r)).imp (fun h => by rw [h]) fun h => ?_
  rw [h, map_unplace_map_place fun c hc => ?_]
  exact mem_reachable_of_mem_children hg hr ((perm_children_sortProperties _).mem_iff.1 hc)

theorem unplace_mem {i : NodeId} (hi : i < g.reachable.length) : g.unplace i ∈ g.reachable := by
  rw [← map_unplace_range]
  exact List.mem_map_of_mem (List.mem_range.2 hi)

/-- Nodes of the collected graph, with sorted properties, as nodes of the graph. -/
theorem renaming_unplace (hg : g.WellFormed) :
    Renaming g.collectSorted.size g.size (fun i => (g.collectSorted.kind i).children) g.sortedNext
      (List.range g.collectSorted.size).reverse g.unplace := by
  have hlt : ∀ i ∈ (List.range g.collectSorted.size).reverse, i < g.reachable.length := by
    intro i hi
    rwa [List.mem_reverse, List.mem_range, size_collectSorted] at hi
  exact {
    injective := fun i hi j hj h => by
      rw [← place_unplace (hlt i hi), h, place_unplace (hlt j hj)]
    lt := fun i hi => g.size_collectSorted ▸ hlt i hi
    lt' := fun i hi => lt_of_mem_walk (unplace_mem (hlt i hi))
    closed := fun i _ c hc =>
      List.mem_reverse.2 (List.mem_range.2 ((wellFormed_collectSorted hg).lt_of_mem_children hc))
    next_eq := fun i hi => by
      rw [sortedNext, place_unplace (hlt i hi)]
      exact ⟨_, rfl, fun _ => Iff.rfl, .inl rfl⟩ }

/-- If the collected graph is met in the order of its places, it goes along the row of the graph. -/
theorem order_sortedNext (hg : g.WellFormed)
    (h : g.collectSorted.reachable = List.range g.collectSorted.size) :
    (g.topLevels.values.foldl (visit g.sortedNext g.size) (.nothing g.size)).order =
      g.reachable.reverse := by
  have hle : g.collectSorted.size ≤ g.size :=
    Nat.le_trans (Nat.le_of_eq (size_sortProperties _)) g.size_collect_le
  have hrow := reverse_reachable (g := g.collectSorted) rfl hle
  have hvalues : g.collectSorted.topLevels.values = g.topLevels.values.map g.place :=
    values_topLevels_collect g
  rw [h] at hrow
  have hlt : ∀ i ∈ g.collectSorted.topLevels.values,
      i ∈ (List.range g.collectSorted.size).reverse := fun i hi =>
    List.mem_reverse.2 (List.mem_range.2 ((wellFormed_collectSorted hg).2 i hi))
  have hmap := order_foldl_map ((renaming_unplace hg).order_visit g.size) _ (.nothing _)
    (.nothing _) (Nat.le_trans hle (Nat.le_add_right _ _)) rfl hlt ⟨[], hrow⟩
  rwa [hrow, hvalues, map_unplace_map_place fun r hr => mem_reachable_of_mem_values hg hr,
    List.map_reverse, size_collectSorted, map_unplace_range] at hmap

/-- **Sorting leaves the row of a collected graph as it is exactly if it leaves that of the
    graph.** -/
theorem reachable_collectSorted_iff (hg : g.WellFormed) :
    g.collectSorted.reachable = List.range g.collectSorted.size ↔
      g.sortProperties.reachable = g.reachable := by
  refine ⟨fun h => ?_, fun h => ?_⟩
  · have hrow := reverse_reachable (g := g) rfl (Nat.le_refl _)
    have hmem : ∀ {r}, r ∈ g.reachable.reverse → r ∈ g.reachable := List.mem_reverse.1
    obtain ⟨-, hsorted, -⟩ := foldl_visit_eq_of_suffix
      (visit_eq_of_suffix (fun r _ c hc => hg.lt_of_mem_children hc)
        (fun r hr c => mem_sortedNext_iff hg (hmem hr))
        (fun r hr => children_sortProperties_eq_or hg (hmem hr)) g.size)
      (Nat.le_add_right _ _) ⟨[], hrow⟩ ⟨[], order_sortedNext hg h⟩ hg.2 (fun _ => .inr)
      fun _ => .inr
    have hrow' := reverse_reachable (g := g.sortProperties) (size_sortProperties g) (Nat.le_refl _)
    have htop : g.sortProperties.topLevels = g.topLevels := rfl
    rw [htop, hsorted, hrow, List.reverse_inj] at hrow'
    exact hrow'.symm
  · rw [← collect_sortProperties h]
    exact reachable_collect (kept_sortProperties hg).wellFormed

/-- **The second collection with sorted properties is for good.**  The first one already is, and
    its nodes are numbered in the order in which it meets them, exactly if sorting leaves the order
    alone in which the given graph is met. -/
theorem sorted_collection_settles (hg : g.WellFormed) :
    (g.collectSorted.collectSorted = g.collectSorted ↔ g.sortProperties.reachable = g.reachable) ∧
      (g.collectSorted.reachable = List.range g.collectSorted.size ↔
        g.sortProperties.reachable = g.reachable) ∧
      g.collectSorted.collectSorted.collectSorted = g.collectSorted.collectSorted ∧
      g.collectSorted.collectSorted.reachable = List.range g.collectSorted.collectSorted.size := by
  have hwell := wellFormed_collectSorted hg
  have hiff := reachable_collectSorted_iff hg
  have hagain : g.collectSorted.collectSorted = g.collectSorted.collect :=
    collectSorted_of_sorted (sortProperties_sortProperties _)
  have hsorted := sortProperties_sortProperties g.collectSorted.collect
  rw [← collectSorted, hagain] at hsorted
  refine ⟨?_, hiff, ?_, ?_⟩
  · rw [hagain, collect_eq_self_iff hwell, hiff]
  · rw [hagain, collectSorted_of_sorted hsorted, collect_collect hwell]
  · rw [hagain, reachable_collect hwell]

/-- A line of a receipt, whose sum comes before its note. -/
def receipt : Graph where
  nodes := #[.new .integer, .new (.string none),
    .new (.record (.ofList [("sum", ⟨0, false⟩), ("note", ⟨1, false⟩)]))]
  topLevels := .ofList [("Line", 2)]

/-- The sum of the line is numbered before the note, and comes after it once properties are
    sorted. -/
theorem collectSorted_receipt : receipt.collectSorted =
    ⟨#[.new (.record (.ofList [("note", ⟨2, false⟩), ("sum", ⟨1, false⟩)])), .new .integer,
      .new (.string none)], .ofList [("Line", 0)]⟩ := by
  have hcollect : receipt.collect =
      ⟨#[.new (.record (.ofList [("sum", ⟨1, false⟩), ("note", ⟨2, false⟩)])), .new .integer,
        .new (.string none)], .ofList [("Line", 0)]⟩ := by decide +kernel
  have hsorted : OrderedMap.sortKeys (decide <| · ≤ ·) (.ofList [("sum", ⟨1, false⟩),
      ("note", ⟨2, false⟩)]) = (.ofList [("note", ⟨2, false⟩), ("sum", ⟨1, false⟩)] : Properties) :=
    Properties.sortKeys_eq (by decide +kernel) (by decide +kernel)
  rw [collectSorted, hcollect, ← hsorted]
  simp [sortProperties, Kind.sortProperties, Node.new]

theorem reachable_receipt_ne :
    receipt.collectSorted.reachable ≠ List.range receipt.collectSorted.size := by
  have hrow : receipt.collectSorted.reachable = [0, 2, 1] := by
    rw [collectSorted_receipt]
    decide +kernel
  have hsize : receipt.collectSorted.size = 3 := by rw [collectSorted_receipt]; rfl
  rw [hrow, hsize]
  decide

/-- Only the second collection of the receipt is for good. -/
theorem sorted_collection_settles_receipt :
    receipt.WellFormed ∧ receipt.collectSorted.collectSorted ≠ receipt.collectSorted ∧
      receipt.collectSorted.collectSorted.collectSorted = receipt.collectSorted.collectSorted := by
  have hg : receipt.WellFormed := ⟨by decide, by decide⟩
  obtain ⟨hagain, horder, hsettled, -⟩ := sorted_collection_settles hg
  exact ⟨hg, fun h => reachable_receipt_ne (horder.2 (hagain.1 h)), hsettled⟩

/-- A second collection with sorted properties may change the graph, and the first one may number
    nodes in another order than it meets them. -/
theorem not_forall_collectSorted :
    (¬∀ g : Graph, g.WellFormed → g.collectSorted.collectSorted = g.collectSorted) ∧
      ¬∀ g : Graph, g.WellFormed → g.collectSorted.reachable = List.range g.collectSorted.size := by
  have hg : receipt.WellFormed := ⟨by decide, by decide⟩
  constructor
  · intro h
    have hagain := collectSorted_of_sorted (sortProperties_sortProperties receipt.collect)
    rw [← collectSorted, h receipt hg] at hagain
    exact reachable_receipt_ne ((collect_eq_self_iff (wellFormed_collectSorted hg)).1 hagain.symm)
  · exact fun h => reachable_receipt_ne (h receipt hg)

end Graph

end SchemaTypes
