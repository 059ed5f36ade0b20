/-
  The numbers that collection gives.

  Collection numbers nodes in the order in which a walk meets them, and numbering changes the
  order in which the walk goes on from unions and intersections: their members are sorted.  But
  they are sorted as they were met, so nothing changes:

  * `foldl_visit_of_sorted`: numbers may be visited in the order in which a longer walk meets
    them, instead of any other;
  * `order_visit_map`: a walk over renamed nodes meets the new names in the same order;
  * `reachable_collect`: so the nodes of a collected graph are met in the order of their places;
  * `collect_collect`: **collection changes nothing in a collected graph**.
-/
import SchemaTypes.Proofs.Keeping

namespace SchemaTypes

section

variable {n n' : Nat} {next next' : Nat → List Nat} {row : List Nat} {p : Nat → Nat}

/-! ## Depth -/

/-- Nothing is visited where all numbers were met. -/
theorem visit_of_le {m : Met n} (h : n ≤ m.order.length) (d r : Nat) : visit next d m r = m := by
  cases d with
  | zero => rfl
  | succ d => rw [visit, dif_neg (m.not_lacks_of_le h r)]

theorem visit_of_mem {m : Met n} {r : Nat} (h : r ∈ m.order) (d : Nat) : visit next d m r = m := by
  cases d with
  | zero => rfl
  | succ d => rw [visit, dif_neg fun hr => (Met.lacks_iff.1 hr).2 h]

theorem foldl_visit_of_mem {m : Met n} {rs : List Nat} (h : ∀ r ∈ rs, r ∈ m.order) (d : Nat) :
    rs.foldl (visit next d) m = m := by
  induction rs with
  | nil => rfl
  | cons r rs ih =>
    rw [List.foldl_cons, visit_of_mem (h r List.mem_cons_self) d]
    exact ih fun s hs => h s (List.mem_cons_of_mem r hs)

theorem foldl_visit_append {m : Met n} {pre : List Nat} (hpre : ∀ s ∈ pre, s ∈ m.order) (d c : Nat)
    (rest : List Nat) : (pre ++ c :: rest).foldl (visit next d) m =
      rest.foldl (visit next d) (visit next d m c) := by
  rw [List.foldl_append, foldl_visit_of_mem hpre, List.foldl_cons]

/-- A number that is lacking is met first. -/
theorem cons_suffix_visit {d : Nat} {m : Met n} {r : Nat} (hd : n ≤ d + m.order.length)
    (hr : m.lacks r) : r :: m.order <:+ (visit next d m r).order := by
  cases d with
  | zero => exact absurd hr (m.not_lacks_of_le (by omega) r)
  | succ d =>
    rw [visit, dif_pos hr]
    exact suffix_foldl (suffix_visit d) (next r) (m.add r hr)

/-- Visits in turn are the same for two bounds on their depth, if each one is. -/
theorem foldl_visit_congr {d d' : Nat}
    (hv : ∀ (m : Met n) r, n ≤ d + m.order.length → n ≤ d' + m.order.length →
      visit next d m r = visit next d' m r)
    (rs : List Nat) (m : Met n) (hd : n ≤ d + m.order.length) (hd' : n ≤ d' + m.order.length) :
    rs.foldl (visit next d) m = rs.foldl (visit next d') m := by
  induction rs generalizing m with
  | nil => rfl
  | cons r rs ih =>
    have hstep : m.order <:+ (visit next d' m r).order := suffix_visit ..
    have hlen := hstep.length_le
    rw [List.foldl_cons, List.foldl_cons, hv m r hd hd']
    exact ih _ (by omega) (by omega)

/-- Any bound on the depth that suffices gives the same visit. -/
theorem visit_eq_of_le (d d' : Nat) (m : Met n) (r : Nat) (hd : n ≤ d + m.order.length)
    (hd' : n ≤ d' + m.order.length) : visit next d m r = visit next d' m r := by
  induction d generalizing d' m r with
  | zero => rw [visit_of_le (by omega), visit_of_le (by omega)]
  | succ d ih =>
    cases d' with
    | zero => rw [visit_of_le (by omega), visit_of_le (by omega)]
    | succ d' =>
      simp only [visit]
      split
      · next h =>
        have hlen : (m.add r h).order.length = m.order.length + 1 := by simp
        exact foldl_visit_congr (ih d') (next r) _ (by omega) (by omega)
      · rfl

/-! ## Order -/

/-- The places of numbers in a row that lists the last one first. -/
def Numbers (p : Nat → Nat) (row : List Nat) : Prop :=
  ∀ r l, r :: l <:+ row → p r = l.length

/-- What was not met before is further down the row. -/
theorem Numbers.length_le (hp : Numbers p row) {l : List Nat} (hl : l <:+ row) {r : Nat}
    (hr : r ∈ row) (hrl : r ∉ l) : l.length ≤ p r := by
  obtain ⟨s, t, rfl⟩ := List.append_of_mem hr
  have hrt : r :: t <:+ s ++ r :: t := List.suffix_append s (r :: t)
  rw [hp r t hrt]
  refine Nat.not_lt.1 fun hlt => hrl ?_
  have hsub : r :: t <:+ l := List.suffix_of_suffix_length_le hrt hl (by simp; omega)
  exact hsub.subset List.mem_cons_self

/-- Only the number met next has the next place. -/
theorem Numbers.mem_of_lt (hp : Numbers p row) {l : List Nat} {r s : Nat}
    (hl : r :: l <:+ row) (hs : s ∈ row) (hlt : p s < p r) : s ∈ l := by
  rw [hp r l hl] at hlt
  refine Decidable.byContradiction fun hsl => ?_
  have hle := hp.length_le ((List.suffix_cons r l).trans hl) hs hsl
  omega

/-- The number met next comes first among sorted ones, but for such as were met before. -/
theorem exists_foldl_visit_eq (hp : Numbers p row) {d : Nat} {cs : List Nat} {m : Met n} {c : Nat}
    (hd : n ≤ d + m.order.length) (hrow : (visit next d m c).order <:+ row) (hc : c < n)
    (hcs : c ∈ m.order ∨ c ∈ cs) (hmem : ∀ s ∈ cs, s ∈ row) (hsorted : cs.Pairwise (p · < p ·)) :
    ∃ rest : List Nat, rest.Sublist cs ∧ (∀ s ∈ cs, s ∈ (visit next d m c).order ∨ s ∈ rest) ∧
      cs.foldl (visit next d) m = rest.foldl (visit next d) (visit next d m c) := by
  by_cases hcm : c ∈ m.order
  · exact ⟨cs, .refl cs, fun s hs => .inr hs, by rw [visit_of_mem hcm]⟩
  have hstep : c :: m.order <:+ (visit next d m c).order :=
    cons_suffix_visit hd (Met.lacks_iff.2 ⟨hc, hcm⟩)
  obtain ⟨pre, rest, rfl⟩ := List.append_of_mem (hcs.resolve_left hcm)
  have hpre : ∀ s ∈ pre, s ∈ m.order := fun s hs =>
    hp.mem_of_lt (hstep.trans hrow) (hmem s (List.mem_append_left _ hs))
      ((List.pairwise_append.1 hsorted).2.2 s hs c List.mem_cons_self)
  refine ⟨rest, (List.sublist_cons_self c rest).trans (List.sublist_append_right pre _),
    fun s hs => ?_, ?_⟩
  · rcases List.mem_append.1 hs with hs | hs
    · exact .inl (hstep.subset (List.mem_cons_of_mem c (hpre s hs)))
    · rcases List.mem_cons.1 hs with rfl | hs
      · exact .inl (hstep.subset List.mem_cons_self)
      · exact .inr hs
  · exact foldl_visit_append hpre d c rest

/-- Numbers may be visited in the order of their places in a row that the visits are part of. -/
theorem foldl_visit_of_sorted (hp : Numbers p row) {d : Nat} {cs cs' : List Nat} {m : Met n}
    (hd : n ≤ d + m.order.length) (hrow : (cs.foldl (visit next d) m).order <:+ row)
    (hlt : ∀ c ∈ cs, c < n) (hmem : ∀ c ∈ cs', c ∈ m.order ∨ c ∈ cs)
    (hmem' : ∀ c ∈ cs, c ∈ m.order ∨ c ∈ cs') (hsorted : cs'.Pairwise (p · < p ·)) :
    cs'.foldl (visit next d) m = cs.foldl (visit next d) m := by
  induction cs generalizing cs' m with
  | nil => exact foldl_visit_of_mem (fun c hc => (hmem c hc).resolve_right List.not_mem_nil) d
  | cons c cs ih =>
    have hrest : (visit next d m c).order <:+ (cs.foldl (visit next d) (visit next d m c)).order :=
      suffix_foldl (suffix_visit d) ..
    have hstep : m.order <:+ (visit next d m c).order := suffix_visit ..
    have hfull : ∀ r ∈ c :: cs, r < n → r ∈ ((c :: cs).foldl (visit next d) m).order :=
      (foldl_visit_spec (visit_spec d) (c :: cs) m hd).1
    have hrow' : ∀ s ∈ cs', s ∈ row := fun s hs => by
      rcases hmem s hs with hs | hs
      · exact hrow.subset (hrest.subset (hstep.subset hs))
      · exact hrow.subset (hfull s hs (hlt s hs))
    obtain ⟨rest, hsub, hcover, heq⟩ := exists_foldl_visit_eq hp hd (hrest.trans hrow)
      (hlt c List.mem_cons_self) (hmem' c List.mem_cons_self) hrow' hsorted
    rw [heq, List.foldl_cons]
    have hlen := hstep.length_le
    refine ih (by omega) hrow (fun s hs => hlt s (List.mem_cons_of_mem c hs)) (fun s hs => ?_)
      (fun s hs => ?_) (hsorted.sublist hsub)
    · rcases hmem s (hsub.subset hs) with hs | hs
      · exact .inl (hstep.subset hs)
      rcases List.mem_cons.1 hs with rfl | hs
      · exact .inl ((visit_spec d m s hd).1 (hlt s List.mem_cons_self))
      · exact .inr hs
    · rcases hmem' s (List.mem_cons_of_mem c hs) with hs | hs
      · exact .inl (hstep.subset hs)
      · exact hcover s hs

/-! ## Renamed numbers -/

/-- Visits in turn meet the names of what they meet, if each one does. -/
theorem order_foldl_map {d : Nat}
    (hv : ∀ (m : Met n) (m' : Met n') r, n ≤ d + m.order.length → m'.order = m.order.map p →
      r ∈ row → (visit next d m r).order <:+ row →
        (visit next' d m' (p r)).order = (visit next d m r).order.map p)
    (cs : List Nat) (m : Met n) (m' : Met n') (hd : n ≤ d + m.order.length)
    (hm : m'.order = m.order.map p) (hcs : ∀ c ∈ cs, c ∈ row)
    (hrow : (cs.foldl (visit next d) m).order <:+ row) :
    ((cs.map p).foldl (visit next' d) m').order = (cs.foldl (visit next d) m).order.map p := by
  induction cs generalizing m m' with
  | nil => exact hm
  | cons c cs ih =>
    have hstep : (visit next d m c).order <:+ row :=
      (suffix_foldl (suffix_visit d) cs (visit next d m c)).trans hrow
    have hvisit : m.order <:+ (visit next d m c).order := suffix_visit ..
    have hlen := hvisit.length_le
    have hc := hv m m' c hd hm (hcs c List.mem_cons_self) hstep
    exact ih _ _ (by omega) hc (fun s hs => hcs s (List.mem_cons_of_mem c hs)) hrow

/-- Numbers of a row are renamed.  The successors of the names are the names of the successors, in
    the same order or, if the names are the places in the row, in that of the names. -/
structure Renaming (n n' : Nat) (next next' : Nat → List Nat) (row : List Nat) (p : Nat → Nat) :
    Prop where
  injective : ∀ r ∈ row, ∀ s ∈ row, p r = p s → r = s
  lt : ∀ r ∈ row, r < n
  lt' : ∀ r ∈ row, p r < n'
  closed : ∀ r ∈ row, ∀ c ∈ next r, c ∈ row
  next_eq : ∀ r ∈ row, ∃ cs, next' (p r) = cs.map p ∧ (∀ c, c ∈ cs ↔ c ∈ next r) ∧
    (cs = next r ∨ Numbers p row ∧ cs.Pairwise (p · < p ·))

variable (h : Renaming n n' next next' row p)

include h

theorem Renaming.lacks_iff {m : Met n} {m' : Met n'} (hm : m'.order = m.order.map p)
    (hrow : m.order <:+ row) {r : Nat} (hr : r ∈ row) : m'.lacks (p r) ↔ m.lacks r := by
  rw [Met.lacks_iff, Met.lacks_iff, hm]
  refine and_congr (iff_of_true (h.lt' r hr) (h.lt r hr)) (not_congr ⟨fun hmem => ?_, fun hmem => ?_⟩)
  · obtain ⟨s, hs, heq⟩ := List.mem_map.1 hmem
    exact h.injective s (hrow.subset hs) r hr heq ▸ hs
  · exact List.mem_map_of_mem hmem

/-- **A walk over renamed numbers meets their names in the same order.** -/
theorem Renaming.order_visit (d : Nat) (m : Met n) (m' : Met n') (r : Nat)
    (hd : n ≤ d + m.order.length) (hm : m'.order = m.order.map p) (hr : r ∈ row)
    (hrow : (visit next d m r).order <:+ row) :
    (visit next' d m' (p r)).order = (visit next d m r).order.map p := by
  induction d generalizing m m' r with
  | zero => exact hm
  | succ d ih =>
    have hstep : m.order <:+ (visit next (d + 1) m r).order := suffix_visit ..
    have hlacks := h.lacks_iff hm (hstep.trans hrow) hr
    simp only [visit] at hrow ⊢
    by_cases hl : m.lacks r
    · rw [dif_pos hl] at hrow ⊢
      rw [dif_pos (hlacks.2 hl)]
      have hlen : (m.add r hl).order.length = m.order.length + 1 := by simp
      obtain ⟨cs, hcs, hiff, hor⟩ := h.next_eq r hr
      have hin : ∀ c ∈ next r, c ∈ row := h.closed r hr
      have heq : cs.foldl (visit next d) (m.add r hl) =
          (next r).foldl (visit next d) (m.add r hl) := by
        rcases hor with rfl | ⟨hnumbers, hsorted⟩
        · rfl
        · exact foldl_visit_of_sorted hnumbers (by omega) hrow (fun c hc => h.lt c (hin c hc))
            (fun c hc => .inr ((hiff c).1 hc)) (fun c hc => .inr ((hiff c).2 hc)) hsorted
      rw [← heq] at hrow ⊢
      rw [hcs]
      refine order_foldl_map ih cs (m.add r hl) _ (by omega) ?_ (fun c hc => hin c ((hiff c).1 hc))
        hrow
      rw [Met.order_add, Met.order_add, hm, List.map_cons]
    · rw [dif_neg hl, dif_neg fun hl' => hl (hlacks.1 hl')]
      exact hm

end

theorem OrderedMap.mapValues_eq_self {κ ν : Type} {f : ν → ν} {m : OrderedMap κ ν}
    (h : ∀ v ∈ m.values, f v = v) : m.mapValues f = m := by
  obtain ⟨entries, hdistinct⟩ := m
  have hentries : entries.map (fun e => (e.1, f e.2)) = entries := by
    refine (List.map_congr_left fun e he => ?_).trans (List.map_id' entries)
    rw [h e.2 (List.mem_map_of_mem he)]
  simp only [mapValues, hentries]

namespace Graph

variable {g : Graph}

/-! ## Collected graphs -/

/-- The node at a place of the row of reachable nodes. -/
def unplace (g : Graph) (i : NodeId) : NodeId := g.reachable.getD i 0

theorem unplace_place {r : NodeId} (hr : r ∈ g.reachable) : g.unplace (g.place r) = r := by
  obtain ⟨hp, e⟩ := getElem_place hr
  rw [unplace, List.getD_eq_getElem?_getD, List.getElem?_eq_getElem hp, Option.getD_some, e]

theorem place_unplace {i : NodeId} (hi : i < g.reachable.length) : g.place (g.unplace i) = i := by
  rw [unplace, List.getD_eq_getElem?_getD, List.getElem?_eq_getElem hi, Option.getD_some,
    place_getElem]

theorem map_place_reachable (g : Graph) :
    g.reachable.map g.place = List.range g.reachable.length := by
  refine List.ext_getElem (by simp) fun i hi _ => ?_
  rw [List.getElem_map, List.getElem_range, place_getElem]

theorem map_unplace_range (g : Graph) :
    (List.range g.reachable.length).map g.unplace = g.reachable := by
  rw [← map_place_reachable, List.map_map]
  exact (List.map_congr_left fun r hr => unplace_place hr).trans (List.map_id' _)

theorem numbers_place : Numbers g.place g.reachable.reverse := by
  rintro r l ⟨s, hs⟩
  have hrow : g.reachable = l.reverse ++ r :: s.reverse := by
    rw [← List.reverse_reverse g.reachable, ← hs]
    simp
  have hlt : l.length < g.reachable.length := by
    rw [hrow]
    simp
  have hget : g.reachable[l.length] = r := by
    simp [hrow]
  rw [← hget, place_getElem]

/-- The members of a renamed set, in the order of their names. -/
theorem exists_members {ms : SortedSet NodeId} (hms : ∀ m ∈ ms, m ∈ g.reachable) :
    ∃ cs : List NodeId, (ms.map g.place).toList = cs.map g.place ∧ (∀ c, c ∈ cs ↔ c ∈ ms) ∧
      cs.Pairwise (g.place · < g.place ·) := by
  have hmap : (ms.map g.place).toList = ((ms.map g.place).toList.map g.unplace).map g.place := by
    rw [List.map_map]
    refine (List.map_id' _).symm.trans (List.map_congr_left fun i hi => ?_)
    obtain ⟨m, hm, rfl⟩ := SortedSet.mem_map.1 hi
    rw [Function.comp_apply, unplace_place (hms m hm)]
  refine ⟨_, hmap, fun c => ⟨fun hc => ?_, fun hc => ?_⟩, ?_⟩
  · obtain ⟨i, hi, rfl⟩ := List.mem_map.1 hc
    obtain ⟨m, hm, rfl⟩ := SortedSet.mem_map.1 hi
    rwa [unplace_place (hms m hm)]
  · exact List.mem_map.2 ⟨g.place c, SortedSet.mem_map.2 ⟨c, hc, rfl⟩, unplace_place (hms c hc)⟩
  · rw [← List.pairwise_map (f := g.place), ← hmap]
    exact (ms.map g.place).sorted

theorem exists_children {k : Kind} (hk : ∀ c ∈ k.children, c ∈ g.reachable) :
    ∃ cs, (k.mapChildren g.place).children = cs.map g.place ∧ (∀ c, c ∈ cs ↔ c ∈ k.children) ∧
      (cs = k.children ∨ cs.Pairwise (g.place · < g.place ·)) := by
  cases k with
  | union ms =>
    obtain ⟨cs, hcs, hiff, hsorted⟩ := exists_members hk
    exact ⟨cs, hcs, hiff, .inr hsorted⟩
  | intersection ms =>
    obtain ⟨cs, hcs, hiff, hsorted⟩ := exists_members hk
    exact ⟨cs, hcs, hiff, .inr hsorted⟩
  | object ps a =>
    refine ⟨_, ?_, fun c => Iff.rfl, .inl rfl⟩
    cases a <;> simp [Kind.mapChildren, Kind.children]
  | _ => exact ⟨_, by simp [Kind.mapChildren, Kind.children], fun c => Iff.rfl, .inl rfl⟩

theorem renaming_place (hg : g.WellFormed) :
    Renaming g.size g.collect.size (fun r => (g.kind r).children)
      (fun r => (g.collect.kind r).children) g.reachable.reverse g.place where
  injective r hr s hs := place_injective (List.mem_reverse.1 hr) (List.mem_reverse.1 hs)
  lt r hr := lt_of_mem_walk (List.mem_reverse.1 hr)
  lt' r hr := by
    rw [size_collect]
    exact (getElem_place (List.mem_reverse.1 hr)).1
  closed r hr c hc :=
    List.mem_reverse.2 (mem_reachable_of_mem_children hg (List.mem_reverse.1 hr) hc)
  next_eq r hr := by
    have hr := List.mem_reverse.1 hr
    rw [kind_collect hr]
    obtain ⟨cs, hcs, hiff, hor⟩ :=
      exists_children fun c hc => mem_reachable_of_mem_children hg hr hc
    exact ⟨cs, hcs, hiff, hor.imp_right fun hsorted => ⟨numbers_place, hsorted⟩⟩

theorem values_topLevels_collect (g : Graph) :
    g.collect.topLevels.values = g.topLevels.values.map g.place := by
  have htop : g.collect.topLevels = g.topLevels.mapValues g.place := rfl
  simp [htop, OrderedMap.values, OrderedMap.mapValues]

theorem size_collect_le (g : Graph) : g.collect.size ≤ g.size := by
  rw [size_collect]
  exact Met.length_le_of_nodup nodup_walk fun r => lt_of_mem_walk

/-- Any bound on the depth that suffices gives the same walk from the top levels. -/
theorem reverse_reachable {n d : Nat} (hn : g.size = n) (hd : n ≤ d) :
    (g.topLevels.values.foldl (visit (fun r => (g.kind r).children) d) (.nothing n)).order =
      g.reachable.reverse := by
  subst hn
  rw [reachable, walk, List.reverse_reverse, foldl_visit_congr (visit_eq_of_le d g.size) _ _
    (Nat.le_trans hd (Nat.le_add_right _ _)) (Nat.le_add_right _ _)]

/-- The nodes of a collected graph are met in the order of their places. -/
theorem reachable_collect (hg : g.WellFormed) :
    g.collect.reachable = List.range g.collect.size := by
  have H := renaming_place hg
  have hrow := reverse_reachable (g := g) rfl (Nat.le_refl _)
  have hmet : g.collect.reachable.reverse = g.reachable.reverse.map g.place := by
    rw [← reverse_reachable rfl g.size_collect_le, values_topLevels_collect, ← hrow]
    refine order_foldl_map (H.order_visit g.size) _ _ _ (Nat.le_add_right _ _) rfl (fun r hr => ?_)
      (hrow ▸ List.suffix_refl _)
    exact List.mem_reverse.2 (mem_reachable_of_mem_values hg hr)
  rw [List.map_reverse, List.reverse_inj] at hmet
  rw [hmet, size_collect, map_place_reachable]

theorem place_of_reachable_eq (hg : g.reachable = List.range g.size) {r : NodeId} (hr : r < g.size) :
    g.place r = r := by
  have hlt : r < g.reachable.length := by
    rw [hg, List.length_range]
    exact hr
  have hget : g.reachable[r] = r := by simp [hg]
  have hplace := place_getElem hlt
  rwa [hget] at hplace

/-- Graphs are equal if their nodes and top levels are. -/
theorem eq_of_node_eq {h : Graph} (hsize : g.size = h.size) (hnode : ∀ r < g.size, g.node r = h.node r)
    (htop : g.topLevels = h.topLevels) : g = h := by
  have hnodes : g.nodes = h.nodes := by
    refine Array.ext hsize fun r hr hr' => ?_
    simpa [node, Array.getD, hr, hr'] using hnode r hr
  cases g
  cases h
  rw [Graph.mk.injEq]
  exact ⟨hnodes, htop⟩

/-- A graph whose nodes are met in the order of their places is collected. -/
theorem collect_of_reachable_eq (hg : g.WellFormed) (h : g.reachable = List.range g.size) :
    g.collect = g := by
  have hmem : ∀ r < g.size, r ∈ g.reachable := fun r hr => by
    rw [h]
    exact List.mem_range.2 hr
  have hsize : g.collect.size = g.size := by rw [size_collect, h, List.length_range]
  refine eq_of_node_eq hsize (fun r hr => ?_) ?_
  · rw [hsize] at hr
    have hnode := node_collect (hmem r hr)
    have hkind : (g.kind r).mapChildren g.place = g.kind r :=
      (Kind.mapChildren_congr fun c hc => place_of_reachable_eq h (hg.lt_of_mem_children hc)).trans
        (Kind.mapChildren_id _)
    rw [place_of_reachable_eq h hr, hkind] at hnode
    exact hnode
  · have htop : g.collect.topLevels = g.topLevels.mapValues g.place := rfl
    rw [htop]
    refine OrderedMap.mapValues_eq_self fun r hr => place_of_reachable_eq h (hg.2 r hr)

/-- **Collection changes nothing in a collected graph.** -/
theorem collect_collect (hg : g.WellFormed) : g.collect.collect = g.collect :=
  collect_of_reachable_eq (kept_collect hg).wellFormed (reachable_collect hg)

end Graph

end SchemaTypes
