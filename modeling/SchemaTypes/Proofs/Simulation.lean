/-
  From what a graph admits to what a rewritten graph admits.

  * `Graph.Grows`: nodes are added and no kind is changed; `Graph.extendedBy` adds the nodes
    of a grown graph to another graph, so that the old kinds can be kept beside the new ones;
  * `Admits.transfer`: a rewritten graph admits whatever the graph with the old kinds does, if
    each node keeps its kind or lands on a ground kind that admits the value.
-/
import SchemaTypes.Proofs.Collection

namespace SchemaTypes.Graph

variable {ρ : Reading}

/-! ## Growth -/

/-- The graph gets further nodes; the kinds of the others and the top levels stay. -/
structure Grows (g g' : Graph) : Prop where
  size_le : g.size ≤ g'.size
  kind_eq : ∀ r < g.size, g'.kind r = g.kind r
  topLevels_eq : g'.topLevels = g.topLevels
  lt_size : ∀ r, g.size ≤ r → ∀ c ∈ (g'.kind r).children, c < g'.size

namespace Grows

variable {g g' g'' : Graph}

theorem refl (g : Graph) : g.Grows g where
  size_le := Nat.le_refl _
  kind_eq _ _ := rfl
  topLevels_eq := rfl
  lt_size r hr c hc := by
    rw [kind_eq_nothing_of_le hr] at hc
    simp [Kind.children] at hc

theorem trans (h : g.Grows g') (h' : g'.Grows g'') : g.Grows g'' where
  size_le := Nat.le_trans h.size_le h'.size_le
  kind_eq r hr := by rw [h'.kind_eq r (Nat.lt_of_lt_of_le hr h.size_le), h.kind_eq r hr]
  topLevels_eq := h'.topLevels_eq.trans h.topLevels_eq
  lt_size r hr c hc := by
    by_cases hr' : r < g'.size
    · rw [h'.kind_eq r hr'] at hc
      exact Nat.lt_of_lt_of_le (h.lt_size r hr c hc) h'.size_le
    · exact h'.lt_size r (Nat.not_lt.1 hr') c hc

theorem wellFormed (h : g.Grows g') (hg : g.WellFormed) : g'.WellFormed := by
  refine wellFormed_of_children (fun r c hc => ?_) fun r hr => ?_
  · by_cases hr : r < g.size
    · rw [h.kind_eq r hr] at hc
      exact Nat.lt_of_lt_of_le (hg.lt_of_mem_children hc) h.size_le
    · exact h.lt_size r (Nat.not_lt.1 hr) c hc
  · rw [h.topLevels_eq] at hr
    exact Nat.lt_of_lt_of_le (hg.2 r hr) h.size_le

end Grows

theorem kind_push (g : Graph) (n : Node) (r : NodeId) :
    (g.push n).kind r = if r = g.size then n.kind else g.kind r := by
  rw [kind, node_push]
  split <;> rfl

theorem kind_modify (g : Graph) (r s : NodeId) (f : Node → Node) (h : s < g.size) :
    (g.modify r f).kind s = if r = s then (f (g.node s)).kind else g.kind s := by
  rw [kind, node_modify g r s f h]
  split <;> rfl

/-- What is anywhere after one node changed. -/
theorem node_modify_eq (g : Graph) (r t : NodeId) (f : Node → Node) :
    (g.modify r f).node t = if r = t ∧ t < g.size then f (g.node t) else g.node t := by
  by_cases ht : t < g.size
  · simp only [node_modify _ _ _ _ ht, ht, and_true]
  · rw [if_neg fun h => ht h.2, node_eq_default_of_le (by simpa using ht),
      node_eq_default_of_le (Nat.not_lt.1 ht)]

/-- Where the kind of one node is set, the others keep theirs. -/
theorem kind_modify_cases (g : Graph) (r s : NodeId) {f : Node → Node} {k : Kind}
    (hf : ∀ n, (f n).kind = k) :
    (g.modify r f).kind s = g.kind s ∨ r = s ∧ (g.modify r f).kind s = k := by
  rw [kind, node_modify_eq]
  split
  · next hrs => exact .inr ⟨hrs.1, hf _⟩
  · exact .inl rfl

/-- A node may change if its children are places of nodes. -/
theorem WellFormed.modify {g : Graph} (hg : g.WellFormed) {r : NodeId} {f : Node → Node}
    (hc : ∀ n, ∀ c ∈ (f n).kind.children, c < g.size) : (g.modify r f).WellFormed := by
  refine wellFormed_of_children (fun s c hcs => ?_) fun s hs => ?_
  · rw [size_modify]
    by_cases hs : s < g.size
    · rw [kind_modify _ _ _ _ hs] at hcs
      split at hcs
      · exact hc _ c hcs
      · exact hg.lt_of_mem_children hcs
    · rw [kind_eq_nothing_of_le (by simpa using hs)] at hcs
      simp [Kind.children] at hcs
  · simpa using hg.2 s hs

theorem grows_push {g : Graph} {n : Node} (h : ∀ c ∈ n.kind.children, c < g.size + 1) :
    g.Grows (g.push n) where
  size_le := by simp
  kind_eq r hr := by rw [kind_push, if_neg (Nat.ne_of_lt hr)]
  topLevels_eq := rfl
  lt_size r hr c hc := by
    rw [kind_push] at hc
    split at hc
    · simpa using h c hc
    · rw [kind_eq_nothing_of_le hr] at hc
      simp [Kind.children] at hc

/-- Attributes may change. -/
theorem grows_modify {g : Graph} {r : NodeId} {f : Node → Node} (h : ∀ n, (f n).kind = n.kind) :
    g.Grows (g.modify r f) where
  size_le := by simp
  kind_eq s hs := by
    rw [kind_modify _ _ _ _ hs, h]
    split <;> rfl
  topLevels_eq := rfl
  lt_size s hs c hc := by
    rw [kind_eq_nothing_of_le (by simpa using hs)] at hc
    simp [Kind.children] at hc

theorem grows_setAttributes (g : Graph) (r : NodeId) (a : Attributes) :
    g.Grows (g.setAttributes r a) :=
  grows_modify fun _ => rfl

@[simp] theorem size_addAttributes (g : Graph) (r : NodeId) (a : Attributes) :
    (g.addAttributes r a).size = g.size := by
  rw [addAttributes]
  split
  · rfl
  · simp [setAttributes]

theorem grows_addAttributes (g : Graph) (r : NodeId) (a : Attributes) :
    g.Grows (g.addAttributes r a) := by
  rw [addAttributes]
  split
  · exact .refl g
  · exact grows_setAttributes ..

@[simp] theorem kind_addAttributes (g : Graph) (r : NodeId) (a : Attributes) (s : NodeId) :
    (g.addAttributes r a).kind s = g.kind s := by
  by_cases hs : s < g.size
  · exact (grows_addAttributes g r a).kind_eq s hs
  · rw [kind_eq_nothing_of_le (by simpa using hs), kind_eq_nothing_of_le (Nat.not_lt.1 hs)]

/-! ## Old kinds beside new ones -/

/-- The graph with the nodes that another has beyond it. -/
def extendedBy (h g : Graph) : Graph where
  nodes := h.nodes ++ g.nodes.extract h.size
  topLevels := h.topLevels

theorem kind_extendedBy (h g : Graph) (r : NodeId) :
    (h.extendedBy g).kind r = if r < h.size then h.kind r else g.kind r := by
  simp only [kind, node, extendedBy, size, Array.getD_eq_getD_getElem?, Array.getElem?_append]
  split
  · rfl
  · next hr =>
    simp only [Array.getElem?_extract]
    split
    · rw [show h.nodes.size + (r - h.nodes.size) = r by omega]
    · rw [Array.getElem?_eq_none (by omega)]

theorem size_extendedBy {h g : Graph} (hle : h.size ≤ g.size) : (h.extendedBy g).size = g.size := by
  simp only [size, extendedBy, Array.size_append, Array.size_extract] at *
  omega

theorem grows_extendedBy {h g g₁ : Graph} (hs : h.size = g.size) (hg : g.Grows g₁) :
    h.Grows (h.extendedBy g₁) where
  size_le := by
    rw [size_extendedBy (hs ▸ hg.size_le), hs]
    exact hg.size_le
  kind_eq r hr := by rw [kind_extendedBy, if_pos hr]
  topLevels_eq := rfl
  lt_size r hr c hc := by
    rw [kind_extendedBy, if_neg (Nat.not_lt.2 hr)] at hc
    rw [size_extendedBy (hs ▸ hg.size_le)]
    exact hg.lt_size r (hs ▸ hr) c hc

/-- Nodes admit what they did when the graph grows. -/
theorem Grows.admits_iff {g g' : Graph} (h : g.Grows g') (hg : g.WellFormed) {r : NodeId}
    (hr : r < g.size) {v : Json} : g'.Admits ρ r v ↔ g.Admits ρ r v := by
  have hP : ∀ r, r < g.size → ∀ c ∈ (g.kind r).children, c < g.size :=
    fun r _ c hc => hg.lt_of_mem_children hc
  constructor
  · refine Admits.rename (f := id) (P := (· < g.size)) (fun r hr => ?_) (fun r hr => ?_) hr
    · rw [Kind.mapChildren_id, id_eq, h.kind_eq r hr]
    · rw [h.kind_eq r hr]
      exact hP r hr
  · refine Admits.rename (f := id) (P := (· < g.size)) (fun r hr => ?_) hP hr
    rw [Kind.mapChildren_id, id_eq, h.kind_eq r hr]

/-- A graph under change and a graph with as many nodes that keeps the kinds of a third. -/
structure Beside (g₀ g h : Graph) : Prop where
  size_eq : h.size = g.size
  grows : g₀.Grows h
  topLevels_eq : g.topLevels = g₀.topLevels
  wellFormed : g.WellFormed

namespace Beside

variable {g₀ g h : Graph}

theorem refl (hg : g.WellFormed) : Beside g g g := ⟨rfl, .refl g, rfl, hg⟩

/-- New nodes get their kinds beside the old ones. -/
theorem extend (H : Beside g₀ g h) {g₁ : Graph} (h₁ : g.Grows g₁) :
    Beside g₀ g₁ (h.extendedBy g₁) where
  size_eq := size_extendedBy (H.size_eq ▸ h₁.size_le)
  grows := H.grows.trans (grows_extendedBy H.size_eq h₁)
  topLevels_eq := h₁.topLevels_eq.trans H.topLevels_eq
  wellFormed := h₁.wellFormed H.wellFormed

theorem lt_of_mem_children (H : Beside g₀ g h) {r c : NodeId} (hc : c ∈ (g.kind r).children) :
    c < h.size :=
  H.size_eq ▸ H.wellFormed.lt_of_mem_children hc

/-- Nodes admit what they did when new ones come. -/
theorem admits_extendedBy (H : Beside g₀ g h) (hg₀ : g₀.WellFormed) {g₁ : Graph}
    (h₁ : g.Grows g₁) {r : NodeId} (hr : r < h.size) {v : Json} :
    (h.extendedBy g₁).Admits ρ r v ↔ h.Admits ρ r v :=
  (grows_extendedBy H.size_eq h₁).admits_iff (H.grows.wellFormed hg₀) hr

theorem modify (H : Beside g₀ g h) {r : NodeId} {f : Node → Node}
    (hc : ∀ n, ∀ c ∈ (f n).kind.children, c < h.size) : Beside g₀ (g.modify r f) h where
  size_eq := by simpa using H.size_eq
  grows := H.grows
  topLevels_eq := H.topLevels_eq
  wellFormed := H.wellFormed.modify fun n c h => H.size_eq ▸ hc n c h

end Beside

/-! ## Redirected references -/

theorem follow_of_none {moved : Redirection} {r : NodeId} (h : moved.get? r = none) :
    moved.follow r = r := by
  unfold Redirection.follow
  cases moved.toList.length with
  | zero => rfl
  | succ n => rw [Redirection.followFrom, h]

/-- A node that is redirected to one that is not ends there. -/
theorem follow_of_some {moved : Redirection} {r m : NodeId} (h : moved.get? r = some m)
    (hm : moved.get? m = none) : moved.follow r = m := by
  have hne : m ≠ r := by
    rintro rfl
    rw [h] at hm
    cases hm
  unfold Redirection.follow
  generalize hn : moved.toList.length = n
  cases n with
  | zero =>
    rw [SortedMap.get?, List.length_eq_zero_iff.1 hn] at h
    cases h
  | succ n =>
    rw [Redirection.followFrom, h]
    simp only [hne, or_self, if_false]
    cases n with
    | zero => rfl
    | succ n => rw [Redirection.followFrom, hm]

/-- What is kept along each redirection is kept along chains of them. -/
theorem follow_induction {moved : Redirection} {P : NodeId → Prop}
    (hP : ∀ r m, moved.get? r = some m → P r → P m) {r : NodeId} (hr : P r) :
    P (moved.follow r) := by
  have key : ∀ start n r, P r → P (moved.followFrom start n r) := by
    intro start n
    induction n with
    | zero => exact fun r hr => hr
    | succ n ih =>
      intro r hr
      unfold Redirection.followFrom
      split
      · next m hm =>
        split
        · exact hr
        · exact ih m (hP r m hm hr)
      · exact hr
  exact key r _ r hr

theorem admitsAt_forward {g g' : Graph} {moved : Redirection} (hg : g.WellFormed)
    (ht : g'.topLevels = g.topLevels)
    (H : ∀ r < g.size, ∀ v, g.Admits ρ r v → (g'.forward moved).Admits ρ (moved.follow r) v)
    {name : String} {v : Json} (hv : g.AdmitsAt ρ name v) :
    (g'.forward moved).AdmitsAt ρ name v := by
  obtain ⟨r, hr, hv⟩ := hv
  refine ⟨moved.follow r, ?_, H r (hg.lt_of_topLevel hr) v hv⟩
  rw [topLevel?, forward, renameReferences, ht, OrderedMap.get?_mapValues]
  exact congrArg _ hr

theorem wellFormed_forward {g : Graph} {moved : Redirection} (hg : g.WellFormed)
    (hm : ∀ r < g.size, moved.follow r < g.size) : (g.forward moved).WellFormed := by
  refine wellFormed_of_children (fun r c hc => ?_) fun r hr => ?_
  · rw [forward, kind_renameReferences, Kind.mem_children_mapChildren] at hc
    obtain ⟨c, hc, rfl⟩ := hc
    simpa [forward] using hm c (hg.lt_of_mem_children hc)
  · simp only [forward, renameReferences, OrderedMap.values, OrderedMap.mapValues, List.map_map,
      List.mem_map, Function.comp_apply] at hr
    obtain ⟨e, he, rfl⟩ := hr
    simpa [forward] using hm e.2 (hg.2 e.2 (List.mem_map_of_mem he))

/-! ## Transfer -/

/-- The value is admitted by a ground kind at the image of a node, or at a member of the union
    there. -/
def Lands (ρ : Reading) (h g : Graph) (f : NodeId → NodeId) (r : NodeId) (v : Json) : Prop :=
  ∃ (k : Kind) (s : NodeId), k.isGround = true ∧ k.Admits ρ (h.Admits ρ) v ∧ g.kind s = k.mapChildren f ∧
    (s = f r ∨ s ∈ (g.kind (f r)).unionMembers)

theorem Lands.admits {h g : Graph} {f : NodeId → NodeId} {r : NodeId} {v : Json}
    (hr : Lands ρ h g f r v)
    (ih : ∀ c (w : Json), w.size < v.size → h.Admits ρ c w → g.Admits ρ (f c) w) :
    g.Admits ρ (f r) v := by
  obtain ⟨k, s, hk, hv, hs, hm⟩ := hr
  have hsv : g.Admits ρ s v := by
    rw [admits_iff, hs, Kind.admits_mapChildren]
    exact hv.of_smaller hk fun c _ w hw => ih c w hw
  rcases hm with rfl | hm
  · exact hsv
  · generalize hu : g.kind (f r) = u at hm
    cases u with
    | union ms => exact (admits_union hu).2 ⟨s, hm, hsv⟩
    | _ => simp [Kind.unionMembers] at hm

/-- An intersection of the rewritten graph whose members are images of members, or of nodes at
    which the value lands. -/
def MeetsAt (ρ : Reading) (h g : Graph) (f : NodeId → NodeId) (r : NodeId) (v : Json) : Prop :=
  ∃ ms, g.kind (f r) = .intersection ms ∧
    ∀ m ∈ ms, ∃ c, f c = m ∧ (c ∈ (h.kind r).intersectionMembers ∨ Lands ρ h g f c v)

/-- **Transfer of values.**  The induction is on the size of the value, and inside on how the
    graph `h` comes to admit it; a value that lands needs only smaller values. -/
theorem Admits.transfer {h g : Graph} {f : NodeId → NodeId}
    (H : ∀ r v, h.Admits ρ r v →
      g.kind (f r) = (h.kind r).mapChildren f ∨ MeetsAt ρ h g f r v ∨ Lands ρ h g f r v)
    {r : NodeId} {v : Json} (hv : h.Admits ρ r v) : g.Admits ρ (f r) v := by
  induction hn : v.size using Nat.strongRecOn generalizing r v with
  | ind n ih =>
    subst hn
    have hsmall : ∀ c (w : Json), w.size < v.size → h.Admits ρ c w → g.Admits ρ (f c) w :=
      fun c w hw hc => ih w.size hw hc rfl
    clear ih
    refine Admits.induction (P := fun r w => w.size ≤ v.size → g.Admits ρ (f r) w)
      (fun r w hr hw => ?_) hv (Nat.le_refl _)
    have hsmall' : ∀ c (x : Json), x.size < w.size → h.Admits ρ c x → g.Admits ρ (f c) x :=
      fun c x hx => hsmall c x (Nat.lt_of_lt_of_le hx hw)
    have hrw : h.Admits ρ r w := admits_iff.2 (hr.mono fun _ _ _ => And.left)
    rcases H r w hrw with hk | ⟨ms, hms, hm⟩ | hland
    · rw [admits_iff, hk, Kind.admits_mapChildren]
      exact hr.of_le fun c _ x hx hc => hc.2 (Nat.le_trans hx hw)
    · refine (admits_intersection hms).2 fun m hmm => ?_
      obtain ⟨c, rfl, hc | hc⟩ := hm m hmm
      · generalize h.kind r = k at hr hc
        cases k with
        | intersection ns => exact (hr c hc).2 hw
        | _ => simp [Kind.intersectionMembers] at hc
      · exact hc.admits hsmall'
    · exact hland.admits hsmall'

end SchemaTypes.Graph
