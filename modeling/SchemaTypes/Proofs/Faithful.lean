/-
  The nodes that resolution makes admit what they stand for.

  * `Resolution.Faithful`: a graph under resolution beside a graph `o` that keeps the original
    intersections; what `o` admits with intersections unnested is the meaning of the nodes;
  * `Resolution.Extends`: new nodes may come, faithfully;
  * `intersectionOf_spec`, `unionOf_spec`, `objectOf_spec`: the nodes for sets of members.
-/
import SchemaTypes.Proofs.Nesting
import SchemaTypes.Proofs.Descriptions

namespace SchemaTypes

open SchemaTypes.Graph

variable {ρ : Reading}

namespace Resolution

/-! ## Faithful states -/

/-- A ground kind at a node, or at a member of the union there, admits the value. -/
def LandsAt (ρ : Reading) (g o : Graph) (r : NodeId) (v : Json) : Prop :=
  ∃ s, (s = r ∨ s ∈ (g.kind r).unionMembers) ∧ (g.kind s).isGround = true ∧
    o.unnested.Admits ρ s v ∧ (g.kind s).Admits ρ (o.unnested.Admits ρ) v

/-- A node admits what all of several do. -/
structure MeetsIn (ρ : Reading) (o : Graph) (set : SortedSet NodeId) (r : NodeId) : Prop where
  lt_size : r < o.size
  members_lt : ∀ m ∈ set, m < o.size
  admits : ∀ v, (∀ m ∈ set, o.unnested.Admits ρ m v) → o.unnested.Admits ρ r v

/-- A node admits what any of several does. -/
structure JoinsIn (ρ : Reading) (o : Graph) (set : SortedSet NodeId) (r : NodeId) : Prop where
  lt_size : r < o.size
  members_lt : ∀ m ∈ set, m < o.size
  admits : ∀ m ∈ set, ∀ v, o.unnested.Admits ρ m v → o.unnested.Admits ρ r v

/-- A graph under resolution beside one that keeps the intersections.  Nodes keep their kinds,
    or are resolved intersections at which values land; nodes that stand for others admit what
    those do. -/
structure Faithful (ρ : Reading) (g₀ : Graph) (s : Resolution) (o : Graph) : Prop
    extends Beside g₀ s.graph o where
  wellFormed_old : o.WellFormed
  kept : ∀ r, s.graph.kind r = o.kind r ∨ (o.kind r).isIntersection = true ∧
    (s.graph.kind r).isIntersection = false ∧
      ∀ v, o.unnested.Admits ρ r v → LandsAt ρ s.graph o r v
  free : ∀ r, ρ.Free (s.graph.kind r).listed
  nested_lt : ∀ r, g₀.size ≤ r → ∀ c ∈ (o.kind r).intersectionMembers, c < r
  intersections : ∀ set r, s.intersections.get? set = some r → MeetsIn ρ o set r
  unions : ∀ set r, s.unions.get? set = some r → JoinsIn ρ o set r
  objects : ∀ set r, s.objects.get? set = some r →
    JoinsIn ρ o set r ∧ (s.graph.kind r).isObjectLike = true

section

variable {g₀ o o' : Graph} {s s' : Resolution} {set : SortedSet NodeId} {r : NodeId} {v : Json}

theorem MeetsIn.grow (ho : o.WellFormed) (h : o.Grows o') (H : MeetsIn ρ o set r) :
    MeetsIn ρ o' set r where
  lt_size := Nat.lt_of_lt_of_le H.lt_size h.size_le
  members_lt m hm := Nat.lt_of_lt_of_le (H.members_lt m hm) h.size_le
  admits v hv := by
    rw [admits_unnested_of_grows h ho H.lt_size]
    refine H.admits v fun m hm => ?_
    rw [← admits_unnested_of_grows h ho (H.members_lt m hm)]
    exact hv m hm

theorem JoinsIn.grow (ho : o.WellFormed) (h : o.Grows o') (H : JoinsIn ρ o set r) :
    JoinsIn ρ o' set r where
  lt_size := Nat.lt_of_lt_of_le H.lt_size h.size_le
  members_lt m hm := Nat.lt_of_lt_of_le (H.members_lt m hm) h.size_le
  admits m hm v hv := by
    rw [admits_unnested_of_grows h ho H.lt_size]
    refine H.admits m hm v ?_
    rwa [← admits_unnested_of_grows h ho (H.members_lt m hm)]

namespace Faithful

/-- What a node of a ground kind admits, its kind does. -/
theorem admits_ground (H : Faithful ρ g₀ s o) (hr : (s.graph.kind r).isGround = true)
    (hv : o.unnested.Admits ρ r v) : (s.graph.kind r).Admits ρ (o.unnested.Admits ρ) v := by
  rcases H.kept r with hk | ⟨-, -, hland⟩
  · rwa [hk, ← unnested_iff H.wellFormed_old]
  · obtain ⟨t, rfl | ht, -, -, hv⟩ := hland v hv
    · exact hv
    · generalize s.graph.kind r = k at hr ht
      cases k <;> first | cases ht | cases hr

/-- New nodes come, with their kinds beside the old ones. -/
theorem extend (H : Faithful ρ g₀ s o) {g₁ : Graph} (h₁ : s.graph.Grows g₁)
    (hnew : ∀ r, s.graph.size ≤ r → ρ.Free (g₁.kind r).listed ∧
      ∀ c ∈ (g₁.kind r).intersectionMembers, c < r) :
    Faithful ρ g₀ { s with graph := g₁ } (o.extendedBy g₁) := by
  have hgrows : o.Grows (o.extendedBy g₁) := grows_extendedBy H.size_eq h₁
  have hold := H.wellFormed_old
  have hkind : ∀ {r}, r < o.size → g₁.kind r = s.graph.kind r := fun hr =>
    h₁.kind_eq _ (H.size_eq ▸ hr)
  refine ⟨H.toBeside.extend h₁, hgrows.wellFormed hold, fun r => ?_, fun r => ?_,
    fun r hr c hc => ?_, fun set r hr => (H.intersections set r hr).grow hold hgrows,
    fun set r hr => (H.unions set r hr).grow hold hgrows, fun set r hr => ?_⟩
  · by_cases hr : r < o.size
    · dsimp only
      rw [hkind hr, hgrows.kind_eq r hr]
      refine (H.kept r).imp id ?_
      rintro ⟨hi, hni, hland⟩
      refine ⟨hi, hni, fun v hv => ?_⟩
      obtain ⟨t, ht, hground, htv, hadm⟩ := hland v
        ((admits_unnested_of_grows hgrows hold hr).1 hv)
      have htlt : t < o.size := by
        rcases ht with rfl | ht
        · exact hr
        · exact H.lt_of_mem_children (Kind.mem_children_of_mem_unionMembers ht)
      refine ⟨t, by rwa [hkind hr], by rwa [hkind htlt],
        (admits_unnested_of_grows hgrows hold htlt).2 htv, ?_⟩
      rw [hkind htlt]
      exact hadm.mono fun c hc w hw =>
        (admits_unnested_of_grows hgrows hold (H.lt_of_mem_children hc)).2 hw
    · exact .inl (by rw [kind_extendedBy, if_neg hr])
  · by_cases hr : r < s.graph.size
    · dsimp only
      rw [h₁.kind_eq r hr]
      exact H.free r
    · exact (hnew r (Nat.not_lt.1 hr)).1
  · rw [kind_extendedBy] at hc
    split at hc
    · exact H.nested_lt r hr c hc
    · next hr => exact (hnew r (H.size_eq ▸ Nat.not_lt.1 hr)).2 c hc
  · obtain ⟨hj, hobj⟩ := H.objects set r hr
    refine ⟨hj.grow hold hgrows, ?_⟩
    dsimp only
    rwa [hkind hj.lt_size]

/-- New unions come. -/
theorem extend_unions (H : Faithful ρ g₀ s o) {g₁ : Graph} (h₁ : s.graph.Grows g₁)
    (hnew : ∀ r, s.graph.size ≤ r → (g₁.kind r).isUnion = true ∨ g₁.kind r = .nothing) :
    Faithful ρ g₀ { s with graph := g₁ } (o.extendedBy g₁) := by
  refine H.extend h₁ fun r hr => ⟨fun t ht => ?_, fun c hc => ?_⟩
  · rcases hnew r hr with hu | hu
    · rw [Kind.eq_union_of_isUnion hu] at ht
      exact absurd ht SortedSet.not_mem_empty
    · rw [hu] at ht
      exact absurd ht SortedSet.not_mem_empty
  · have hi := Kind.isIntersection_of_mem hc
    rw [Kind.isIntersection_of_union (hnew r hr)] at hi
    cases hi

end Faithful

/-- New nodes may have come, faithfully. -/
structure Extends (ρ : Reading) (g₀ : Graph) (s : Resolution) (o : Graph) (s' : Resolution)
    (o' : Graph) : Prop where
  grows : s.graph.Grows s'.graph
  grows_old : o.Grows o'
  faithful : Faithful ρ g₀ s' o'

namespace Extends

variable {s₁ s₂ s₃ : Resolution} {o₁ o₂ o₃ : Graph}

theorem refl (H : Faithful ρ g₀ s o) : Extends ρ g₀ s o s o := ⟨.refl _, .refl _, H⟩

theorem trans (h : Extends ρ g₀ s₁ o₁ s₂ o₂) (h' : Extends ρ g₀ s₂ o₂ s₃ o₃) :
    Extends ρ g₀ s₁ o₁ s₃ o₃ :=
  ⟨h.grows.trans h'.grows, h.grows_old.trans h'.grows_old, h'.faithful⟩

theorem admits_iff (h : Extends ρ g₀ s₁ o₁ s₂ o₂) (ho : o₁.WellFormed) (hr : r < o₁.size) :
    o₂.unnested.Admits ρ r v ↔ o₁.unnested.Admits ρ r v :=
  admits_unnested_of_grows h.grows_old ho hr

end Extends

namespace Faithful

theorem insert_intersection (H : Faithful ρ g₀ s o) (hr : MeetsIn ρ o set r) :
    Faithful ρ g₀ { s with intersections := s.intersections.insert set r } o := by
  refine { H with intersections := fun set' r' h => ?_ }
  rw [OrderedMap.get?_insert] at h
  split at h
  · next he =>
    cases h
    exact he ▸ hr
  · exact H.intersections set' r' h

theorem insert_union (H : Faithful ρ g₀ s o) (hr : JoinsIn ρ o set r) :
    Faithful ρ g₀ { s with unions := s.unions.insert set r } o := by
  refine { H with unions := fun set' r' h => ?_ }
  rw [OrderedMap.get?_insert] at h
  split at h
  · next he =>
    cases h
    exact he ▸ hr
  · exact H.unions set' r' h

theorem insert_object (H : Faithful ρ g₀ s o) (hr : JoinsIn ρ o set r)
    (hobj : (s.graph.kind r).isObjectLike = true) :
    Faithful ρ g₀ { s with objects := s.objects.insert set r } o := by
  refine { H with objects := fun set' r' h => ?_ }
  rw [OrderedMap.get?_insert] at h
  split at h
  · next he =>
    cases h
    exact ⟨he ▸ hr, hobj⟩
  · exact H.objects set' r' h

/-- A node comes. -/
theorem push (H : Faithful ρ g₀ s o) {n : Node} (hc : ∀ c ∈ n.kind.children, c < o.size)
    (hfree : ρ.Free n.kind.listed) :
    ∃ o', Extends ρ g₀ s o { s with graph := s.graph.push n } o' ∧ o.size < o'.size ∧
      o'.kind s.graph.size = n.kind := by
  have h₁ : s.graph.Grows (s.graph.push n) :=
    grows_push fun c hcn => Nat.lt_succ_of_lt (H.size_eq ▸ hc c hcn)
  refine ⟨_, ⟨h₁, grows_extendedBy H.size_eq h₁, H.extend h₁ fun r hr => ?_⟩, ?_, ?_⟩
  · rw [kind_push]
    split
    · next he =>
      refine ⟨hfree, fun c hcn => ?_⟩
      rw [he, ← H.size_eq]
      exact hc c (Kind.mem_children_of_mem_intersectionMembers hcn)
    · rw [kind_eq_nothing_of_le hr]
      exact ⟨fun _ hs => absurd hs SortedSet.not_mem_empty, fun _ h => absurd h List.not_mem_nil⟩
  · rw [size_extendedBy (H.size_eq ▸ h₁.size_le), size_push, H.size_eq]
    exact Nat.lt_succ_self _
  · rw [kind_extendedBy, if_neg (by rw [H.size_eq]; exact Nat.lt_irrefl _), kind_push, if_pos rfl]

end Faithful

/-! ## Nodes for sets of members -/

theorem get_bind_apply {α : Type} (f : Resolution → ResolutionM α) (s : Resolution) :
    (get >>= f) s = f s s := rfl

theorem intersectionOf_apply (set : SortedSet NodeId) (s : Resolution) :
    intersectionOf set s = match set.toList, s.intersections.get? set with
      | [only], _ => (only, s)
      | _, some r => (r, s)
      | _, none => (s.graph.size, { s with
          graph := s.graph.push (.new (.intersection set))
          intersections := s.intersections.insert set s.graph.size }) := by
  unfold intersectionOf
  generalize set.toList = l
  rcases l with _ | ⟨only, _ | ⟨b, l⟩⟩ <;>
    (cases h : s.intersections.get? set <;> simp only [get_bind_apply, h] <;> rfl)

theorem unionOf_apply (set : SortedSet NodeId) (s : Resolution) :
    unionOf set s =
      if set.size < 2 then ((s.graph.unionOf set).1, { s with graph := (s.graph.unionOf set).2 })
      else match s.unions.get? set with
        | some r => (r, s)
        | none => ((s.graph.unionOf set).1, { s with
            graph := (s.graph.unionOf set).2
            unions := s.unions.insert set (s.graph.unionOf set).1 }) := by
  unfold unionOf
  rw [get_bind_apply]
  split
  · rfl
  · cases h : s.unions.get? set <;> rfl

theorem objectOf_apply (set : SortedSet NodeId) (s : Resolution) :
    objectOf set s = match set.toList, s.objects.get? set with
      | [only], _ => (only, s)
      | _, some r => (r, s)
      | l, none =>
        let u := s.graph.unifyObjects l
        (u.2.size, { s with
          graph := u.2.push u.1
          objects := s.objects.insert set u.2.size }) := by
  unfold objectOf
  generalize set.toList = l
  rcases l with _ | ⟨only, _ | ⟨b, l⟩⟩ <;>
    (cases h : s.objects.get? set <;> simp only [get_bind_apply, h] <;> rfl)

theorem mem_of_toList_eq_singleton {only : NodeId} (h : set.toList = [only]) : only ∈ set := by
  rw [← SortedSet.mem_toList, h]
  exact List.mem_singleton_self only

theorem eq_of_toList_eq_singleton {only m : NodeId} (h : set.toList = [only]) (hm : m ∈ set) :
    m = only := by
  rwa [← SortedSet.mem_toList, h, List.mem_singleton] at hm

/-- **An intersection of nodes admits what all of them do.** -/
theorem intersectionOf_spec (H : Faithful ρ g₀ s o) (hset : ∀ m ∈ set, m < o.size) :
    ∃ o', Extends ρ g₀ s o (intersectionOf set s).2 o' ∧
      MeetsIn ρ o' set (intersectionOf set s).1 := by
  rw [intersectionOf_apply]
  split
  · next _ only he =>
    have honly := mem_of_toList_eq_singleton he
    exact ⟨o, .refl H, hset only honly, hset, fun v hv => hv only honly⟩
  · next r hmemo _ => exact ⟨o, .refl H, H.intersections set r hmemo⟩
  · obtain ⟨o', E, hlt, hkind⟩ := H.push (n := .new (.intersection set))
      (fun c hc => hset c hc) fun _ hs => absurd hs SortedSet.not_mem_empty
    have hr : MeetsIn ρ o' set s.graph.size := by
      refine ⟨H.size_eq ▸ hlt, fun m hm => Nat.lt_trans (hset m hm) hlt, fun v hv => ?_⟩
      rw [unnested_iff E.faithful.wellFormed_old, hkind]
      exact hv
    exact ⟨o', ⟨E.grows, E.grows_old, E.faithful.insert_intersection hr⟩, hr⟩

/-- A graph with old intersections agrees with new nodes that are no intersections. -/
theorem agrees_unnested {g g₁ : Graph} (hs : o.size = g.size)
    (hn : ∀ u, g.size ≤ u → u < g₁.size → (g₁.kind u).isIntersection = false) :
    (o.extendedBy g₁).unnested.Agrees g g₁ := fun u hu hlt => by
  have hk := agrees_extendedBy hs u hu hlt
  rw [kind_unnested_of_not (by rw [hk]; exact hn u hu hlt), hk]

/-- **A union of nodes admits what any of them does.** -/
theorem unionOf_spec (H : Faithful ρ g₀ s o) (hset : ∀ m ∈ set, m < o.size) :
    ∃ o', Extends ρ g₀ s o (unionOf set s).2 o' ∧ JoinsIn ρ o' set (unionOf set s).1 := by
  have hlt : ∀ m ∈ set, m < s.graph.size := fun m hm => H.size_eq ▸ hset m hm
  have h₁ := grows_unionOf hlt
  have hkind : ∀ u, s.graph.size ≤ u → ((s.graph.unionOf set).2.kind u).isUnion = true ∨
      (s.graph.unionOf set).2.kind u = .nothing := fun u hu => by
    by_cases hult : u < (s.graph.unionOf set).2.size
    · rcases kind_unionOf hu hult with hk | ⟨-, hk⟩
      · exact .inl (hk ▸ rfl)
      · exact .inr hk
    · exact .inr (kind_eq_nothing_of_le (Nat.not_lt.1 hult))
  have H₁ := H.extend_unions h₁ hkind
  have hgrows : o.Grows (o.extendedBy (s.graph.unionOf set).2) := grows_extendedBy H.size_eq h₁
  have hr : JoinsIn ρ (o.extendedBy (s.graph.unionOf set).2) set (s.graph.unionOf set).1 := by
    refine ⟨?_, fun m hm => Nat.lt_of_lt_of_le (hset m hm) hgrows.size_le, fun m hm v hv => ?_⟩
    · rw [H₁.size_eq]
      exact unionOf_lt hlt
    · exact admits_unionOf (agrees_unnested H.size_eq fun u hu _ =>
        Kind.isIntersection_of_union (hkind u hu)) hm hv
  rw [unionOf_apply]
  split
  · exact ⟨_, ⟨h₁, hgrows, H₁⟩, hr⟩
  · cases hmemo : s.unions.get? set with
    | some r => exact ⟨o, .refl H, H.unions set r hmemo⟩
    | none => exact ⟨_, ⟨h₁, hgrows, H₁.insert_union hr⟩, hr⟩

/-- **An object type for several admits what any of them does.** -/
theorem objectOf_spec (hρ : ρ.openClasses = false) (H : Faithful ρ g₀ s o)
    (hobj : ∀ m ∈ set, (s.graph.kind m).isObjectLike = true) :
    ∃ o', Extends ρ g₀ s o (objectOf set s).2 o' ∧ JoinsIn ρ o' set (objectOf set s).1 ∧
      ((objectOf set s).2.graph.kind (objectOf set s).1).isObjectLike = true := by
  have hset : ∀ m ∈ set, m < o.size := fun m hm => by
    rw [H.size_eq]
    exact lt_size_of_isObjectLike (hobj m hm)
  rw [objectOf_apply]
  split
  · next _ only he =>
    have honly := mem_of_toList_eq_singleton he
    refine ⟨o, .refl H, ⟨hset only honly, hset, fun m hm v hv => ?_⟩, hobj only honly⟩
    rwa [← eq_of_toList_eq_singleton he hm]
  · next r hmemo _ => exact ⟨o, .refl H, H.objects set r hmemo⟩
  extract_lets u
  have U := unified_unifyObjects H.wellFormed set.toList
  change Unified set.toList s.graph u.1 u.2 at U
  clear_value u
  obtain ⟨n, g₁⟩ := u
  dsimp only at U ⊢
  -- the unions come first, the object type itself last
  have hempty : ρ.Free ∅ := fun _ hs => absurd hs SortedSet.not_mem_empty
  have hkind : ∀ u, s.graph.size ≤ u → (g₁.kind u).isUnion = true ∨ g₁.kind u = .nothing :=
    fun u hu => by
      by_cases hult : u < g₁.size
      · exact .inl (U.isUnion u hu hult)
      · exact .inr (kind_eq_nothing_of_le (Nat.not_lt.1 hult))
  have H₁ := H.extend_unions U.grows hkind
  have hgrows : o.Grows (o.extendedBy g₁) := grows_extendedBy H.size_eq U.grows
  have hadm : ∀ m ∈ set, ∀ v, o.unnested.Admits ρ m v →
      n.kind.Admits ρ ((o.extendedBy g₁).unnested.Admits ρ) v := fun m hm v hv => by
    refine U.admits ρ _ hρ (agrees_unnested H.size_eq fun u hu _ =>
      Kind.isIntersection_of_union (hkind u hu)) m hm (hobj m hm) v ?_
    refine (H.admits_ground (Kind.isGround_of_isObjectLike (hobj m hm)) hv).mono
      fun c hc w hw => ?_
    exact (admits_unnested_of_grows hgrows H.wellFormed_old (H.lt_of_mem_children hc)).2 hw
  have hlisted : n.kind.listed = ∅ := Kind.listed_of_isObjectLike U.isObjectLike
  obtain ⟨o', E, hlt, hk⟩ := H₁.push (n := n)
    (fun c hc => by rw [H₁.size_eq]; exact U.lt_size c hc) (by rw [hlisted]; exact hempty)
  have hr : JoinsIn ρ o' set g₁.size := by
    refine ⟨H₁.size_eq ▸ hlt, fun m hm => ?_, fun m hm v hv => ?_⟩
    · exact Nat.lt_of_lt_of_le (hset m hm) (hgrows.trans E.grows_old).size_le
    · rw [admits_unnested_of_grows (hgrows.trans E.grows_old) H.wellFormed_old (hset m hm)] at hv
      rw [unnested_iff E.faithful.wellFormed_old, hk]
      refine (hadm m hm v hv).mono fun c hc w hw => (E.admits_iff H₁.wellFormed_old ?_).2 hw
      rw [H₁.size_eq]
      exact U.lt_size c hc
  have hobj' : ((g₁.push n).kind g₁.size).isObjectLike = true := by
    rw [kind_push, if_pos rfl]
    exact U.isObjectLike
  exact ⟨o', ⟨U.grows.trans E.grows, hgrows.trans E.grows_old,
    E.faithful.insert_object hr hobj'⟩, hr, hobj'⟩

end

end Resolution

end SchemaTypes
