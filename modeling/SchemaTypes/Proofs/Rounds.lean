/-
  Rounds of resolution are faithful.

  * `admitted_spec`: a node is described so that what it admits is admitted;
  * `resolve_spec`, `round_spec`, `rounds_spec`: resolving one intersection, the intersections of
    a round, and any number of rounds stays faithful;
  * `Faithful.admits_unnested`: a faithful graph admits all that the old kinds do.
-/
import SchemaTypes.Proofs.Parts

namespace SchemaTypes

open SchemaTypes.Graph

variable {ρ : Reading}

namespace Resolution

variable {g₀ o o' : Graph} {s s' : Resolution} {r : NodeId} {v : Json}

/-! ## Descriptions of nodes -/

/-- A value that a node admits is admitted by the description of a nested member, unless the
    walk meets an intersection that is not taken for everything. -/
theorem Faithful.exists_described (H : Faithful ρ g₀ s o) {forced : Bool} {m c : NodeId}
    (hready : forced = true ∨
      ∀ x ∈ s.graph.walk Kind.unionMembers [m], (s.graph.kind x).isIntersection = false)
    (hv : o.unnested.Admits ρ c v) (hc : c ∈ s.graph.walk Kind.unionMembers [m]) :
    ∃ x ∈ s.graph.walk Kind.unionMembers [m],
      ∀ a ∈ Admitted.ofKind forced x (s.graph.kind x), a.Admits ρ (o.unnested.Admits ρ) v := by
  revert hc
  refine Admits.induction (P := fun c v => c ∈ s.graph.walk Kind.unionMembers [m] →
    ∃ x ∈ s.graph.walk Kind.unionMembers [m],
      ∀ a ∈ Admitted.ofKind forced x (s.graph.kind x), a.Admits ρ (o.unnested.Admits ρ) v)
    (fun c v ih hc => ?_) hv
  have hcv : o.unnested.Admits ρ c v := Graph.admits_iff.2 (ih.mono fun _ _ _ => And.left)
  have hmember : ∀ t ∈ (s.graph.kind c).unionMembers, t ∈ s.graph.walk Kind.unionMembers [m] :=
    fun t ht => mem_walk_of_mem_next hc ht
      (H.wellFormed.lt_of_mem_children (Kind.mem_children_of_mem_unionMembers ht))
  rcases H.kept c with hk | ⟨-, -, hland⟩
  · by_cases hi : (s.graph.kind c).isIntersection = true
    · -- an intersection is described only if it is taken for everything
      have hf : forced = true := hready.resolve_right fun h => by
        rw [h c hc] at hi
        cases hi
      refine ⟨c, hc, fun a ha => ?_⟩
      rw [Kind.eq_intersection_of_isIntersection hi, hf] at ha
      cases ha
    · have hi : (s.graph.kind c).isIntersection = false := by simpa using hi
      by_cases hu : (s.graph.kind c).isUnion = true
      · rw [kind_unnested_of_not (hk ▸ hi), ← hk, Kind.eq_union_of_isUnion hu] at ih
        obtain ⟨t, ht, -, hP⟩ := ih
        exact hP (hmember t (SortedSet.mem_ofList.1 ht))
      · have hground := Kind.isGround_iff.2 ⟨by simpa using hu, hi⟩
        exact ⟨c, hc, Admitted.admits_ofKind hground (H.admits_ground hground hcv) hcv forced⟩
  · obtain ⟨t, ht, hground, htv, hadm⟩ := hland v hcv
    refine ⟨t, ?_, Admitted.admits_ofKind hground hadm htv forced⟩
    rcases ht with rfl | ht
    · exact hc
    · exact hmember t ht

/-- **The description of a node refers to the graph and admits what the node does.** -/
theorem admitted_spec (H : Faithful ρ g₀ s o) {forced : Bool} {m : NodeId} (hm : m < o.size)
    (hready : forced = true ∨
      ∀ x ∈ s.graph.walk Kind.unionMembers [m], (s.graph.kind x).isIntersection = false) :
    ∀ a ∈ s.graph.admitted forced m, a.Proper ρ s.graph ∧
      ∀ v, o.unnested.Admits ρ m v → a.Admits ρ (o.unnested.Admits ρ) v := by
  refine fun a ha => ⟨Admitted.proper_joinAll (fun x hx => ?_) a ha, fun v hv => ?_⟩
  · obtain ⟨t, -, rfl⟩ := List.mem_map.1 hx
    exact Admitted.proper_ofKind H.wellFormed (H.free t) forced
  · obtain ⟨x, hx, hadm⟩ := H.exists_described hready hv
      (mem_walk_of_mem_starts (List.mem_singleton_self m) (H.size_eq ▸ hm))
    exact Admitted.admits_joinAll (List.mem_map_of_mem hx) hadm a ha

/-! ## One intersection -/

/-- An intersection gets a kind at which its values land. -/
theorem Faithful.replace (H : Faithful ρ g₀ s o) (hr : (s.graph.kind r).isIntersection = true)
    {k : Kind} {f : Node → Node} (hf : ∀ n, (f n).kind = k) (hk : k.isIntersection = false)
    (hlt : ∀ c ∈ k.children, c < o.size) (hfree : ρ.Free k.listed)
    (hland : ∀ v, o.unnested.Admits ρ r v →
      (k.isGround = true ∧ k.Admits ρ (o.unnested.Admits ρ) v) ∨
        ∃ t ∈ k.unionMembers, (s.graph.kind t).isGround = true ∧ o.unnested.Admits ρ t v) :
    Faithful ρ g₀ { s with graph := s.graph.modify r f } o := by
  have hsize : r < s.graph.size := lt_size_of_isIntersection hr
  have hkr : (s.graph.modify r f).kind r = k := by
    rw [kind_modify _ _ _ _ hsize, if_pos rfl, hf]
  have hother : ∀ {x}, (s.graph.kind x).isIntersection = false →
      (s.graph.modify r f).kind x = s.graph.kind x := fun {x} hx => by
    rcases kind_modify_cases s.graph r x hf with h | ⟨rfl, -⟩
    · exact h
    · rw [hr] at hx
      cases hx
  -- a ground node stays, with what it admits
  have hstay : ∀ {t v}, (s.graph.kind t).isGround = true → o.unnested.Admits ρ t v →
      ((s.graph.modify r f).kind t).isGround = true ∧
        ((s.graph.modify r f).kind t).Admits ρ (o.unnested.Admits ρ) v := fun ht hv => by
    rw [hother (Kind.isGround_iff.1 ht).2]
    exact ⟨ht, H.admits_ground ht hv⟩
  have hold : (o.kind r).isIntersection = true := by
    rcases H.kept r with h | ⟨h, -, -⟩
    · rwa [← h]
    · exact h
  refine ⟨H.toBeside.modify fun n c hc => hlt c (by rwa [hf] at hc), H.wellFormed_old,
    fun x => ?_, fun x => ?_, H.nested_lt, H.intersections, H.unions, fun set x hx => ?_⟩
  · dsimp only
    by_cases hxr : x = r
    · subst hxr
      rw [hkr]
      refine .inr ⟨hold, hk, fun v hv => ?_⟩
      rcases hland v hv with ⟨hground, hadm⟩ | ⟨t, ht, hground, htv⟩
      · exact ⟨x, .inl rfl, by rwa [hkr], hv, by rwa [hkr]⟩
      · exact ⟨t, .inr (by rwa [hkr]), (hstay hground htv).1, htv, (hstay hground htv).2⟩
    · have hx : (s.graph.modify r f).kind x = s.graph.kind x := by
        rcases kind_modify_cases s.graph r x hf with h | ⟨h, -⟩
        · exact h
        · exact absurd h.symm hxr
      rw [hx]
      refine (H.kept x).imp id ?_
      rintro ⟨hi, hni, hland⟩
      refine ⟨hi, hni, fun v hv => ?_⟩
      obtain ⟨t, ht, hground, htv, -⟩ := hland v hv
      exact ⟨t, by rwa [hx], (hstay hground htv).1, htv, (hstay hground htv).2⟩
  · dsimp only
    rcases kind_modify_cases s.graph r x hf with h | ⟨-, h⟩ <;> rw [h]
    · exact H.free x
    · exact hfree
  · obtain ⟨hj, hobj⟩ := H.objects set x hx
    refine ⟨hj, ?_⟩
    dsimp only
    rwa [hother (Kind.isGround_iff.1 (Kind.isGround_of_isObjectLike hobj)).2]

/-- Some nodes may have changed and others may have come, faithfully. -/
structure Resolves (ρ : Reading) (g₀ : Graph) (rs : List NodeId) (s : Resolution) (o : Graph)
    (s' : Resolution) (o' : Graph) : Prop where
  size_le : s.graph.size ≤ s'.graph.size
  kind_eq : ∀ x < s.graph.size, x ∉ rs → s'.graph.kind x = s.graph.kind x
  grows_old : o.Grows o'
  faithful : Faithful ρ g₀ s' o'

/-- New nodes come, and then an intersection gets a kind at which its values land. -/
theorem Extends.replace (E : Extends ρ g₀ s o s' o')
    (hr : (s.graph.kind r).isIntersection = true) {k : Kind} {a : Attributes} {fixed : Bool}
    (hk : k.isIntersection = false) (hlt : ∀ c ∈ k.children, c < o'.size) (hfree : ρ.Free k.listed)
    (hland : ∀ v, o'.unnested.Admits ρ r v →
      (k.isGround = true ∧ k.Admits ρ (o'.unnested.Admits ρ) v) ∨
        ∃ t ∈ k.unionMembers, (s'.graph.kind t).isGround = true ∧ o'.unnested.Admits ρ t v) :
    Resolves ρ g₀ [r] s o (replace r k a fixed s').2 o' where
  size_le := by
    show s.graph.size ≤ (s'.graph.modify r _).size
    rw [size_modify]
    exact E.grows.size_le
  kind_eq x hx hn := by
    show (s'.graph.modify r _).kind x = s.graph.kind x
    rw [kind_modify _ _ _ _ (Nat.lt_of_lt_of_le hx E.grows.size_le), if_neg, E.grows.kind_eq x hx]
    exact fun h => hn (List.mem_singleton.2 h.symm)
  grows_old := E.grows_old
  faithful := by
    rw [← E.grows.kind_eq r (lt_size_of_isIntersection hr)] at hr
    exact E.faithful.replace hr (fun _ => rfl) hk hlt hfree hland

/-- The node of a part: it has a ground kind and admits what the part does. -/
structure StandsFor (ρ : Reading) (p : Part) (n : NodeId) (s : Resolution) (o : Graph) : Prop where
  fits : PartFits ρ s o p
  lt_size : n < o.size
  isGround : (s.graph.kind n).isGround = true
  admits : ∀ v, PartAdmits ρ o p v → o.unnested.Admits ρ n v

theorem StandsFor.extend (H : Faithful ρ g₀ s o) (E : Extends ρ g₀ s o s' o') {p : Part}
    {n : NodeId} (h : StandsFor ρ p n s o) : StandsFor ρ p n s' o' where
  fits := h.fits.extend E
  lt_size := Nat.lt_of_lt_of_le h.lt_size E.grows_old.size_le
  isGround := by
    rw [E.grows.kind_eq n (H.size_eq ▸ h.lt_size)]
    exact h.isGround
  admits v hv := (E.admits_iff H.wellFormed_old h.lt_size).2
    (h.admits v ((h.fits.admits_iff H E).1 hv))

theorem partNode_spec (H : Faithful ρ g₀ s o) {p : Part} (hp : PartFits ρ s o p) :
    ∃ o', Extends ρ g₀ s o (partNode p s).2 o' ∧
      StandsFor ρ p (partNode p s).1 (partNode p s).2 o' := by
  cases p with
  | new kind =>
    obtain ⟨o', E, hlt, hk⟩ := H.push (n := .new kind) hp.2.1 hp.2.2
    change ∃ o', Extends ρ g₀ s o { s with graph := s.graph.push (.new kind) } o' ∧
      StandsFor ρ _ s.graph.size { s with graph := s.graph.push (.new kind) } o'
    refine ⟨o', E, hp.extend E, H.size_eq ▸ hlt, ?_, fun v hv => ?_⟩
    · dsimp only
      rw [kind_push, if_pos rfl]
      exact hp.1
    · rw [unnested_iff E.faithful.wellFormed_old, hk]
      exact hv
  | existing x =>
    exact ⟨o, .refl H, hp, H.lt_of_isObjectLike hp, Kind.isGround_of_isObjectLike hp,
      fun v hv => hv⟩

theorem resolve_apply (forced : Bool) (r : NodeId) (members : List NodeId) (s : Resolution) :
    (resolve forced r members s).2 =
      match Admitted.meetAll (members.map (s.graph.admitted forced)) with
      | none => (replace r .any (s.graph.metAttributes r members) false s).2
      | some d =>
        match (parts d s).1 with
        | [] => (replace r .nothing (s.graph.metAttributes r members) false (parts d s).2).2
        | [.new kind] => (replace r kind (s.graph.metAttributes r members) false (parts d s).2).2
        | [.existing x] =>
          (replace r ((parts d s).2.graph.kind x)
            (.combine .intersection (s.graph.metAttributes r members)
              ((parts d s).2.graph.node x).attributes)
            ((parts d s).2.graph.node x).fixed (parts d s).2).2
        | ps =>
          (replace r (.union (.ofList (ps.mapM partNode (parts d s).2).1))
            (s.graph.metAttributes r members) false (ps.mapM partNode (parts d s).2).2).2 := by
  unfold resolve
  rw [get_bind_apply]
  dsimp only
  cases Admitted.meetAll (members.map (s.graph.admitted forced)) with
  | none => rfl
  | some d =>
    dsimp only
    rw [bind_apply]
    generalize parts d s = p
    obtain ⟨ps, s'⟩ := p
    rcases ps with _ | ⟨p, _ | ⟨q, ps⟩⟩
    · rfl
    · cases p <;> rfl
    · cases p <;> rfl

/-- What the descriptions of the members meet in describes a node that admits no more than these. -/
theorem meetAll_spec (hsep : ρ.Separate) (H : Faithful ρ g₀ s o) {forced : Bool}
    {members : List NodeId} (hlt : ∀ m ∈ members, m < o.size)
    (hmem : ∀ v, o.unnested.Admits ρ r v → ∀ m ∈ members, o.unnested.Admits ρ m v)
    (hready : forced = true ∨ ∀ m ∈ members,
      ∀ x ∈ s.graph.walk Kind.unionMembers [m], (s.graph.kind x).isIntersection = false)
    {d : Admitted} (hmeet : Admitted.meetAll (members.map (s.graph.admitted forced)) = some d) :
    d.Proper ρ s.graph ∧
      ∀ v, o.unnested.Admits ρ r v → d.Admits ρ (o.unnested.Admits ρ) v := by
  have hdesc : ∀ m ∈ members, ∀ a ∈ s.graph.admitted forced m, a.Proper ρ s.graph ∧
      ∀ v, o.unnested.Admits ρ m v → a.Admits ρ (o.unnested.Admits ρ) v := fun m hm =>
    admitted_spec H (hlt m hm) (hready.imp id fun h => h m hm)
  have hl : ∀ x ∈ members.map (s.graph.admitted forced), ∀ a ∈ x, a.Proper ρ s.graph := by
    intro x hx a ha
    obtain ⟨m, hm, rfl⟩ := List.mem_map.1 hx
    exact (hdesc m hm a ha).1
  refine ⟨(Admitted.meetAll_spec (A := o.unnested.Admits ρ) (v := .null) hsep hl hmeet).1,
    fun v hv => (Admitted.meetAll_spec hsep hl hmeet).2 fun x hx a ha => ?_⟩
  obtain ⟨m, hm, rfl⟩ := List.mem_map.1 hx
  exact (hdesc m hm a ha).2 v (hmem v hv m hm)

/-- Each value of a node that a description describes is admitted by one of its parts. -/
theorem parts_land (hρ : ρ.openClasses = false) (H : Faithful ρ g₀ s o) (hr : r < o.size)
    {d : Admitted} (hd : d.Proper ρ s.graph)
    (hdv : ∀ v, o.unnested.Admits ρ r v → d.Admits ρ (o.unnested.Admits ρ) v) :
    ∃ o₁, Extends ρ g₀ s o (parts d s).2 o₁ ∧
      (∀ p ∈ (parts d s).1, PartFits ρ (parts d s).2 o₁ p) ∧
      ∀ v, o₁.unnested.Admits ρ r v → ∃ p ∈ (parts d s).1, PartAdmits ρ o₁ p v := by
  obtain ⟨o₁, E₁, hfits, hparts⟩ := parts_spec hρ H hd
  refine ⟨o₁, E₁, hfits, fun v hv => hparts v (hd.admits_mono (fun t ht w hw => ?_)
    (hdv v ((E₁.admits_iff H.wellFormed_old hr).1 hv)))⟩
  exact (E₁.admits_iff H.wellFormed_old (H.size_eq ▸ ht)).2 hw

/-- **Resolving an intersection is faithful**, if the node admits no more than the members, and
    none of those waits for another intersection or these are taken for everything. -/
theorem resolve_spec (hρ : ρ.openClasses = false) (hsep : ρ.Separate) (H : Faithful ρ g₀ s o)
    (hr : (s.graph.kind r).isIntersection = true) {forced : Bool} {members : List NodeId}
    (hlt : ∀ m ∈ members, m < o.size)
    (hmem : ∀ v, o.unnested.Admits ρ r v → ∀ m ∈ members, o.unnested.Admits ρ m v)
    (hready : forced = true ∨ ∀ m ∈ members,
      ∀ x ∈ s.graph.walk Kind.unionMembers [m], (s.graph.kind x).isIntersection = false) :
    ∃ o', Resolves ρ g₀ [r] s o (resolve forced r members s).2 o' := by
  have hempty : ρ.Free ∅ := fun _ hs => absurd hs SortedSet.not_mem_empty
  have hrlt : r < o.size := by
    rw [H.size_eq]
    exact lt_size_of_isIntersection hr
  rw [resolve_apply]
  cases hmeet : Admitted.meetAll (members.map (s.graph.admitted forced)) with
  | none =>
    refine ⟨o, (Extends.refl H).replace hr rfl (by simp [Kind.children]) hempty fun v _ => ?_⟩
    exact .inl ⟨rfl, trivial⟩
  | some d =>
    obtain ⟨hd, hdv⟩ := meetAll_spec hsep H hlt hmem hready hmeet
    obtain ⟨o₁, E₁, hfits, hland⟩ := parts_land hρ H hrlt hd hdv
    dsimp only
    generalize parts d s = q at E₁ hfits hland ⊢
    obtain ⟨ps, s₁⟩ := q
    dsimp only at E₁ hfits hland ⊢
    split
    · refine ⟨o₁, E₁.replace hr rfl (by simp [Kind.children]) hempty fun v hv => ?_⟩
      obtain ⟨p, hp, -⟩ := hland v hv
      cases hp
    · next kind =>
      obtain ⟨hground, hc, hfree⟩ := hfits (.new kind) List.mem_cons_self
      refine ⟨o₁, E₁.replace hr (Kind.isGround_iff.1 hground).2 hc hfree fun v hv => ?_⟩
      obtain ⟨p, hp, hpv⟩ := hland v hv
      rw [List.mem_singleton.1 hp] at hpv
      exact .inl ⟨hground, hpv⟩
    · next x =>
      have hobj : (s₁.graph.kind x).isObjectLike = true := hfits (.existing x) List.mem_cons_self
      have hground := Kind.isGround_of_isObjectLike hobj
      refine ⟨o₁, E₁.replace hr (Kind.isGround_iff.1 hground).2
        (fun c hc => E₁.faithful.lt_of_mem_children hc) ?_ fun v hv => ?_⟩
      · rw [Kind.listed_of_isObjectLike hobj]
        exact hempty
      · obtain ⟨p, hp, hpv⟩ := hland v hv
        rw [List.mem_singleton.1 hp] at hpv
        exact .inl ⟨hground, E₁.faithful.admits_ground hground hpv⟩
    · obtain ⟨o₂, E₂, hnodes, hnodes'⟩ := mapM_spec (f := partNode)
        (P := fun p s o => PartFits ρ s o p) (Q := StandsFor ρ) (fun _ E h => h.extend E)
        (fun H E h => h.extend H E) (fun H h => partNode_spec H h) E₁.faithful ps hfits
      refine ⟨o₂, (E₁.trans E₂).replace hr rfl (fun c hc => ?_) hempty fun v hv => .inr ?_⟩
      · obtain ⟨p, -, h⟩ := hnodes' c (SortedSet.mem_ofList.1 (SortedSet.mem_toList.1 hc))
        exact h.lt_size
      · have hrlt₁ := Nat.lt_of_lt_of_le hrlt E₁.grows_old.size_le
        obtain ⟨p, hp, hpv⟩ := hland v ((E₂.admits_iff E₁.faithful.wellFormed_old hrlt₁).1 hv)
        obtain ⟨n, hn, h⟩ := hnodes p hp
        refine ⟨n, SortedSet.mem_toList.2 (SortedSet.mem_ofList.2 hn), h.isGround, ?_⟩
        exact h.admits v (((hfits p hp).admits_iff E₁.faithful E₂).2 hpv)

/-! ## Rounds -/

/-- What is nested in an intersection that is not resolved admits what it does. -/
theorem Faithful.admits_nested (H : Faithful ρ g₀ s o) {x : NodeId} (hx : x ∈ s.graph.nested r)
    (hv : o.unnested.Admits ρ r v) : o.unnested.Admits ρ x v := by
  refine nested_induction (P := fun x => o.unnested.Admits ρ x v) hv (fun x c hx hc => ?_) hx
  rcases H.kept x with hk | ⟨-, hi, -⟩
  · exact admits_of_mem H.wellFormed_old (hk ▸ hc) hx
  · rw [Kind.isIntersection_of_mem hc] at hi
    cases hi

/-- An intersection admits what all its expanded members do. -/
theorem Faithful.meetsIn_expanded (H : Faithful ρ g₀ s o) (hr : r < s.graph.size) :
    MeetsIn ρ o (.ofList (s.graph.expandedMembers r)) r := by
  have hmem : ∀ m, m ∈ SortedSet.ofList (s.graph.expandedMembers r) ↔
      m ∈ s.graph.nested r ∧ (s.graph.kind m).isIntersection = false := fun m => by
    rw [SortedSet.mem_ofList, mem_expandedMembers]
  refine ⟨H.size_eq ▸ hr, fun m hm => ?_, fun v hv => ?_⟩
  · rw [H.size_eq]
    exact lt_of_mem_walk ((hmem m).1 hm).1
  · refine unnested_induction H.wellFormed_old (X := (· ∈ s.graph.nested r)) (fun x hx => ?_)
      (self_mem_nested hr)
    by_cases hi : (s.graph.kind x).isIntersection = true
    · rcases H.kept x with hk | ⟨-, hni, -⟩
      · rw [← hk]
        exact .inr ⟨hi, fun c hc => mem_nested_of_mem H.wellFormed hx hc⟩
      · rw [hi] at hni
        cases hni
    · exact .inl (hv x ((hmem x).2 ⟨hx, by simpa using hi⟩))

theorem Faithful.register (H : Faithful ρ g₀ s o) (es : List (NodeId × List NodeId))
    (hes : ∀ e ∈ es, MeetsIn ρ o (.ofList e.2) e.1) :
    Faithful ρ g₀ (es.foldl register s) o ∧ (es.foldl register s).graph = s.graph := by
  induction es generalizing s with
  | nil => exact ⟨H, rfl⟩
  | cons e es ih =>
    have hrest : ∀ e ∈ es, MeetsIn ρ o (.ofList e.2) e.1 := fun e he =>
      hes e (List.mem_cons_of_mem _ he)
    have hstep : Faithful ρ g₀ (s.register e) o ∧ (s.register e).graph = s.graph := by
      unfold Resolution.register
      extract_lets members
      split
      · exact ⟨H, rfl⟩
      · exact ⟨H.insert_intersection (hes e List.mem_cons_self), rfl⟩
    obtain ⟨H', hg⟩ := ih hstep.1 hrest
    exact ⟨H', hg.trans hstep.2⟩

/-- What may be resolved next: an intersection, with members that admit what it does and that
    wait for no other intersection, unless those are taken for everything. -/
structure Resolvable (ρ : Reading) (forced : Bool) (s : Resolution) (o : Graph)
    (e : NodeId × List NodeId) : Prop where
  isIntersection : (s.graph.kind e.1).isIntersection = true
  lt_size : ∀ m ∈ e.2, m < o.size
  admits : ∀ v, o.unnested.Admits ρ e.1 v → ∀ m ∈ e.2, o.unnested.Admits ρ m v
  ready : forced = true ∨ ∀ m ∈ e.2,
    ∀ x ∈ s.graph.walk Kind.unionMembers [m], (s.graph.kind x).isIntersection = false

/-- Others can still be resolved after an intersection was. -/
theorem Resolvable.step {forced : Bool} {e : NodeId × List NodeId} (H : Faithful ρ g₀ s o)
    (h : Resolves ρ g₀ [r] s o s' o') (hr : (s.graph.kind r).isIntersection = true)
    (he : e.1 ≠ r) (hes : Resolvable ρ forced s o e) : Resolvable ρ forced s' o' e := by
  have hlt : e.1 < s.graph.size := lt_size_of_isIntersection hes.isIntersection
  have hkind : ∀ {x}, x < s.graph.size → x ≠ r → s'.graph.kind x = s.graph.kind x :=
    fun hx hn => h.kind_eq _ hx fun hm => hn (List.mem_singleton.1 hm)
  have hold := H.wellFormed_old
  refine ⟨?_, fun m hm => Nat.lt_of_lt_of_le (hes.lt_size m hm) h.grows_old.size_le,
    fun v hv m hm => ?_, hes.ready.imp id fun hready m hm => ?_⟩
  · rw [hkind hlt he]
    exact hes.isIntersection
  · rw [admits_unnested_of_grows h.grows_old hold (H.size_eq ▸ hlt)] at hv
    rw [admits_unnested_of_grows h.grows_old hold (hes.lt_size m hm)]
    exact hes.admits v hv m hm
  · -- the walk stays where it was, away from the intersection
    have hstay : ∀ x, x ∈ s.graph.walk Kind.unionMembers [m] →
        s'.graph.kind x = s.graph.kind x := fun x hx => hkind (lt_of_mem_walk hx) fun hxr => by
      have hi := hready m hm x hx
      rw [hxr, hr] at hi
      cases hi
    have hwalk : ∀ x ∈ s'.graph.walk Kind.unionMembers [m],
        x ∈ s.graph.walk Kind.unionMembers [m] := fun x hx => by
      refine walk_induction (fun x hx => ?_) (fun x c hx hc => ?_) hx
      · rw [List.mem_singleton.1 hx]
        exact mem_walk_of_mem_starts (List.mem_singleton_self m) (H.size_eq ▸ hes.lt_size m hm)
      · rw [hstay x hx] at hc
        exact mem_walk_of_mem_next hx hc
          (H.wellFormed.lt_of_mem_children (Kind.mem_children_of_mem_unionMembers hc))
    intro x hx
    rw [hstay x (hwalk x hx)]
    exact hready m hm x (hwalk x hx)

/-- Resolving intersections one after the other is faithful. -/
theorem forM_resolve_spec (hρ : ρ.openClasses = false) (hsep : ρ.Separate) {forced : Bool}
    (es : List (NodeId × List NodeId)) (hes : (es.map Prod.fst).Nodup) (H : Faithful ρ g₀ s o)
    (hall : ∀ e ∈ es, Resolvable ρ forced s o e) :
    ∃ o', Faithful ρ g₀ ((es.forM fun e => resolve forced e.1 e.2).run s).2 o' := by
  induction es generalizing s o with
  | nil => exact ⟨o, H⟩
  | cons e es ih =>
    have he := hall e List.mem_cons_self
    rw [List.map_cons, List.nodup_cons] at hes
    obtain ⟨o₁, h₁⟩ := resolve_spec hρ hsep H he.isIntersection he.lt_size he.admits he.ready
    refine ih hes.2 h₁.faithful fun e' he' => ?_
    refine (hall e' (List.mem_cons_of_mem _ he')).step H h₁ he.isIntersection fun h => ?_
    exact hes.1 (h ▸ List.mem_map_of_mem he')

/-- **A round is faithful.** -/
theorem round_spec (hρ : ρ.openClasses = false) (hsep : ρ.Separate) (H : Faithful ρ g₀ s o)
    {rs : List NodeId} (hrs : rs.Nodup)
    (hint : ∀ r ∈ rs, (s.graph.kind r).isIntersection = true) :
    ∃ o', Faithful ρ g₀ (s.round rs) o' := by
  have hlt : ∀ r ∈ rs, r < s.graph.size := fun r hr => lt_size_of_isIntersection (hint r hr)
  unfold round
  extract_lets g expanded s₁ ready
  have hexp : ∀ e ∈ expanded, e.1 ∈ rs ∧ e.2 = g.expandedMembers e.1 := fun e he => by
    obtain ⟨r, hr, rfl⟩ := List.mem_map.1 he
    exact ⟨hr, rfl⟩
  have hfst : expanded.map Prod.fst = rs := by simp [expanded, Function.comp_def]
  obtain ⟨H₁, hg⟩ := H.register expanded fun e he => by
    rw [(hexp e he).2]
    exact H.meetsIn_expanded (hlt _ (hexp e he).1)
  -- each intersection can be resolved if it waits for none, or intersections are forced
  have hres : ∀ {forced : Bool}, ∀ e ∈ expanded,
      (forced = true ∨ e.2.any g.awaitsIntersection = false) → Resolvable ρ forced s₁ o e := by
    intro forced e he hready
    obtain ⟨hr, hm⟩ := hexp e he
    refine ⟨?_, fun m hme => ?_, fun v hv m hme => ?_, hready.imp id fun h m hme x hx => ?_⟩
    · rw [hg]
      exact hint _ hr
    · rw [hm] at hme
      rw [H.size_eq]
      exact lt_of_mem_walk (mem_expandedMembers.1 hme).1
    · rw [hm] at hme
      exact H.admits_nested (mem_expandedMembers.1 hme).1 hv
    · rw [hg] at hx ⊢
      rw [List.any_eq_false] at h
      have hm := h m hme
      rw [awaitsIntersection, Bool.not_eq_true, List.any_eq_false] at hm
      simpa using hm x hx
  split
  next chosen forced heq =>
  split at heq
  · cases heq
    refine forM_resolve_spec hρ hsep expanded (hfst ▸ hrs) H₁ fun e he => hres e he (.inl rfl)
  · cases heq
    refine forM_resolve_spec hρ hsep ready ?_ H₁ fun e he => ?_
    · exact (hfst ▸ hrs : (expanded.map Prod.fst).Nodup).sublist
        (List.filter_sublist.map Prod.fst)
    · obtain ⟨he, hready⟩ := List.mem_filter.1 he
      exact hres e he (.inr (by simpa using hready))

theorem isIntersection_of_mem_reachable {g : Graph} {r : NodeId}
    (h : r ∈ g.reachableIntersections) : (g.kind r).isIntersection = true := by
  have h := SortedSet.mem_ofList.1 (SortedSet.mem_toList.1 h)
  exact (List.mem_filter.1 h).2

theorem reachableIntersections_eq_nil {g : Graph}
    (h : ∀ r < g.size, (g.kind r).isIntersection = false) : g.reachableIntersections = [] := by
  refine List.eq_nil_iff_forall_not_mem.2 fun r hr => ?_
  have hi := isIntersection_of_mem_reachable hr
  rw [h r (lt_size_of_isIntersection hi)] at hi
  cases hi

/-- Rounds change nothing where no intersection is left. -/
theorem rounds_of_nil (h : s.graph.reachableIntersections = []) (n : Nat) : rounds n s = s := by
  cases n with
  | zero => rfl
  | succ n => simp only [rounds, h]

/-- **Any number of rounds is faithful.** -/
theorem rounds_spec (hρ : ρ.openClasses = false) (hsep : ρ.Separate) (n : Nat)
    (H : Faithful ρ g₀ s o) : ∃ o', Faithful ρ g₀ (rounds n s) o' := by
  induction n generalizing s o with
  | zero => exact ⟨o, H⟩
  | succ n ih =>
    unfold rounds
    split
    · exact ⟨o, H⟩
    · have hnodup : s.graph.reachableIntersections.Nodup :=
        (SortedSet.sorted _).imp fun h => Nat.ne_of_lt h
      obtain ⟨o₁, H₁⟩ := round_spec hρ hsep H hnodup fun r => isIntersection_of_mem_reachable
      exact ih H₁

/-! ## From the resolved graph back to the old kinds -/

theorem faithful_start {g : Graph} (hg : g.WellFormed) (hfree : ∀ r, ρ.Free (g.kind r).listed) :
    Faithful ρ g (.ofGraph g) g where
  toBeside := .refl hg
  wellFormed_old := hg
  kept _ := .inl rfl
  free := hfree
  nested_lt r hr c hc := by
    rw [kind_eq_nothing_of_le hr] at hc
    cases hc
  intersections set r h := by cases h
  unions set r h := by cases h
  objects set r h := by cases h

/-- What is nested in a node by now was nested in it before. -/
theorem Faithful.nested_subset (H : Faithful ρ g₀ s o) (hr : r < s.graph.size) {x : NodeId}
    (hx : x ∈ s.graph.nested r) : x ∈ o.nested r := by
  refine nested_induction (P := fun x => x ∈ o.nested r) (self_mem_nested (H.size_eq ▸ hr))
    (fun x c hx hc => ?_) hx
  rcases H.kept x with hk | ⟨-, hi, -⟩
  · exact mem_nested_of_mem H.wellFormed_old hx (hk ▸ hc)
  · rw [Kind.isIntersection_of_mem hc] at hi
    cases hi

/-- **The resolved graph admits, with what intersections are left unnested, all that the old kinds
    do.** -/
theorem Faithful.admits_unnested (H : Faithful ρ g₀ s o) (hv : o.unnested.Admits ρ r v) :
    s.graph.unnested.Admits ρ r v := by
  refine Admits.transfer (f := id) (fun r v hv => ?_) hv
  have hlands : ∀ {r v}, LandsAt ρ s.graph o r v → (s.graph.kind r).isIntersection = false →
      Lands ρ o.unnested s.graph.unnested id r v := by
    rintro r v ⟨t, ht, hground, -, hadm⟩ hi
    refine ⟨s.graph.kind t, t, hground, hadm, ?_, ht.imp id fun ht => ?_⟩
    · rw [kind_unnested_of_not (Kind.isGround_iff.1 hground).2, Kind.mapChildren_id]
    · rwa [id_eq, kind_unnested_of_not hi]
  rcases H.kept r with hk | ⟨-, hi, hland⟩
  · by_cases hi : (s.graph.kind r).isIntersection = true
    · -- the members that are left are members still, or values land at them
      refine .inr (.inl ⟨_, by rw [id_eq, kind_unnested, if_pos hi], fun m hm => ⟨m, rfl, ?_⟩⟩)
      obtain ⟨hm, hmi⟩ := mem_expandedMembers.1 (SortedSet.mem_ofList.1 hm)
      have hrlt : r < s.graph.size := lt_size_of_isIntersection hi
      rcases H.kept m with hkm | ⟨-, -, hland⟩
      · refine .inl ?_
        rw [kind_unnested, ← hk, if_pos hi]
        refine SortedSet.mem_toList.2 (SortedSet.mem_ofList.2 (mem_expandedMembers.2 ⟨?_, ?_⟩))
        · exact H.nested_subset hrlt hm
        · rwa [← hkm]
      · exact .inr (hlands (hland v (H.admits_nested hm hv)) hmi)
    · refine .inl ?_
      have hi : (s.graph.kind r).isIntersection = false := by simpa using hi
      rw [id_eq, kind_unnested_of_not hi, kind_unnested_of_not (hk ▸ hi), hk, Kind.mapChildren_id]
  · exact .inr (.inr (hlands (hland v hv) hi))

end Resolution

end SchemaTypes
