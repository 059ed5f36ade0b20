/-
  Unions in which members of only one category are left to merge.

  * `Graph.NearlyFlat`: the members of every union are of pairwise different categories, but for
    one.  So it is where strings were expanded or formats represented in a flat graph
    (`nearlyFlat_expandStrings`, `nearlyFlat_representFormats`);
  * `Makes`: which kinds merging types of that category makes;
  * `added_unify`: flattening such a union makes no other node than one of these;
  * `every_flattenUnions_of_nearlyFlat`: so flattening makes no types but those and unions;
  * `flattenUnions_done_of_nearlyFlat`: and is done at once.
-/
import SchemaTypes.Proofs.Settling

namespace SchemaTypes.Graph

open Kind

variable {g g' : Graph} {conflate : Bool} {c₀ : Category} {ms : SortedSet NodeId}
  {K P : Kind → Prop}

/-! ## Nearly flat unions -/

/-- There are members, of categories that are pairwise different but for one. -/
structure NearlyFlatMembers (c₀ : Category) (g : Graph) (ms : SortedSet NodeId) : Prop where
  exists_mem : ∃ m, m ∈ ms
  categorized : ∀ m ∈ ms, ∃ c, (g.kind m).category? = some c
  eq_of_category : ∀ m ∈ ms, ∀ n ∈ ms, ∀ c, c ≠ c₀ → (g.kind m).category? = some c →
    (g.kind n).category? = some c → m = n

/-- All unions are nearly flat. -/
def NearlyFlat (c₀ : Category) (g : Graph) : Prop :=
  ∀ r ms, g.kind r = .union ms → NearlyFlatMembers c₀ g ms

theorem FlatMembers.nearly (hms : g.FlatMembers conflate ms) (c₀ : Category) :
    NearlyFlatMembers c₀ g ms where
  exists_mem := by
    obtain ⟨m, hm, -⟩ := hms.exists_ne
    exact ⟨m, hm⟩
  categorized := hms.categorized
  eq_of_category m hm n hn _ _ hcm hcn := hms.eq_of_category m hm n hn (hcm.trans hcn.symm)

theorem NearlyFlatMembers.congr (hms : NearlyFlatMembers c₀ g ms)
    (hk : ∀ m ∈ ms, g'.kind m = g.kind m) : NearlyFlatMembers c₀ g' ms where
  exists_mem := hms.exists_mem
  categorized m hm := (hk m hm).symm ▸ hms.categorized m hm
  eq_of_category m hm n hn c hne := by
    rw [hk m hm, hk n hn]
    exact hms.eq_of_category m hm n hn c hne

theorem NearlyFlatMembers.not_isUnion (hms : NearlyFlatMembers c₀ g ms) {m : NodeId} (hm : m ∈ ms) :
    (g.kind m).isUnion = false := by
  obtain ⟨c, hc⟩ := hms.categorized m hm
  generalize g.kind m = k at hc
  cases k <;> first | rfl | cases hc

theorem NearlyFlat.collect (hg : NearlyFlat c₀ g) : NearlyFlat c₀ g.collect := by
  intro i ms hi
  obtain ⟨r, hr, ns, hk, rfl⟩ := exists_union_of_collect hi
  have hns := hg r ns hk
  -- a category of a member is that of the old one
  have hcat : ∀ m ∈ ns, ∀ c, (g.collect.kind (g.place m)).category? = some c →
      (g.kind m).category? = some c := by
    intro m hm c hc
    obtain ⟨d, hd⟩ := hns.categorized m hm
    rwa [hd, ← category_collect hr hk hm hd]
  constructor
  · obtain ⟨m, hm⟩ := hns.exists_mem
    exact ⟨g.place m, SortedSet.mem_map.2 ⟨m, hm, rfl⟩⟩
  · intro m' hm'
    obtain ⟨m, hm, rfl⟩ := SortedSet.mem_map.1 hm'
    obtain ⟨c, hc⟩ := hns.categorized m hm
    exact ⟨c, category_collect hr hk hm hc⟩
  · intro m' hm' n' hn' c hne hcm hcn
    obtain ⟨m, hm, rfl⟩ := SortedSet.mem_map.1 hm'
    obtain ⟨n, hn, rfl⟩ := SortedSet.mem_map.1 hn'
    rw [hns.eq_of_category m hm n hn c hne (hcat m hm c hcm) (hcat n hn c hcn)]

/-- Unions are nearly flat if they were flat and members changed to one category alone. -/
theorem Flat.nearly (hg : g.Flat conflate)
    (hu : ∀ r ms, g'.kind r = .union ms → g.kind r = .union ms)
    (hsome : ∀ m, (∃ c, (g.kind m).category? = some c) → ∃ c, (g'.kind m).category? = some c)
    (hcat : ∀ m c, c ≠ c₀ → (g'.kind m).category? = some c → (g.kind m).category? = some c) :
    NearlyFlat c₀ g' := by
  intro r ms hr
  have hms := hg r ms (hu r ms hr)
  constructor
  · obtain ⟨m, hm, -⟩ := hms.exists_ne
    exact ⟨m, hm⟩
  · exact fun m hm => hsome m (hms.categorized m hm)
  · intro m hm n hn c hne hcm hcn
    exact hms.eq_of_category m hm n hn ((hcat m c hne hcm).trans (hcat n c hne hcn).symm)

/-! ## Expanded strings -/

theorem kind_expandStrings (inference : EnumInference) (g : Graph) (r : NodeId) :
    (expandStrings inference g).kind r = expandString inference (g.kind r) := by
  by_cases hr : r < g.size
  · exact kind_mapKinds _ hr
  · rw [kind_eq_nothing_of_le (by simpa [expandStrings] using Nat.not_lt.1 hr),
      kind_eq_nothing_of_le (Nat.not_lt.1 hr)]
    rfl

theorem nearlyFlat_expandStrings (hg : g.Flat conflate) (inference : EnumInference) :
    NearlyFlat .enumeration (expandStrings inference g) := by
  refine hg.nearly (fun r ms hr => ?_) (fun m hm => ?_) fun m c hne hc => ?_
  · rw [kind_expandStrings] at hr
    unfold expandString at hr
    split at hr
    · split at hr <;> cases hr
    · exact hr
  · rw [kind_expandStrings]
    unfold expandString
    split
    · split <;> exact ⟨_, rfl⟩
    · exact hm
  · rw [kind_expandStrings] at hc
    unfold expandString at hc
    split at hc
    · next hk =>
      rw [hk]
      split at hc
      · cases hc
        exact absurd rfl hne
      · exact hc
    · exact hc

/-! ## Represented formats -/

/-- Formats stay where they are native, and become strings elsewhere. -/
theorem kind_representFormats (representation : Format → Representation) (g : Graph) (r : NodeId) :
    ((representFormats representation g).kind r = g.kind r ∧
        ∀ f, g.kind r = .formatted f → representation f = .native) ∨
      (∃ f, g.kind r = .formatted f) ∧
        (representFormats representation g).kind r = .string none := by
  have hnode : (representFormats representation g).kind r =
      (representFormat representation (g.node r)).kind := by
    simp only [kind, node, representFormats, Array.getD_eq_getD_getElem?, Array.getElem?_map]
    cases g.nodes[r]? <;> rfl
  rw [hnode]
  change _ ∧ (∀ f, (g.node r).kind = _ → _) ∨ (∃ f, (g.node r).kind = _) ∧ _
  unfold representFormat
  split
  · next f hf =>
    split
    · next hrep =>
      refine .inl ⟨rfl, fun f' hf' => ?_⟩
      cases hf.symm.trans hf'
      exact hrep
    · exact .inr ⟨⟨f, hf⟩, rfl⟩
    · exact .inr ⟨⟨f, hf⟩, rfl⟩
  · next hne => exact .inl ⟨rfl, fun f hf => absurd hf (hne f)⟩

theorem Every.representFormats (h : g.Every K) (hs : K (.string none))
    (representation : Format → Representation) :
    (g.representFormats representation).Every fun k =>
      K k ∧ ∀ f, k = .formatted f → representation f = .native := by
  intro r hr
  have hr : r < g.size := by simpa [size, Graph.representFormats] using hr
  rcases kind_representFormats representation g r with ⟨hk, hnative⟩ | ⟨-, hk⟩
  · rw [hk]
    exact ⟨h r hr, hnative⟩
  · rw [hk]
    exact ⟨hs, fun _ h => by cases h⟩

theorem nearlyFlat_representFormats (hg : g.Flat conflate)
    (representation : Format → Representation) :
    NearlyFlat .string (g.representFormats representation) := by
  refine hg.nearly (fun r ms hr => ?_) (fun m hm => ?_) fun m c hne hc => ?_
  · rcases kind_representFormats representation g r with ⟨hk, -⟩ | ⟨-, hk⟩
    · exact hk.symm.trans hr
    · cases hk.symm.trans hr
  · rcases kind_representFormats representation g m with ⟨hk, -⟩ | ⟨-, hk⟩
    · rwa [hk]
    · exact ⟨_, congrArg Kind.category? hk⟩
  · rcases kind_representFormats representation g m with ⟨hk, -⟩ | ⟨-, hk⟩
    · rwa [← hk]
    · rw [hk] at hc
      cases hc
      exact absurd rfl hne

/-! ## Merged members -/

/-- Merging types of a category that are of kinds of `K` makes kinds of `P`. -/
structure Makes (c₀ : Category) (K P : Kind → Prop) : Prop where
  subset : ∀ k, P k → K k
  category : ∀ k, P k → k.category? = some c₀
  added : ∀ (g : Graph) (rs : List NodeId), rs ≠ [] →
    (∀ r ∈ rs, (g.kind r).category? = some c₀) → (∀ r ∈ rs, K (g.kind r)) →
      Added P g (g.mergeCategory c₀ rs).2

/-- Enumerations are merged into enumerations. -/
theorem makes_enumeration :
    Makes .enumeration (fun _ => True) (fun k => k.category? = some .enumeration) where
  subset _ _ := trivial
  category _ h := h
  added g rs _ _ _ := by
    unfold mergeCategory
    split
    · exact .refl g
    · exact Added.push rfl fun c hc => by cases hc

/-- Where no strings are listed, string types are merged into that of all strings. -/
theorem makes_string (hs : K (.string none))
    (hlisted : ∀ k, K k → ∀ cases, k ≠ .string (some cases)) :
    Makes .string K (· = .string none) where
  subset k hk := hk ▸ hs
  category k hk := hk ▸ rfl
  added g rs hne hc h := by
    unfold mergeCategory
    split
    · exact .refl g
    have hkinds : (rs.map g.kind).contains (.string none) = true := by
      obtain ⟨r, hr⟩ := List.exists_mem_of_ne_nil rs hne
      have hkr := hlisted _ (h r hr)
      have hcr := hc r hr
      refine List.contains_iff_mem.2 (List.mem_map.2 ⟨r, hr, ?_⟩)
      generalize g.kind r = k at hkr hcr
      cases k <;> cases hcr
      next cases =>
      cases cases with
      | none => rfl
      | some cases => exact absurd rfl (hkr cases)
    refine Added.push (n := g.mergedStrings rs) ?_ fun c hc => ?_
    · simp only [mergedStrings, Node.new, hkinds, if_true]
    · exact absurd hc List.not_mem_nil

/-- Leaves of categories that are pairwise different but for one. -/
structure Apart (c₀ : Category) (g : Graph) (ls : List NodeId) : Prop where
  nodup : ls.Nodup
  categorized : ∀ l ∈ ls, ∃ c, (g.kind l).category? = some c
  eq_of_category : ∀ l ∈ ls, ∀ m ∈ ls, ∀ c, c ≠ c₀ → (g.kind l).category? = some c →
    (g.kind m).category? = some c → l = m

theorem Apart.congr {ls : List NodeId} (h : Apart c₀ g ls) (hg : g.Grows g') : Apart c₀ g' ls := by
  have hk : ∀ l ∈ ls, g'.kind l = g.kind l := fun l hl => by
    obtain ⟨c, hc⟩ := h.categorized l hl
    exact hg.kind_eq l (lt_size_of_category hc)
  refine ⟨h.nodup, fun l hl => (hk l hl).symm ▸ h.categorized l hl, fun l hl m hm c hne => ?_⟩
  rw [hk l hl, hk m hm]
  exact h.eq_of_category l hl m hm c hne

theorem added_mergeCategory (hM : Makes c₀ K P) {c : Category} {rs : List NodeId}
    (hrs : rs ≠ []) (hc : ∀ r ∈ rs, (g.kind r).category? = some c) (h : ∀ r ∈ rs, K (g.kind r))
    (hone : c ≠ c₀ → ∀ r ∈ rs, ∀ s ∈ rs, r = s) (hnodup : rs.Nodup) :
    Added P g (g.mergeCategory c rs).2 := by
  by_cases hcat : c = c₀
  · subst hcat
    exact hM.added g rs hrs hc h
  · obtain ⟨r, rest, rfl⟩ := List.exists_cons_of_ne_nil hrs
    cases rest with
    | nil => exact .refl g
    | cons s rest =>
      have heq := hone hcat r List.mem_cons_self s (List.mem_cons_of_mem r List.mem_cons_self)
      exact absurd (heq ▸ List.mem_cons_self) (List.nodup_cons.1 hnodup).1

/-- Leaves of the categories in question are merged into some member. -/
theorem mergeCategories_ne_nil {ls : List NodeId} {cs : List Category}
    (h : ∃ l ∈ ls, ∃ c ∈ cs, (g.kind l).category? = some c) : (mergeCategories ls cs g).1 ≠ [] := by
  obtain ⟨l, hl, d, hd, hld⟩ := h
  induction cs with
  | nil => cases hd
  | cons c cs ih =>
    unfold mergeCategories
    split
    · next hnil =>
      refine ih ((List.mem_cons.1 hd).resolve_left fun heq => ?_)
      rw [List.filter_eq_nil_iff] at hnil
      exact hnil l hl (decide_eq_true (heq ▸ hld))
    · exact List.cons_ne_nil _ _

theorem unify_ne_nil {ls : List NodeId} (hne : ls ≠ [])
    (hls : ∀ l ∈ ls, ∃ c, (g.kind l).category? = some c) : (g.unify conflate ls).1 ≠ [] := by
  unfold unify
  split
  · exact List.cons_ne_nil _ _
  · obtain ⟨l, hl⟩ := List.exists_mem_of_ne_nil ls hne
    obtain ⟨c, hc⟩ := hls l hl
    refine mergeCategories_ne_nil ?_
    rcases g.mem_mergedCategories conflate ls c with hmem | ⟨-, d, hd, hdouble⟩
    · exact ⟨l, hl, c, hmem, hc⟩
    · refine ⟨d, hd, .double, ?_, hdouble⟩
      exact (g.mem_mergedCategories conflate ls .double).resolve_right fun h => nomatch h.1

theorem added_unify (hM : Makes c₀ K P) {ls : List NodeId} (hls : Apart c₀ g ls)
    (h : ∀ l ∈ ls, K (g.kind l)) : Added P g (g.unify conflate ls).2 := by
  refine unify_induction conflate (fun g₁ c rs hadded hne hsub hrs => ?_) (.refl g)
  have hls₁ := hls.congr hadded.toGrows
  have hK : ∀ r ∈ rs, K (g₁.kind r) := fun r hr => by
    obtain ⟨d, hd⟩ := hls.categorized r (hsub.subset hr)
    rw [hadded.kind_eq r (lt_size_of_category hd)]
    exact h r (hsub.subset hr)
  exact hadded.trans (added_mergeCategory hM hne hrs hK
    (fun hcat r hr s hs => hls₁.eq_of_category r (hsub.subset hr) s (hsub.subset hs) c hcat
      (hrs r hr) (hrs s hs))
    (hsub.nodup hls.nodup))

/-! ## One union after the other -/

theorem mem_leaves {u m : NodeId} (hu : g.kind u = .union ms) (hms : NearlyFlatMembers c₀ g ms) :
    m ∈ g.leaves u ↔ m ∈ ms := by
  constructor
  · intro hm
    obtain ⟨hwalk, hnot⟩ := List.mem_filter.1 hm
    have hor : m = u ∨ m ∈ ms := by
      refine walk_induction (P := fun m => m = u ∨ m ∈ ms) (fun r hr => ?_) ?_ hwalk
      · exact .inl (List.mem_singleton.1 hr)
      · rintro r c (rfl | hr) hc
        · rw [hu] at hc
          exact .inr hc
        · have hr := hms.not_isUnion hr
          rw [isUnion_of_mem hc] at hr
          cases hr
    refine hor.resolve_left fun heq => ?_
    subst heq
    rw [hu] at hnot
    cases hnot
  · intro hm
    obtain ⟨c, hc⟩ := hms.categorized m hm
    have hwalk : u ∈ g.unionWalk u :=
      mem_walk_of_mem_starts (List.mem_singleton_self u) (lt_size_of_union hu)
    refine List.mem_filter.2 ⟨mem_walk_of_mem_next hwalk (by rw [hu]; exact hm)
      (lt_size_of_category hc), ?_⟩
    simp [hms.not_isUnion hm]

theorem apart_leaves {u : NodeId} (hu : g.kind u = .union ms) (hms : NearlyFlatMembers c₀ g ms) :
    Apart c₀ g (g.leaves u) ∧ g.leaves u ≠ [] := by
  have hmem : ∀ {l}, l ∈ g.leaves u ↔ l ∈ ms := mem_leaves hu hms
  refine ⟨⟨nodup_walk.filter _, fun l hl => hms.categorized l (hmem.1 hl), fun l hl m hm =>
    hms.eq_of_category l (hmem.1 hl) m (hmem.1 hm)⟩, ?_⟩
  obtain ⟨m, hm⟩ := hms.exists_mem
  exact List.ne_nil_of_mem (hmem.2 hm)

/-- A graph under flattening whose kinds are of a class; the unions that are still to be
    flattened are nearly flat. -/
structure Remaining (c₀ : Category) (K : Kind → Prop) (us : List NodeId) (g : Graph) : Prop where
  every : g.Every K
  nearlyFlat : ∀ u ∈ us, ∀ ms, g.kind u = .union ms → NearlyFlatMembers c₀ g ms

theorem NearlyFlatMembers.grow (hms : NearlyFlatMembers c₀ g ms) (hg : g.Grows g') :
    NearlyFlatMembers c₀ g' ms :=
  hms.congr fun m hm => by
    obtain ⟨c, hc⟩ := hms.categorized m hm
    exact hg.kind_eq m (lt_size_of_category hc)

/-- The other unions stay as they are when one is changed. -/
theorem NearlyFlatMembers.modify (hms : NearlyFlatMembers c₀ g ms) {u : NodeId}
    (hu : (g.kind u).isUnion = true) (f : Node → Node) : NearlyFlatMembers c₀ (g.modify u f) ms :=
  hms.congr fun m hm => by
    have hne : u ≠ m := by
      rintro rfl
      rw [hms.not_isUnion hm] at hu
      cases hu
    obtain ⟨c, hc⟩ := hms.categorized m hm
    rw [kind_modify _ _ _ _ (lt_size_of_category hc), if_neg hne]

theorem Remaining.added {us : List NodeId} (h : Remaining c₀ K us g) (hM : Makes c₀ K P)
    (hadded : Added P g g') : Remaining c₀ K us g' where
  every := hadded.every h.every hM.subset
  nearlyFlat w hw ns hk := by
    by_cases hlt : w < g.size
    · rw [hadded.kind_eq w hlt] at hk
      exact (h.nearlyFlat w hw ns hk).grow hadded.toGrows
    · have hcat := hM.category _ (hadded.kind_new w (Nat.not_lt.1 hlt) (lt_size_of_union hk))
      rw [hk] at hcat
      cases hcat

theorem Remaining.addAttributes {us : List NodeId} (h : Remaining c₀ K us g) (r : NodeId)
    (a : Attributes) : Remaining c₀ K us (g.addAttributes r a) where
  every := h.every.addAttributes r a
  nearlyFlat w hw ns hk := by
    rw [kind_addAttributes] at hk
    exact (h.nearlyFlat w hw ns hk).grow (grows_addAttributes g r a)

theorem Remaining.modify {us : List NodeId} (h : Remaining c₀ K us g) {u : NodeId} (hnot : u ∉ us)
    (hu : (g.kind u).isUnion = true) {f : Node → Node} (hf : ∀ n, K (f n).kind) :
    Remaining c₀ K us (g.modify u f) where
  every := h.every.modify fun _ => hf _
  nearlyFlat w hw ns hk := by
    have hne : u ≠ w := fun heq => hnot (heq ▸ hw)
    rw [kind_modify _ _ _ _ (by simpa using lt_size_of_union hk), if_neg hne] at hk
    exact (h.nearlyFlat w hw ns hk).modify hu f

theorem remaining_step (hM : Makes c₀ K P) (hu : ∀ ms, K (.union ms)) {s : Flattening}
    {u : NodeId} {us : List NodeId} (hnot : u ∉ us) (h : Remaining c₀ K (u :: us) s.graph) :
    Remaining c₀ K us (s.step conflate u).graph := by
  have hrest : Remaining c₀ K us s.graph :=
    ⟨h.every, fun w hw => h.nearlyFlat w (List.mem_cons_of_mem u hw)⟩
  refine Flattening.step_cases (P := fun s => Remaining c₀ K us s.graph) (fun _ _ _ => hrest)
    (fun _ => hrest) fun _ hflat ms g₁ heq a _ => ?_
  obtain ⟨ns, hns⟩ : ∃ ns, s.graph.kind u = .union ns := by
    refine ⟨_, Kind.eq_union_of_isUnion ?_⟩
    rw [isFlat] at hflat
    split at hflat
    · next heq => exact congrArg Kind.isUnion heq
    · cases hflat
  obtain ⟨hapart, hne⟩ := apart_leaves hns (h.nearlyFlat u List.mem_cons_self ns hns)
  have hadded : Added P s.graph (s.graph.unify conflate (s.graph.leaves u)).2 :=
    added_unify hM hapart fun l hl => h.every l (lt_of_mem_walk (List.mem_filter.1 hl).1)
  have hsome : (s.graph.unify conflate (s.graph.leaves u)).1 ≠ [] :=
    unify_ne_nil hne hapart.categorized
  rw [heq] at hadded hsome
  have hnext := hrest.added hM hadded
  have hunion : (g₁.kind u).isUnion = true := by
    rw [hadded.kind_eq u (lt_size_of_union hns), hns]
    rfl
  exact ⟨fun hnil => absurd hnil hsome, fun m _ => hnext.addAttributes m a,
    fun _ => hnext.modify hnot hunion fun _ => hu _⟩

theorem remaining_foldl (hM : Makes c₀ K P) (hu : ∀ ms, K (.union ms)) (us : List NodeId)
    (hnodup : us.Nodup) {s : Flattening} (h : Remaining c₀ K us s.graph) :
    Remaining c₀ K [] (us.foldl (Flattening.step conflate) s).graph := by
  induction us generalizing s with
  | nil => exact h
  | cons u us ih =>
    rw [List.nodup_cons] at hnodup
    exact ih hnodup.2 (remaining_step hM hu hnodup.1 h)

/-- **Flattening a nearly flat graph makes no types but merged ones and unions.** -/
theorem every_flattenUnions_of_nearlyFlat (hM : Makes c₀ K P) (hK : Renamable K)
    (hu : ∀ ms, K (.union ms)) (hg : NearlyFlat c₀ g) (h : g.Every K) :
    (flattenUnions conflate g).1.Every K := by
  have hnodup : (g.idsWhere Kind.isUnion).Nodup := List.nodup_range.filter _
  have hfold : Remaining c₀ K [] (g.settle conflate).graph :=
    remaining_foldl hM hu _ hnodup ⟨h, fun u _ => hg u⟩
  exact (hfold.every.forward hK _).collect hK

/-- Nearly flat unions are nearly flat until their turn comes. -/
theorem Settling.nearlyFlatMembers {us : List NodeId} {s : Flattening}
    (H : Settling conflate P g us s) (hms : NearlyFlatMembers c₀ g ms) :
    NearlyFlatMembers c₀ s.graph ms :=
  hms.congr fun m hm => by
    obtain ⟨c, hc⟩ := hms.categorized m hm
    exact (H.kept m (lt_size_of_category hc) (.inl (hms.not_isUnion hm))).1

/-- **Flattening a nearly flat graph is done at once.** -/
theorem flattenUnions_done_of_nearlyFlat (hM : Makes c₀ K P) (hg : g.WellFormed)
    (hinter : g.Every (·.isIntersection = false)) (hflat : NearlyFlat c₀ g) (h : g.Every K) :
    (flattenUnions conflate g).2 = true := by
  refine flattenUnions_done (P := P) hg hinter (fun k hk => ?_) fun u us s hu H => ?_
  · have hcat := hM.category k hk
    cases k <;> first | rfl | cases hcat
  · obtain ⟨ms, hms⟩ : ∃ ms, g.kind u = .union ms := ⟨_, eq_union_of_isUnion hu⟩
    have hu' := (H.kept u (lt_size_of_union hms) (.inr (.inr List.mem_cons_self))).1.trans hms
    have hmembers := H.nearlyFlatMembers (hflat u ms hms)
    obtain ⟨hapart, -⟩ := apart_leaves hu' hmembers
    refine added_unify hM hapart fun l hl => ?_
    have hl := (mem_leaves hu' hmembers).1 hl
    obtain ⟨c, hc⟩ := (hflat u ms hms).categorized l hl
    have hlt := lt_size_of_category hc
    rw [(H.kept l hlt (.inl ((hflat u ms hms).not_isUnion hl))).1]
    exact h l hlt

end SchemaTypes.Graph
