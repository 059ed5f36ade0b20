/-
  Flat unions admit what the unions they replace do.

  * `merged_unify`: the members that leaves are merged into admit what the leaves do;
  * `Sound`: what a partly flattened graph has to do with a graph that keeps the old kinds,
    kept by each step (`sound_step`);
  * `admitsAt_flattenUnions`: flattening loses no value.
-/
import SchemaTypes.Graph.Flattening
import SchemaTypes.Proofs.Unification

namespace SchemaTypes

variable {ρ : Reading} {A : NodeId → Json → Prop}

/-! ## Kinds -/

theorem Kind.ground_cases {k : Kind} (h : k.isGround = true) :
    k = .nothing ∨ k = .any ∨ ∃ c, k.category? = some c := by
  cases k <;> first | cases h; done | simp [category?]

theorem Kind.isGround_of_category {k : Kind} {c : Category} (h : k.category? = some c) :
    k.isGround = true := by
  cases k <;> first | rfl | cases h

theorem Kind.ne_nothing_of_category {k : Kind} {c : Category} (h : k.category? = some c) :
    k ≠ .nothing := by
  rintro rfl
  cases h

theorem Kind.category_of_isObjectLike {k : Kind} (h : k.isObjectLike = true) :
    k.category? = some .object := by
  cases k <;> first | rfl | cases h

theorem Kind.isObjectLike_of_category {k : Kind} (h : k.category? = some .object) :
    k.isObjectLike = true := by
  cases k <;> first | rfl | cases h

/-- Categories other than those of strings, enumerations, arrays and objects have one kind. -/
theorem Kind.eq_of_category {k l : Kind} {c : Category} (hk : k.category? = some c)
    (hl : l.category? = some c) (hs : c ≠ .string) (he : c ≠ .enumeration) (ha : c ≠ .array)
    (ho : c ≠ .object) : k = l := by
  cases k <;> cases hk <;> first | contradiction | skip
  all_goals cases l <;> first | cases hl; rfl | cases hl

namespace Graph

variable {g g' h : Graph}

/-! ## Merged members -/

/-- What merging gives: a graph that grew and ground members in it, leaves or new nodes, one of
    which admits what a leaf of the kinds in question does. -/
structure Merged (ls : List NodeId) (P : Kind → Prop) (g : Graph) (ms : List NodeId)
    (g' : Graph) : Prop where
  grows : g.Grows g'
  lt_size : ∀ m ∈ ms, m < g'.size
  old_or_new : ∀ m ∈ ms, m ∈ ls ∨ g.size ≤ m
  kind_cases : ∀ m ∈ ms, g'.kind m = .any ∨ ∃ c, (g'.kind m).category? = some c
  admits : ∀ (ρ : Reading) (h : Graph), ρ.openClasses = false → h.Agrees g g' →
    (∀ l ∈ ls, g.kind l ≠ .nothing → h.kind l = g.kind l) →
    ∀ l ∈ ls, h.kind l = g.kind l → P (g.kind l) → ∀ v, h.Admits ρ l v → ∃ m ∈ ms, h.Admits ρ m v

/-- Merging into one new node. -/
theorem merged_push {rs : List NodeId} {P : Kind → Prop} {g₁ : Graph} {n : Node}
    (h₁ : g.Grows g₁) (hn : ∃ c, n.kind.category? = some c) (hc : ∀ c ∈ n.kind.children, c < g₁.size)
    (hadm : ∀ (ρ : Reading) (h : Graph), ρ.openClasses = false → h.Agrees g g₁ →
      ∀ r ∈ rs, P (g.kind r) → ∀ v, (g.kind r).Admits ρ (h.Admits ρ) v →
        n.kind.Admits ρ (h.Admits ρ) v) :
    Merged rs P g [g₁.size] (g₁.push n) := by
  have h₂ : g₁.Grows (g₁.push n) := grows_push fun c hcn => Nat.lt_succ_of_lt (hc c hcn)
  have hkind : (g₁.push n).kind g₁.size = n.kind := by rw [kind_push, if_pos rfl]
  refine ⟨h₁.trans h₂, ?_, ?_, ?_, fun ρ h hρ hh _ l hl hkl hP v hv => ?_⟩
  · simp
  · simpa using .inr h₁.size_le
  · simpa [hkind] using .inr hn
  · refine ⟨g₁.size, by simp, ?_⟩
    rw [admits_iff, hh g₁.size h₁.size_le (by simp), hkind]
    rw [admits_iff, hkl] at hv
    exact hadm ρ h hρ (hh.left h₂) l hl hP v hv

theorem mem_itemTypes {kinds : List Kind} {t : NodeId} :
    t ∈ itemTypes kinds ↔ .array t ∈ kinds := by
  simp only [itemTypes, SortedSet.mem_ofList, List.mem_flatMap]
  constructor
  · rintro ⟨k, hk, ht⟩
    split at ht
    · rwa [List.mem_singleton.1 ht]
    · cases ht
  · exact fun hk => ⟨_, hk, List.mem_singleton_self t⟩

/-- The types of the items of arrays are children of these. -/
theorem exists_child_of_mem_itemTypes {rs : List NodeId} {t : NodeId}
    (ht : t ∈ itemTypes (rs.map g.kind)) : ∃ r ∈ rs, t ∈ (g.kind r).children := by
  obtain ⟨r, hr, heq⟩ := List.mem_map.1 (mem_itemTypes.1 ht)
  exact ⟨r, hr, by rw [heq]; exact List.mem_singleton_self t⟩

theorem lt_of_mem_itemTypes (hg : g.WellFormed) (rs : List NodeId) :
    ∀ t ∈ itemTypes (rs.map g.kind), t < g.size := fun t ht => by
  obtain ⟨r, -, hr⟩ := exists_child_of_mem_itemTypes ht
  exact hg.lt_of_mem_children hr

theorem mem_listedCases {kinds : List Kind} {s : String} :
    s ∈ listedCases kinds ↔ ∃ cases : SortedSet String,
      s ∈ cases ∧ (.string (some cases) ∈ kinds ∨ .enumeration cases ∈ kinds) := by
  simp only [listedCases, SortedSet.mem_ofList, List.mem_flatMap]
  constructor
  · rintro ⟨k, hk, hs⟩
    split at hs
    · next cases => exact ⟨cases, SortedSet.mem_toList.1 hs, .inl hk⟩
    · next cases => exact ⟨cases, SortedSet.mem_toList.1 hs, .inr hk⟩
    · cases hs
  · rintro ⟨cases, hs, hk | hk⟩
    · exact ⟨_, hk, SortedSet.mem_toList.2 hs⟩
    · exact ⟨_, hk, SortedSet.mem_toList.2 hs⟩

/-- Several nodes of a category have one that admits what they do. -/
theorem merged_mergeCategory (hg : g.WellFormed) {c : Category} {rs : List NodeId}
    (hrs : rs ≠ []) (hlt : ∀ r ∈ rs, r < g.size)
    (hc : ∀ r ∈ rs, (g.kind r).category? = some c) :
    Merged rs (·.category? = some c) g [(g.mergeCategory c rs).1] (g.mergeCategory c rs).2 := by
  have hmem : ∀ r ∈ rs, g.kind r ∈ rs.map g.kind := fun r hr => List.mem_map_of_mem hr
  refine mergeCategory_cases (P := fun m => Merged rs (·.category? = some c) g [m]) hrs
    (fun only honly => ?only) (fun hstring => ?strings) (fun henumeration => ?enumerations)
    (fun harray => ?arrays) (fun hobject => ?objects) fun hs he ha ho first hfirst => ?first
  case only =>
    subst honly
    exact ⟨.refl g, hlt, fun m hm => .inl hm, fun r hr => .inr ⟨c, hc r hr⟩,
      fun ρ h _ _ _ l hl _ _ v hv => ⟨l, hl, hv⟩⟩
  case strings =>
    refine merged_push (.refl g) ⟨_, rfl⟩ (by simp [mergedStrings, Node.new, Kind.children]) ?_
    intro ρ h _ _ r hr hP v hv
    have hmem := hmem r hr
    subst hstring
    generalize g.kind r = k at hP hv hmem
    cases k <;> cases hP
    next cases =>
    obtain ⟨s, rfl, hs⟩ := hv
    refine ⟨s, rfl, fun listed hlisted => ?_⟩
    split at hlisted
    · cases hlisted
    next hnone =>
    obtain rfl : listedCases (rs.map g.kind) = listed := by simpa using hlisted
    cases cases with
    | none => exact absurd (by simpa using hmem) hnone
    | some cases => exact mem_listedCases.2 ⟨cases, hs cases rfl, .inl hmem⟩
  case enumerations =>
    refine merged_push (.refl g) ⟨_, rfl⟩ (by simp [Node.new, Kind.children]) ?_
    intro ρ h _ _ r hr hP v hv
    have hmem := hmem r hr
    subst henumeration
    generalize g.kind r = k at hP hv hmem
    cases k <;> cases hP
    next cases =>
    obtain ⟨s, rfl, hs⟩ := hv
    exact ⟨s, rfl, mem_listedCases.2 ⟨cases, hs, .inr hmem⟩⟩
  case arrays =>
    have hlt := lt_of_mem_itemTypes hg rs
    refine merged_push (grows_unionOf hlt) ⟨_, rfl⟩ ?_ ?_
    · simpa [Node.new, Kind.children] using unionOf_lt hlt
    · intro ρ h _ hh r hr hP v hv
      have hmem := hmem r hr
      subst harray
      generalize g.kind r = k at hP hv hmem
      cases k <;> cases hP
      next items =>
      obtain ⟨vs, rfl, hvs⟩ := hv
      exact ⟨vs, rfl, fun w hw => admits_unionOf hh (mem_itemTypes.2 hmem) (hvs w hw)⟩
  case objects =>
    subst hobject
    have H := unified_unifyObjects hg rs
    exact merged_push H.grows ⟨_, Kind.category_of_isObjectLike H.isObjectLike⟩ H.lt_size
      fun ρ h hρ hh r hr hP => H.admits ρ h hρ hh r hr (Kind.isObjectLike_of_category hP)
  case first =>
    have hgrows := grows_setAttributes g first (g.joinedAttributes rs)
    have hcfirst := hc first hfirst
    refine ⟨hgrows, List.forall_mem_singleton.2 ?_, List.forall_mem_singleton.2 (.inl hfirst),
      List.forall_mem_singleton.2 ?_, fun ρ h _ _ hls l hl hkl _ v hv =>
        ⟨first, List.mem_singleton_self first, ?_⟩⟩
    · exact Nat.lt_of_lt_of_le (hlt first hfirst) hgrows.size_le
    · rw [hgrows.kind_eq first (hlt first hfirst)]
      exact .inr ⟨c, hcfirst⟩
    · have hkind : h.kind l = h.kind first := by
        rw [hkl, hls first hfirst (Kind.ne_nothing_of_category hcfirst)]
        exact Kind.eq_of_category (hc l hl) hcfirst hs he ha ho
      rwa [admits_iff, hkind, ← admits_iff] at hv

/-- Leaves of one category are merged into one member, and those of others into further ones. -/
theorem Merged.cons {ls rs ms : List NodeId} {c : Category} {cs : List Category} {r : NodeId}
    {g₁ : Graph} (hlt : ∀ l ∈ ls, l < g.size)
    (hrs : ∀ l, l ∈ rs ↔ l ∈ ls ∧ (g.kind l).category? = some c)
    (H : Merged rs (·.category? = some c) g [r] g₁)
    (H₁ : Merged ls (fun k => ∃ d ∈ cs, k.category? = some d) g₁ ms g') :
    Merged ls (fun k => ∃ d ∈ c :: cs, k.category? = some d) g (r :: ms) g' where
  grows := H.grows.trans H₁.grows
  lt_size := List.forall_mem_cons.2
    ⟨Nat.lt_of_lt_of_le (H.lt_size r (List.mem_singleton_self r)) H₁.grows.size_le, H₁.lt_size⟩
  old_or_new := List.forall_mem_cons.2
    ⟨(H.old_or_new r (List.mem_singleton_self r)).imp_left fun hr => ((hrs r).1 hr).1,
      fun m hm => (H₁.old_or_new m hm).imp_right (Nat.le_trans H.grows.size_le)⟩
  kind_cases := by
    refine List.forall_mem_cons.2 ⟨?_, H₁.kind_cases⟩
    rw [H₁.grows.kind_eq r (H.lt_size r (List.mem_singleton_self r))]
    exact H.kind_cases r (List.mem_singleton_self r)
  admits ρ h hρ hh hls l hl hkl hcat v hv := by
    have hkind : ∀ l ∈ ls, g₁.kind l = g.kind l := fun l hl => H.grows.kind_eq l (hlt l hl)
    obtain ⟨d, hd, hld⟩ := hcat
    rcases List.mem_cons.1 hd with rfl | hd
    · obtain ⟨m, hm, hv⟩ := H.admits ρ h hρ (hh.left H₁.grows) (fun l hl => hls l ((hrs l).1 hl).1)
        l ((hrs l).2 ⟨hl, hld⟩) hkl hld v hv
      exact ⟨m, List.mem_cons.2 (.inl (List.mem_singleton.1 hm)), hv⟩
    · obtain ⟨m, hm, hv⟩ := H₁.admits ρ h hρ (hh.right H.grows)
        (fun l hl => by rw [hkind l hl]; exact hls l hl) l hl (by rw [hkl, hkind l hl])
        ⟨d, hd, by rwa [hkind l hl]⟩ v hv
      exact ⟨m, List.mem_cons_of_mem r hm, hv⟩

/-- The leaves of several categories have members that admit what they do. -/
theorem merged_mergeCategories {ls : List NodeId} (cs : List Category) (hg : g.WellFormed)
    (hlt : ∀ l ∈ ls, l < g.size) :
    Merged ls (fun k => ∃ c ∈ cs, k.category? = some c) g (mergeCategories ls cs g).1
      (mergeCategories ls cs g).2 := by
  induction cs generalizing g with
  | nil =>
    refine ⟨.refl g, by simp [mergeCategories], by simp [mergeCategories],
      by simp [mergeCategories], fun _ _ _ _ _ _ _ _ hcat => ?_⟩
    obtain ⟨_, hc, _⟩ := hcat
    exact absurd hc List.not_mem_nil
  | cons c cs ih =>
    have hrs : ∀ l, l ∈ ls.filter (fun m => (g.kind m).category? = some c) ↔
        l ∈ ls ∧ (g.kind l).category? = some c := fun l => by simp
    simp only [mergeCategories]
    split
    · next hnil =>
      have H := ih hg hlt
      refine ⟨H.grows, H.lt_size, H.old_or_new, H.kind_cases,
        fun ρ h hρ hh hls l hl hkl hcat v hv => ?_⟩
      obtain ⟨d, hd, hld⟩ := hcat
      rcases List.mem_cons.1 hd with rfl | hd
      · exact absurd (hnil ▸ (hrs l).2 ⟨hl, hld⟩) List.not_mem_nil
      · exact H.admits ρ h hρ hh hls l hl hkl ⟨d, hd, hld⟩ v hv
    · next hne =>
      have H := merged_mergeCategory hg hne (fun r hr => hlt r ((hrs r).1 hr).1)
        fun r hr => ((hrs r).1 hr).2
      exact .cons hlt hrs H (ih (H.grows.wellFormed hg) fun l hl =>
        Nat.lt_of_lt_of_le (hlt l hl) H.grows.size_le)

/-- All categories are merged, but that of integers if there are doubles. -/
theorem mem_mergedCategories (g : Graph) (conflate : Bool) (ls : List NodeId) (c : Category) :
    c ∈ g.mergedCategories conflate ls ∨
      c = .integer ∧ ∃ d ∈ ls, (g.kind d).category? = some .double := by
  unfold mergedCategories
  split
  · next hd =>
    by_cases hc : c = .integer
    · rw [Bool.and_eq_true, List.any_eq_true] at hd
      obtain ⟨-, d, hd, hdouble⟩ := hd
      exact .inr ⟨hc, d, hd, by simpa using hdouble⟩
    · exact .inl (List.mem_filter.2 ⟨c.mem_all, by simpa using hc⟩)
  · exact .inl c.mem_all

/-- **Unified leaves have a member that admits what any of them does.** -/
theorem merged_unify (hg : g.WellFormed) (conflate : Bool) {ls : List NodeId}
    (hlt : ∀ l ∈ ls, l < g.size) :
    Merged ls (·.isGround = true) g (g.unify conflate ls).1 (g.unify conflate ls).2 := by
  unfold unify
  split
  · next m hm =>
    have hml := List.mem_of_find?_eq_some hm
    have hany : g.kind m = .any := by simpa using List.find?_some hm
    refine ⟨.refl g, fun l hl => ?_, fun l hl => ?_, fun l hl => ?_,
      fun ρ h _ _ hls l _ _ _ v _ => ⟨m, by simp, ?_⟩⟩
    · exact List.mem_singleton.1 hl ▸ hlt m hml
    · exact .inl (List.mem_singleton.1 hl ▸ hml)
    · exact .inl (List.mem_singleton.1 hl ▸ hany)
    · rw [admits_iff, hls m hml (by simp [hany]), hany]
      trivial
  next hfind =>
  have H := merged_mergeCategories (g.mergedCategories conflate ls) hg hlt
  refine ⟨H.grows, H.lt_size, H.old_or_new, H.kind_cases, fun ρ h hρ hh hls l hl hl' hk v hv => ?_⟩
  have hany : g.kind l ≠ .any := by
    rw [List.find?_eq_none] at hfind
    simpa using hfind l hl
  rcases Kind.ground_cases hk with hnothing | hany' | ⟨c, hc⟩
  · rw [admits_iff, hl', hnothing] at hv
    exact hv.elim
  · exact absurd hany' hany
  rcases g.mem_mergedCategories conflate ls c with hcat | ⟨rfl, d, hd, hdouble⟩
  · exact H.admits ρ h hρ hh hls l hl hl' ⟨c, hcat, hc⟩ v hv
  · -- a double takes the integer in
    have hkl : h.kind l = .integer := hl'.trans (Kind.eq_of_category hc rfl
      Category.noConfusion Category.noConfusion Category.noConfusion Category.noConfusion)
    have hd' := hls d hd (Kind.ne_nothing_of_category hdouble)
    have hkd : h.kind d = .double := hd'.trans (Kind.eq_of_category hdouble rfl
      Category.noConfusion Category.noConfusion Category.noConfusion Category.noConfusion)
    have hdcat : .double ∈ g.mergedCategories conflate ls :=
      (g.mem_mergedCategories conflate ls .double).resolve_right fun h => nomatch h.1
    refine H.admits ρ h hρ hh hls d hd hd' ⟨_, hdcat, hdouble⟩ v ?_
    rw [admits_iff, hkl] at hv
    obtain ⟨n, rfl, -⟩ := hv
    rw [admits_iff, hkd]
    exact ⟨n, rfl⟩

/-! ## One union after the other -/

/-- A partly flattened graph beside a graph `h` that has the old kinds: unions are redirected to
    ground nodes that admit what they did, or got ground members one of which does. -/
structure Sound (ρ : Reading) (g₀ : Graph) (s : Flattening) (h : Graph) : Prop
    extends Beside g₀ s.graph h where
  redirected : ∀ r m, s.redirection.get? r = some m → m < h.size ∧ (h.kind r).isUnion = true ∧
    (h.kind m).isGround = true ∧ ∀ v, h.Admits ρ r v → h.Admits ρ m v
  kept : ∀ r, s.graph.kind r = h.kind r ∨
    (h.kind r).isUnion = true ∧ (s.graph.kind r = .nothing ∨ (s.graph.kind r).isUnion = true) ∧
      ∀ v, h.Admits ρ r v → ∃ m ∈ (s.graph.kind r).unionMembers,
        (h.kind m).isGround = true ∧ h.Admits ρ m v

theorem sound_start (hg : g.WellFormed) : Sound ρ g ⟨g, ∅, false⟩ g where
  toBeside := .refl hg
  redirected r m hm := by simp at hm
  kept r := .inl rfl

namespace Sound

variable {g₀ : Graph} {s : Flattening}

theorem kept_of_isGround (H : Sound ρ g₀ s h) {m : NodeId} (hm : (h.kind m).isGround = true) :
    s.graph.kind m = h.kind m := by
  refine (H.kept m).resolve_right fun hu => ?_
  rw [(Kind.isGround_iff.1 hm).1] at hu
  cases hu.1

/-- A value that a nested member admits is admitted by a leaf. -/
theorem exists_leaf (H : Sound ρ g₀ s h) {u c : NodeId} {v : Json} (hv : h.Admits ρ c v)
    (hc : c ∈ s.graph.unionWalk u) :
    ∃ l ∈ s.graph.leaves u, h.kind l = s.graph.kind l ∧ h.Admits ρ l v := by
  revert hc
  refine Admits.induction (P := fun c v => c ∈ s.graph.unionWalk u →
    ∃ l ∈ s.graph.leaves u, h.kind l = s.graph.kind l ∧ h.Admits ρ l v) (fun c v ih hc => ?_) hv
  have hcv : h.Admits ρ c v := admits_iff.2 (ih.mono fun _ _ _ => And.left)
  have hstep : ∀ m ∈ (s.graph.kind c).unionMembers, m ∈ s.graph.unionWalk u := fun m hm => by
    refine mem_walk_of_mem_next hc hm (H.wellFormed.lt_of_mem_children (r := c) ?_)
    exact Kind.mem_children_of_mem_unionMembers hm
  rcases H.kept c with hk | ⟨-, -, hmem⟩
  · by_cases hu : (s.graph.kind c).isUnion = true
    · rw [← hk, Kind.eq_union_of_isUnion hu] at ih
      obtain ⟨m, hm, -, hP⟩ := ih
      exact hP (hstep m (SortedSet.mem_ofList.1 hm))
    · exact ⟨c, List.mem_filter.2 ⟨hc, by simpa using hu⟩, hk.symm, hcv⟩
  · obtain ⟨m, hm, hground, hmv⟩ := hmem v hcv
    have hkm := H.kept_of_isGround hground
    refine ⟨m, List.mem_filter.2 ⟨hstep m hm, ?_⟩, hkm.symm, hmv⟩
    rw [hkm, (Kind.isGround_iff.1 hground).1]
    rfl

/-- New nodes get their kinds beside the old ones. -/
theorem extend (hg₀ : g₀.WellFormed) (H : Sound ρ g₀ s h) {g₁ : Graph} (h₁ : s.graph.Grows g₁) :
    Sound ρ g₀ { s with graph := g₁ } (h.extendedBy g₁) := by
  have hgrows := grows_extendedBy H.size_eq h₁
  have hadm : ∀ {r v}, r < h.size → ((h.extendedBy g₁).Admits ρ r v ↔ h.Admits ρ r v) :=
    fun hr => H.admits_extendedBy hg₀ h₁ hr
  refine ⟨H.toBeside.extend h₁, fun r m hm => ?_, fun r => ?_⟩
  · obtain ⟨hlt, hu, hground, hv⟩ := H.redirected r m hm
    have hr : r < h.size := lt_size_of_isUnion hu
    rw [hgrows.kind_eq r hr, hgrows.kind_eq m hlt]
    refine ⟨Nat.lt_of_lt_of_le hlt hgrows.size_le, hu, hground, fun v => ?_⟩
    rw [hadm hr, hadm hlt]
    exact hv v
  · by_cases hr : r < h.size
    · rw [hgrows.kind_eq r hr]
      refine (H.kept r).imp (fun hk => ?_) fun ⟨hu, hk, hmem⟩ => ?_
      · rw [h₁.kind_eq r (H.size_eq ▸ hr), hk]
      · rw [h₁.kind_eq r (H.size_eq ▸ hr)]
        refine ⟨hu, hk, fun v hv => ?_⟩
        obtain ⟨m, hm, hground, hmv⟩ := hmem v ((hadm hr).1 hv)
        have hlt : m < h.size :=
          H.lt_of_mem_children (r := r) (Kind.mem_children_of_mem_unionMembers hm)
        rw [← hgrows.kind_eq m hlt] at hground
        exact ⟨m, hm, hground, (hadm hlt).2 hmv⟩
    · exact .inl (by rw [kind_extendedBy, if_neg hr])

theorem addAttributes (H : Sound ρ g₀ s h) (r : NodeId) (a : Attributes) :
    Sound ρ g₀ { s with graph := s.graph.addAttributes r a } h := by
  have hgrows := grows_addAttributes s.graph r a
  have hsize : (s.graph.addAttributes r a).size = s.graph.size := size_addAttributes ..
  refine ⟨⟨H.size_eq.trans hsize.symm, H.grows, hgrows.topLevels_eq.trans H.topLevels_eq,
    hgrows.wellFormed H.wellFormed⟩, H.redirected, fun c => ?_⟩
  dsimp only
  rw [kind_addAttributes]
  exact H.kept c

/-- A union gets ground members one of which admits what it did. -/
theorem modify (H : Sound ρ g₀ s h) {u : NodeId} {k : Kind} {a : Attributes}
    (hu : (h.kind u).isUnion = true) (hk : k = .nothing ∨ k.isUnion = true)
    (hlt : ∀ m ∈ k.unionMembers, m < h.size)
    (hmem : ∀ v, h.Admits ρ u v → ∃ m ∈ k.unionMembers,
      (h.kind m).isGround = true ∧ h.Admits ρ m v) :
    Sound ρ g₀ { s with graph := s.graph.modify u ({ · with kind := k, attributes := a }) } h := by
  have hkind : ∀ r, (s.graph.modify u ({ · with kind := k, attributes := a })).kind r =
      if u = r then k else s.graph.kind r := by
    intro r
    by_cases hr : r < s.graph.size
    · exact kind_modify s.graph u r _ hr
    · have hur : u ≠ r := by
        rintro rfl
        exact hr (H.size_eq ▸ lt_size_of_isUnion hu)
      rw [if_neg hur, kind_eq_nothing_of_le (by simpa using Nat.not_lt.1 hr),
        kind_eq_nothing_of_le (Nat.not_lt.1 hr)]
  refine ⟨H.toBeside.modify fun _ c hc => hlt c ?_, H.redirected, fun r => ?_⟩
  · rcases hk with rfl | hk
    · exact hc
    · dsimp only at hc
      rw [Kind.eq_union_of_isUnion hk] at hc
      simpa [Kind.children] using hc
  · dsimp only
    rw [hkind]
    split
    · next hur =>
      subst hur
      exact .inr ⟨hu, hk, hmem⟩
    · exact H.kept r

/-- A union is redirected to a ground node that admits what it did. -/
theorem redirect (H : Sound ρ g₀ s h) {u m : NodeId} (hu : (h.kind u).isUnion = true)
    (hlt : m < h.size) (hm : (h.kind m).isGround = true)
    (hmem : ∀ v, h.Admits ρ u v → h.Admits ρ m v) :
    Sound ρ g₀ { s with redirection := s.redirection.insert u m } h := by
  refine { H with redirected := fun r m' hr => ?_ }
  rw [SortedMap.get?_insert] at hr
  split at hr
  · next hru =>
    subst hru
    cases hr
    exact ⟨hlt, hu, hm, hmem⟩
  · exact H.redirected r m' hr

/-- The members that the leaves of a union are merged into are ground, and one of them admits what
    the union does. -/
theorem unify (hρ : ρ.openClasses = false) (hg₀ : g₀.WellFormed) (H : Sound ρ g₀ s h)
    {conflate : Bool} {u : NodeId} (hu : (g₀.kind u).isUnion = true)
    (hinter : ∀ l ∈ s.graph.leaves u, (s.graph.kind l).isIntersection = false) {ms : List NodeId}
    {g₁ : Graph} (heq : s.graph.unify conflate (s.graph.leaves u) = (ms, g₁)) :
    Sound ρ g₀ { s with graph := g₁ } (h.extendedBy g₁) ∧
      ((h.extendedBy g₁).kind u).isUnion = true ∧
      (∀ m ∈ ms, m < (h.extendedBy g₁).size ∧ ((h.extendedBy g₁).kind m).isGround = true) ∧
      ∀ v, (h.extendedBy g₁).Admits ρ u v → ∃ m ∈ ms, (h.extendedBy g₁).Admits ρ m v := by
  have hult : u < g₀.size := lt_size_of_isUnion hu
  have huh : u < h.size := Nat.lt_of_lt_of_le hult H.grows.size_le
  have hleaves : ∀ l ∈ s.graph.leaves u,
      l < s.graph.size ∧ (s.graph.kind l).isGround = true := fun l hl => by
    have hwalk := List.mem_filter.1 hl
    exact ⟨lt_of_mem_walk hwalk.1, Kind.isGround_iff.2 ⟨by simpa using hwalk.2, hinter l hl⟩⟩
  have hkept : ∀ l ∈ s.graph.leaves u, s.graph.kind l ≠ .nothing → h.kind l = s.graph.kind l :=
    fun l hl hn => by
      rcases H.kept l with hk | ⟨-, hk | hk, -⟩
      · exact hk.symm
      · exact absurd hk hn
      · rw [(Kind.isGround_iff.1 (hleaves l hl).2).1] at hk
        cases hk
  have M := merged_unify H.wellFormed conflate fun l hl => (hleaves l hl).1
  rw [heq] at M
  have H₁ := H.extend hg₀ M.grows
  have hgrows := grows_extendedBy H.size_eq M.grows
  have hadm : ∀ {r v}, r < h.size → ((h.extendedBy g₁).Admits ρ r v ↔ h.Admits ρ r v) :=
    fun hr => H.admits_extendedBy hg₀ M.grows hr
  refine ⟨H₁, (congrArg Kind.isUnion (H₁.grows.kind_eq u hult)).trans hu, fun m hm => ⟨?_, ?_⟩,
    fun v hv => ?_⟩
  · rw [H₁.size_eq]
    exact M.lt_size m hm
  · have hk := M.kind_cases m hm
    rcases H₁.kept m with hm' | ⟨-, hm' | hm', -⟩
    · rw [← hm']
      rcases hk with hk | ⟨c, hc⟩
      · exact hk ▸ rfl
      · exact Kind.isGround_of_category hc
    · rw [hm'] at hk
      simp [Kind.category?] at hk
    · rw [Kind.eq_union_of_isUnion hm'] at hk
      simp [Kind.category?] at hk
  · have hwalk : u ∈ s.graph.unionWalk u :=
      mem_walk_of_mem_starts (List.mem_singleton_self u) (H.size_eq ▸ huh)
    obtain ⟨l, hl, hkl, hlv⟩ := H.exists_leaf ((hadm huh).1 hv) hwalk
    have hllt : ∀ l ∈ s.graph.leaves u, l < h.size := fun l hl => H.size_eq ▸ (hleaves l hl).1
    have hkind : ∀ l ∈ s.graph.leaves u, (h.extendedBy g₁).kind l = h.kind l :=
      fun l hl => hgrows.kind_eq l (hllt l hl)
    refine M.admits ρ _ hρ (agrees_extendedBy H.size_eq) (fun l hl hn => ?_) l hl
      ((hkind l hl).trans hkl) (hleaves l hl).2 v ((hadm (hllt l hl)).2 hlv)
    rw [hkind l hl, hkept l hl hn]

end Sound

/-- **Flattening one union stays sound.** -/
theorem sound_step (hρ : ρ.openClasses = false) (conflate : Bool) {g₀ : Graph} {s : Flattening}
    (hg₀ : g₀.WellFormed) (H : Sound ρ g₀ s h) {u : NodeId} (hu : (g₀.kind u).isUnion = true) :
    ∃ h', Sound ρ g₀ (s.step conflate u) h' := by
  refine Flattening.step_cases (P := fun s => ∃ h', Sound ρ g₀ s h') (fun _ _ _ => ⟨h, { H with }⟩)
    (fun _ => ⟨h, H⟩) fun hinter _ ms g₁ heq a _ => ?_
  obtain ⟨H₁, hu₁, hms, hmem⟩ := H.unify hρ hg₀ hu hinter heq
  refine ⟨fun hnil => ⟨h.extendedBy g₁, ?_⟩, fun m hm => ⟨h.extendedBy g₁, ?_⟩,
    fun _ => ⟨h.extendedBy g₁, ?_⟩⟩
  · subst hnil
    exact H₁.modify hu₁ (.inl rfl) (by simp [Kind.unionMembers]) fun v hv => by simpa using hmem v hv
  · subst hm
    obtain ⟨hlt, hground⟩ := hms m (List.mem_singleton_self m)
    exact (H₁.addAttributes m a).redirect hu₁ hlt hground fun v hv => by simpa using hmem v hv
  · refine H₁.modify hu₁ (.inr rfl) (fun m hm => (hms m ?_).1) fun v hv => ?_
    · simpa [Kind.unionMembers] using hm
    · obtain ⟨m, hm, hv⟩ := hmem v hv
      exact ⟨m, by simpa [Kind.unionMembers] using hm, (hms m hm).2, hv⟩

theorem sound_foldl (hρ : ρ.openClasses = false) (conflate : Bool) {g₀ : Graph}
    (hg₀ : g₀.WellFormed) (us : List NodeId) (hus : ∀ u ∈ us, (g₀.kind u).isUnion = true)
    {s : Flattening} (H : Sound ρ g₀ s h) :
    ∃ h', Sound ρ g₀ (us.foldl (Flattening.step conflate) s) h' := by
  induction us generalizing s h with
  | nil => exact ⟨h, H⟩
  | cons u us ih =>
    obtain ⟨h₁, H₁⟩ := sound_step hρ conflate hg₀ H (hus u (by simp))
    exact ih (fun u hu => hus u (List.mem_cons_of_mem _ hu)) H₁

/-! ## The pass -/

/-- The unions of a graph, flattened in turn. -/
def settle (g : Graph) (conflate : Bool) : Flattening :=
  (g.idsWhere Kind.isUnion).foldl (Flattening.step conflate) ⟨g, ∅, false⟩

theorem flattenUnions_fst {conflate : Bool} : (flattenUnions conflate g).1 =
    ((g.settle conflate).graph.forward (g.settle conflate).redirection).collect := rfl

theorem flattenUnions_snd {conflate : Bool} : (flattenUnions conflate g).2 = (!(g.settle conflate).waiting &&
    (flattenUnions conflate g).1.ids.all ((flattenUnions conflate g).1.isFlat conflate)) := rfl

namespace Sound

variable {g₀ : Graph} {s : Flattening}

theorem get?_of_isGround (H : Sound ρ g₀ s h) {m : NodeId} (hm : (h.kind m).isGround = true) :
    s.redirection.get? m = none := by
  cases hr : s.redirection.get? m with
  | none => rfl
  | some m' =>
    have hu := (H.redirected m m' hr).2.1
    rw [(Kind.isGround_iff.1 hm).1] at hu
    cases hu

theorem get?_of_get? (H : Sound ρ g₀ s h) {r m : NodeId} (hm : s.redirection.get? r = some m) :
    s.redirection.get? m = none := H.get?_of_isGround (H.redirected r m hm).2.2.1

theorem follow_lt (H : Sound ρ g₀ s h) {r : NodeId} (hr : r < s.graph.size) :
    s.redirection.follow r < s.graph.size := by
  cases hm : s.redirection.get? r with
  | none => rwa [follow_of_none hm]
  | some m =>
    rw [follow_of_some hm (H.get?_of_get? hm), ← H.size_eq]
    exact (H.redirected r m hm).1

/-- Where references went admits what the old kinds do. -/
theorem admits (H : Sound ρ g₀ s h) {r : NodeId} {v : Json} (hv : h.Admits ρ r v) :
    (s.graph.forward s.redirection).Admits ρ (s.redirection.follow r) v := by
  refine Admits.transfer (fun r v hv => ?_) hv
  -- a ground node stays, with its references redirected
  have hstay : ∀ {m}, (h.kind m).isGround = true →
      (s.graph.forward s.redirection).kind m =
        (h.kind m).mapChildren s.redirection.follow := fun hm => by
    rw [forward, kind_renameReferences, H.kept_of_isGround hm]
  cases hm : s.redirection.get? r with
  | some m =>
    obtain ⟨-, -, hground, hadm⟩ := H.redirected r m hm
    have hf := follow_of_some hm (H.get?_of_get? hm)
    exact .inr (.inr ⟨h.kind m, m, hground, admits_iff.1 (hadm v hv), hstay hground, .inl hf.symm⟩)
  | none =>
    rw [follow_of_none hm]
    rcases H.kept r with hk | ⟨-, -, hmem⟩
    · exact .inl (by rw [forward, kind_renameReferences, hk])
    · obtain ⟨m, hmr, hground, hmv⟩ := hmem v hv
      refine .inr (.inr ⟨h.kind m, m, hground, admits_iff.1 hmv, hstay hground, .inr ?_⟩)
      rw [follow_of_none hm, forward, kind_renameReferences, Kind.mem_unionMembers_mapChildren]
      exact ⟨m, hmr, follow_of_none (H.get?_of_isGround hground)⟩

end Sound

/-- **Flattening loses no value of a top level.** -/
theorem admitsAt_flattenUnions (hρ : ρ.openClasses = false) (conflate : Bool) (hg : g.WellFormed)
    {name : String} {v : Json} (hv : g.AdmitsAt ρ name v) :
    (flattenUnions conflate g).1.AdmitsAt ρ name v := by
  obtain ⟨h, H⟩ := sound_foldl hρ conflate hg (g.idsWhere Kind.isUnion)
    (fun u hu => (List.mem_filter.1 hu).2) (sound_start hg)
  unfold flattenUnions
  extract_lets s g'
  refine (admitsAt_collect (wellFormed_forward H.wellFormed fun r => H.follow_lt)).2 ?_
  refine admitsAt_forward hg H.topLevels_eq (fun r hr v hv => ?_) hv
  exact H.admits ((H.grows.admits_iff hg hr).2 hv)

end Graph

end SchemaTypes
