/-
  Unions of types that are nested finitely deep.

  Merging makes new unions, but of children of the merged types:

  * `Made`: what merging adds to a graph (`made_unify`);
  * `Shallow`: a bound on how deep types are nested; only unions below some depth may still have
    members to merge;
  * `Sinking`: what flattening in turn keeps of it (`sinking_step`, `sinking_foldl`); each
    application leaves less depth (`shallow_flattenUnions`);
  * `flattening_converges`: so flattening converges where types are not nested deeper than the
    applications allow;
  * `flattening_convergence`: that, and where it does not converge.
-/
import SchemaTypes.Proofs.Tangles

namespace SchemaTypes

open SchemaTypes.Graph Stage

namespace Graph

open Kind

variable {g g' g₁ : Graph} {conflate : Bool} {C : NodeId → Prop}

/-! ## What merging makes -/

/-- A node `C`, or a new union. -/
def Below (C : NodeId → Prop) (g g' : Graph) (c : NodeId) : Prop :=
  C c ∨ g.size ≤ c ∧ (g'.kind c).isUnion = true

/-- The graph grows by unions of nodes `C`, and by other types whose children are such nodes or
    new unions. -/
structure Made (C : NodeId → Prop) (g g' : Graph) : Prop extends g.Grows g' where
  fresh : ∀ r, g.size ≤ r → r < g'.size →
    (∃ ms, g'.kind r = .union ms ∧ (∃ m, m ∈ ms) ∧ ∀ m ∈ ms, C m) ∨
    (g'.kind r).isUnion = false ∧ ∀ c ∈ (g'.kind r).children, Below C g g' c

theorem Below.grow {c : NodeId} (h : Below C g g₁ c) (h₁ : g₁.Grows g') : Below C g g' c := by
  refine h.imp_right fun ⟨hc, hu⟩ => ⟨hc, ?_⟩
  rwa [h₁.kind_eq c (lt_size_of_isUnion hu)]

theorem Below.of_grows {c : NodeId} (h : Below C g₁ g' c) (h₁ : g.Grows g₁) : Below C g g' c :=
  h.imp_right fun ⟨hc, hu⟩ => ⟨Nat.le_trans h₁.size_le hc, hu⟩

namespace Made

theorem refl (g : Graph) : Made C g g :=
  ⟨.refl g, fun _ hr hlt => absurd hr (Nat.not_le.2 hlt)⟩

theorem trans (h : Made C g g₁) (h₁ : Made C g₁ g') : Made C g g' where
  toGrows := h.toGrows.trans h₁.toGrows
  fresh r hr hlt := by
    by_cases hr₁ : r < g₁.size
    · rw [h₁.kind_eq r hr₁]
      exact (h.fresh r hr hr₁).imp_right fun ⟨hu, hc⟩ =>
        ⟨hu, fun c hcr => (hc c hcr).grow h₁.toGrows⟩
    · exact (h₁.fresh r (Nat.not_lt.1 hr₁) hlt).imp_right fun ⟨hu, hc⟩ =>
        ⟨hu, fun c hcr => (hc c hcr).of_grows h.toGrows⟩

/-- A type comes on top, whose children are there. -/
theorem push (h : Made C g g₁) {n : Node} (hu : n.kind.isUnion = false)
    (hc : ∀ c ∈ n.kind.children, Below C g g₁ c) (hlt : ∀ c ∈ n.kind.children, c < g₁.size) :
    Made C g (g₁.push n) := by
  have hgrows : g₁.Grows (g₁.push n) := grows_push fun c hcn => Nat.lt_succ_of_lt (hlt c hcn)
  refine ⟨h.toGrows.trans hgrows, fun r hr hrlt => ?_⟩
  by_cases hr₁ : r < g₁.size
  · rw [hgrows.kind_eq r hr₁]
    exact (h.fresh r hr hr₁).imp_right fun ⟨hu, hc⟩ =>
      ⟨hu, fun c hcr => (hc c hcr).grow hgrows⟩
  · obtain rfl : r = g₁.size :=
      Nat.le_antisymm (Nat.le_of_lt_succ (by simpa using hrlt)) (Nat.not_lt.1 hr₁)
    have hk : (g₁.push n).kind g₁.size = n.kind := by rw [kind_push, if_pos rfl]
    rw [hk]
    exact .inr ⟨hu, fun c hcn => (hc c hcn).grow hgrows⟩

end Made

/-- The node for a union of nodes `C` is one of them, or a new union. -/
theorem made_unionOf {ms : SortedSet NodeId} (hlt : ∀ m ∈ ms, m < g.size) (hms : ∀ m ∈ ms, C m)
    (hne : ∃ m, m ∈ ms) :
    Made C g (g.unionOf ms).2 ∧ Below C g (g.unionOf ms).2 (g.unionOf ms).1 := by
  have hgrows := grows_unionOf hlt
  refine ⟨⟨hgrows, fun r hr hrlt => .inl ?_⟩, ?_⟩
  · rcases kind_unionOf hr hrlt with hk | ⟨hnil, -⟩
    · exact ⟨ms, hk, hne, hms⟩
    · obtain ⟨m, hm⟩ := hne
      rw [← SortedSet.mem_toList, hnil] at hm
      cases hm
  · by_cases hr : g.size ≤ (g.unionOf ms).1
    · exact .inr ⟨hr, isUnion_unionOf hne hr (unionOf_lt hlt)⟩
    · refine .inl ?_
      revert hr
      exact unionOf_cases (P := fun u _ => ¬g.size ≤ u → C u)
        (fun _ hr => absurd (Nat.le_refl _) hr) (fun m hm _ _ => hms m hm)
        fun hr => absurd (Nat.le_refl _) hr

section
variable {views : List ObjectView}

/-- United properties have types of the views, or new unions of such. -/
theorem made_uniteProperties (names : List String) (ps : Properties)
    (hviews : g.ViewsBounded views) (hnames : ∀ name ∈ names, name ∈ ObjectView.names views)
    (hC : ∀ name, ∀ t ∈ ObjectView.typesOf views name, C t) (hps : ∀ c ∈ ps.types, Below C g g c) :
    Made C g (uniteProperties views names ps g).2 ∧
      ∀ c ∈ (uniteProperties views names ps g).1.types,
        Below C g (uniteProperties views names ps g).2 c := by
  -- the properties so far may have types that were made on the way
  suffices h : ∀ g₁, Made C g g₁ → ∀ ps : Properties, (∀ c ∈ ps.types, Below C g g₁ c) →
      Made C g (uniteProperties views names ps g₁).2 ∧
        ∀ c ∈ (uniteProperties views names ps g₁).1.types,
          Below C g (uniteProperties views names ps g₁).2 c from h g (.refl g) ps hps
  clear hps ps
  induction names with
  | nil => exact fun g₁ h₁ ps hps => ⟨h₁, hps⟩
  | cons name rest ih =>
    intro g₁ h₁ ps hps
    simp only [uniteProperties]
    obtain ⟨hmade, hbelow⟩ := made_unionOf (g := g₁)
      (hviews.mono h₁.toGrows).lt_of_mem_typesOf (hC name)
      (ObjectView.exists_mem_typesOf (hnames name List.mem_cons_self))
    refine ih (fun n hn => hnames n (List.mem_cons_of_mem name hn)) _ (h₁.trans hmade) _
      fun c hc => ?_
    obtain ⟨n, p, hp, rfl⟩ := Properties.exists_of_mem_types hc
    rw [OrderedMap.get?_insert] at hp
    split at hp
    · cases hp
      exact hbelow.of_grows h₁.toGrows
    · exact (hps _ (Properties.mem_types hp)).grow hmade.toGrows

end

/-- A unified object type has children of the types, or new unions of such. -/
theorem made_unifyObjects (hg : g.WellFormed) {rs : List NodeId}
    (hC : ∀ r ∈ rs, ∀ c ∈ (g.kind r).children, C c) :
    Made C g (g.unifyObjects rs).2 ∧
      ∀ c ∈ (g.unifyObjects rs).1.kind.children, Below C g (g.unifyObjects rs).2 c := by
  have hviews := viewsBounded_of_wellFormed hg rs
  have hC : ∀ c, (∃ r ∈ rs, c ∈ (g.kind r).children) → C c := fun c ⟨r, hr, hc⟩ => hC r hr c hc
  unfold unifyObjects
  extract_lets kinds attributes hasObject hasMap views fixed additional
  split
  · next hmap =>
    rw [Bool.and_eq_true] at hmap
    obtain ⟨hmade, hbelow⟩ := made_unionOf (g := g) (C := C) (fun t ht => by
        obtain ⟨r, -, hr⟩ := exists_child_of_mem_valueTypes ht
        exact hg.lt_of_mem_children hr) (fun t ht => hC t (exists_child_of_mem_valueTypes ht))
      (exists_mem_valueTypes hmap.1)
    exact ⟨hmade, fun c hc => List.mem_singleton.1 hc ▸ hbelow⟩
  obtain ⟨hmade, hbelow⟩ := made_uniteProperties (ObjectView.names views) ∅ hviews (fun _ => id)
    (fun _ t ht => hC t (exists_child_of_mem_typesOf ht)) fun c hc => absurd hc List.not_mem_nil
  generalize uniteProperties views (ObjectView.names views) ∅ g = u at hmade hbelow ⊢
  obtain ⟨ps, g₂⟩ := u
  dsimp only at hmade hbelow ⊢
  split
  · split
    · refine ⟨hmade, fun c hc => ?_⟩
      rcases List.mem_append.1 hc with hc | hc
      · exact hbelow c hc
      · cases hc
    · next hempty =>
      have hadditional : ∀ m ∈ additional, ∃ view ∈ views, m ∈ view.additional := fun m hm =>
        List.mem_filterMap.1 (SortedSet.mem_ofList.1 hm)
      obtain ⟨hmade', hbelow'⟩ := made_unionOf (g := g₂) (C := C) (fun m hm => by
          obtain ⟨view, hmem, hm⟩ := hadditional m hm
          exact Nat.lt_of_lt_of_le ((hviews view hmem).2 m hm) hmade.size_le) (fun m hm => by
          obtain ⟨view, hmem, hm⟩ := hadditional m hm
          exact hC m (exists_child_of_view hmem (.inr hm)))
        (List.exists_mem_of_ne_nil _ fun e => hempty (List.isEmpty_iff.2 e))
      refine ⟨hmade.trans hmade', fun c hc => ?_⟩
      rcases List.mem_append.1 hc with hc | hc
      · exact (hbelow c hc).grow hmade'.toGrows
      · rw [Option.toList_some, List.mem_singleton] at hc
        exact hc ▸ hbelow'.of_grows hmade.toGrows
  · exact ⟨hmade, hbelow⟩

theorem made_mergeCategory (hg : g.WellFormed) {c : Category} {rs : List NodeId}
    (hrs : rs ≠ []) (hcat : ∀ r ∈ rs, (g.kind r).category? = some c)
    (hC : ∀ r ∈ rs, ∀ c ∈ (g.kind r).children, C c) : Made C g (g.mergeCategory c rs).2 := by
  have hnil : ∀ {R : NodeId → Prop}, ∀ c ∈ ([] : List NodeId), R c := fun _ hc =>
    absurd hc List.not_mem_nil
  refine mergeCategory_cases (P := fun _ => Made C g) hrs (fun _ _ => .refl g)
    (fun _ => (Made.refl g).push rfl hnil hnil) (fun _ => (Made.refl g).push rfl hnil hnil)
    (fun harray => ?_) (fun _ => ?_) fun _ _ _ _ r _ => ?_
  · subst harray
    have hlt := lt_of_mem_itemTypes hg rs
    have hne : ∃ t, t ∈ itemTypes (rs.map g.kind) := by
      obtain ⟨r, hr⟩ := List.exists_mem_of_ne_nil rs hrs
      have hcr := hcat r hr
      have hmem := List.mem_map_of_mem (f := g.kind) hr
      generalize g.kind r = k at hcr hmem
      cases k <;> cases hcr
      next items => exact ⟨items, mem_itemTypes.2 hmem⟩
    obtain ⟨hmade, hbelow⟩ := made_unionOf hlt (fun t ht => by
      obtain ⟨r, hr, ht⟩ := exists_child_of_mem_itemTypes ht
      exact hC r hr t ht) hne
    refine hmade.push rfl (fun t ht => List.mem_singleton.1 ht ▸ hbelow) fun t ht => ?_
    exact List.mem_singleton.1 ht ▸ unionOf_lt hlt
  · obtain ⟨hmade, hbelow⟩ := made_unifyObjects hg hC
    have hunified := unified_unifyObjects hg rs
    refine hmade.push ?_ hbelow hunified.lt_size
    have hobject := hunified.isObjectLike
    generalize (g.unifyObjects rs).1.kind = k at hobject
    cases k <;> first | rfl | cases hobject
  · refine ⟨grows_setAttributes .., fun s hs hlt => ?_⟩
    exact absurd hlt (Nat.not_lt.2 (by simpa [setAttributes] using hs))

/-- **Merging makes unions of children alone**, and types of such unions and children. -/
theorem made_unify (conflate : Bool) {ls : List NodeId} (hg : g.WellFormed)
    (hlt : ∀ l ∈ ls, l < g.size) (hC : ∀ l ∈ ls, ∀ c ∈ (g.kind l).children, C c) :
    Made C g (g.unify conflate ls).2 := by
  refine unify_induction conflate (fun g₁ c rs hmade hne hsub hrs => ?_) (.refl g)
  refine hmade.trans (made_mergeCategory (hmade.wellFormed hg) hne hrs fun r hr => ?_)
  rw [hmade.kind_eq r (hlt r (hsub.subset hr))]
  exact hC r (hsub.subset hr)

/-! ## How deep types are nested -/

/-- How deep types are nested, where that is at most `N`: children of unions are nested no deeper,
    those of other types less deep. -/
structure Depth (N : Nat) (depth : NodeId → Nat) (g : Graph) : Prop where
  union_le : ∀ r, depth r ≤ N → (g.kind r).isUnion = true → ∀ c ∈ (g.kind r).children,
    depth c ≤ depth r
  lt : ∀ r, depth r ≤ N → (g.kind r).isUnion = false → ∀ c ∈ (g.kind r).children,
    depth c < depth r

/-- Types are nested to a depth, and unions of depth `n` and more are flat. -/
structure Shallow (conflate : Bool) (N n : Nat) (depth : NodeId → Nat) (g : Graph) : Prop
    extends Depth N depth g where
  flat : ∀ r, n ≤ depth r → g.FlatAt conflate r

variable {N n : Nat} {depth : NodeId → Nat}

/-- Only the nodes of the graph count. -/
theorem shallow_of_lt_size
    (hunion : ∀ r < g.size, depth r ≤ N → (g.kind r).isUnion = true → ∀ c ∈ (g.kind r).children,
      depth c ≤ depth r)
    (hlt : ∀ r < g.size, depth r ≤ N → (g.kind r).isUnion = false → ∀ c ∈ (g.kind r).children,
      depth c < depth r)
    (hflat : ∀ r < g.size, n ≤ depth r → g.isFlat conflate r = true) :
    Shallow conflate N n depth g where
  union_le r hr hu := hunion r (lt_size_of_isUnion hu) hr hu
  lt r hr hu c hc := by
    exact hlt r (lt_size_of_mem_children hc) hr hu c hc
  flat r hr ms hk := by
    have hu : (g.kind r).isUnion = true := by rw [hk]; rfl
    exact isFlat_iff.1 (hflat r (lt_size_of_isUnion hu) hr) ms hk

namespace Depth

theorem le (H : Depth N depth g) {r c : NodeId} (hr : depth r ≤ N) (hc : c ∈ (g.kind r).children) :
    depth c ≤ depth r := by
  cases hu : (g.kind r).isUnion with
  | true => exact H.union_le r hr hu c hc
  | false => exact Nat.le_of_lt (H.lt r hr hu c hc)

/-- The leaves of a union are nested no deeper than it. -/
theorem leaf_le (H : Depth N depth g) {u l : NodeId} (hu : depth u ≤ N) (hl : l ∈ g.leaves u) :
    depth l ≤ depth u := by
  refine walk_induction (P := fun r => depth r ≤ depth u) (fun r hr => ?_) (fun r c hr hc => ?_)
    (List.mem_filter.1 hl).1
  · exact List.mem_singleton.1 hr ▸ Nat.le_refl _
  · exact Nat.le_trans (H.le (Nat.le_trans hr hu) (mem_children_of_mem_unionMembers hc)) hr

/-- Children of the leaves of a union are nested less deep than it. -/
theorem child_lt (H : Depth N depth g) {u l c : NodeId} (hu : depth u ≤ N) (hl : l ∈ g.leaves u)
    (hc : c ∈ (g.kind l).children) : depth c < depth u := by
  have hle := H.leaf_le hu hl
  have hnot : (g.kind l).isUnion = false := by simpa using (List.mem_filter.1 hl).2
  exact Nat.lt_of_lt_of_le (H.lt l (Nat.le_trans hle hu) hnot c hc) hle

end Depth

/-- The depth of old nodes is kept; new types are as deep as the union that they were made for, new
    unions less deep. -/
def depthWith (depth : NodeId → Nat) (size : Nat) (g : Graph) (d : Nat) (r : NodeId) : Nat :=
  if r < size then depth r else if (g.kind r).isUnion then d - 1 else d

theorem depthWith_of_lt {size d : Nat} {r : NodeId} (h : r < size) :
    depthWith depth size g d r = depth r := if_pos h

theorem depthWith_of_isUnion {size d : Nat} {r : NodeId} (h : size ≤ r)
    (hu : (g.kind r).isUnion = true) : depthWith depth size g d r = d - 1 := by
  rw [depthWith, if_neg (Nat.not_lt.2 h), if_pos hu]

theorem depthWith_of_not_isUnion {size d : Nat} {r : NodeId} (h : size ≤ r)
    (hu : (g.kind r).isUnion = false) : depthWith depth size g d r = d := by
  rw [depthWith, if_neg (Nat.not_lt.2 h), if_neg (by rw [hu]; exact Bool.false_ne_true)]

/-- Where what was made is of children of a depth below `d`, it is nested no deeper than `d`. -/
theorem Depth.made (H : Depth N depth g) (hg : g.WellFormed) {d : Nat}
    (h : Made (fun c => c < g.size ∧ depth c < d) g g') :
    Depth N (depthWith depth g.size g' d) g' ∧
      ∀ r, g.size ≤ r → (g'.kind r).isUnion = true → depthWith depth g.size g' d r < d := by
  have hpos : ∀ r, g.size ≤ r → (g'.kind r).isUnion = true → 0 < d := fun r hr hu => by
    rcases h.fresh r hr (lt_size_of_isUnion hu) with ⟨ms, -, ⟨m, hm⟩, hms⟩ | ⟨hu', -⟩
    · exact Nat.lt_of_le_of_lt (Nat.zero_le _) (hms m hm).2
    · rw [hu] at hu'
      cases hu'
  have hnew : ∀ r, g.size ≤ r → (g'.kind r).isUnion = true → depthWith depth g.size g' d r < d :=
    fun r hr hu => by
      rw [depthWith_of_isUnion hr hu]
      exact Nat.sub_lt (hpos r hr hu) Nat.one_pos
  have hbelow : ∀ c, Below (fun c => c < g.size ∧ depth c < d) g g' c →
      depthWith depth g.size g' d c < d := fun c hc => by
    rcases hc with ⟨hlt, hc⟩ | ⟨hc, hu⟩
    · rwa [depthWith_of_lt hlt]
    · exact hnew c hc hu
  -- children of old nodes are old
  have hold : ∀ r < g.size, g'.kind r = g.kind r ∧ ∀ c ∈ (g.kind r).children,
      depthWith depth g.size g' d c = depth c := fun r hr =>
    ⟨h.kind_eq r hr, fun c hc => depthWith_of_lt (hg.lt_of_mem_children hc)⟩
  refine ⟨⟨fun r hrN hu c hc => ?_, fun r hrN hu c hc => ?_⟩, hnew⟩
  · by_cases hr : r < g.size
    · rw [depthWith_of_lt hr] at hrN ⊢
      rw [(hold r hr).1] at hu hc
      rw [(hold r hr).2 c hc]
      exact H.union_le r hrN hu c hc
    · have hr := Nat.not_lt.1 hr
      rw [depthWith_of_isUnion hr hu]
      rcases h.fresh r hr (lt_size_of_isUnion hu) with ⟨ms, hk, -, hms⟩ | ⟨hu', -⟩
      · rw [hk] at hc
        rw [depthWith_of_lt (hms c hc).1]
        exact Nat.le_sub_one_of_lt (hms c hc).2
      · rw [hu] at hu'
        cases hu'
  · by_cases hr : r < g.size
    · rw [depthWith_of_lt hr] at hrN ⊢
      rw [(hold r hr).1] at hu hc
      rw [(hold r hr).2 c hc]
      exact H.lt r hrN hu c hc
    · have hr := Nat.not_lt.1 hr
      rw [depthWith_of_not_isUnion hr hu]
      rcases h.fresh r hr (lt_size_of_mem_children hc) with ⟨ms, hk, -⟩ | ⟨-, hchildren⟩
      · rw [hk] at hu
        cases hu
      · exact hbelow c (hchildren c hc)

/-- Merged members are leaves, or as deep as the union that they were made for. -/
theorem Depth.member_le (H : Depth N depth g) (hg : g.WellFormed) {u m : NodeId} (hu : depth u ≤ N)
    (hm : m ∈ (g.unify conflate (g.leaves u)).1) :
    depthWith depth g.size (g.unify conflate (g.leaves u)).2 (depth u) m ≤ depth u := by
  have M := merged_unify hg conflate fun l (hl : l ∈ g.leaves u) =>
    lt_of_mem_walk (List.mem_filter.1 hl).1
  by_cases hlt : m < g.size
  · rw [depthWith_of_lt hlt]
    exact H.leaf_le hu ((M.old_or_new m hm).resolve_right (Nat.not_le.2 hlt))
  · refine Nat.le_of_eq (depthWith_of_not_isUnion (Nat.not_lt.1 hlt) ?_)
    rcases M.kind_cases m hm with hk | ⟨c, hc⟩
    · rw [hk]
      rfl
    · exact (isGround_iff.1 (isGround_of_category hc)).1

/-! ## One union after the other -/

/-- A type may become a union of types that are nested no deeper, or a type without children. -/
theorem Depth.modify (H : Depth N depth g) {u : NodeId} {f : Node → Node} {k : Kind}
    (hf : ∀ n, (f n).kind = k)
    (hk : k = .nothing ∨ ∃ ms, k = .union ms ∧ ∀ m ∈ ms, depth m ≤ depth u) :
    Depth N depth (g.modify u f) := by
  refine ⟨fun r hr hu c hc => ?_, fun r hr hu c hc => ?_⟩
  · rcases kind_modify_cases g u r hf with hkind | ⟨rfl, hkind⟩
    · rw [hkind] at hu hc
      exact H.union_le r hr hu c hc
    · rw [hkind] at hc
      rcases hk with rfl | ⟨ms, rfl, hms⟩
      · cases hc
      · exact hms c hc
  · rcases kind_modify_cases g u r hf with hkind | ⟨rfl, hkind⟩
    · rw [hkind] at hu hc
      exact H.lt r hr hu c hc
    · rw [hkind] at hu hc
      rcases hk with rfl | ⟨ms, rfl, -⟩
      · cases hc
      · cases hu

/-- What flattening in turn keeps of a bound on the depth: unions that are new are below depth
    `n`. -/
structure Sinking (N n : Nat) (depth : NodeId → Nat) (g : Graph) (s : Flattening)
    (depth' : NodeId → Nat) : Prop where
  bound : Depth N depth' s.graph
  same : ∀ r < g.size, depth' r = depth r
  redirected : ∀ r m, s.redirection.get? r = some m → depth' m ≤ depth' r
  fresh : ∀ r, g.size ≤ r → (s.graph.kind r).isUnion = true → depth' r < n

variable {us : List NodeId} {s : Flattening} {depth' : NodeId → Nat} {P : Kind → Prop} {u : NodeId}

namespace Sinking

/-- Types are made for a union of depth `n` or less. -/
theorem made (S : Sinking N n depth g s depth') (H : Settling conflate P g us s) {d : Nat}
    (hd : d ≤ n) (h : Made (fun c => c < s.graph.size ∧ depth' c < d) s.graph g₁) :
    Sinking N n depth g { s with graph := g₁ } (depthWith depth' s.graph.size g₁ d) := by
  obtain ⟨hbound, hnew⟩ := S.bound.made H.edited.wellFormed h
  refine ⟨hbound, fun r hr => ?_, fun r m hm => ?_, fun r hr hu => ?_⟩
  · rw [depthWith_of_lt (Nat.lt_of_lt_of_le hr H.edited.size_le), S.same r hr]
  · obtain ⟨hu, hlt, -⟩ := H.redirected r m hm
    rw [depthWith_of_lt hlt, depthWith_of_lt (lt_size_of_isUnion hu)]
    exact S.redirected r m hm
  · by_cases hrs : r < s.graph.size
    · dsimp only at hu
      rw [h.kind_eq r hrs] at hu
      rw [depthWith_of_lt hrs]
      exact S.fresh r hr hu
    · exact Nat.lt_of_lt_of_le (hnew r (Nat.not_lt.1 hrs) hu) hd

theorem addAttributes (S : Sinking N n depth g s depth') (r : NodeId) (a : Attributes) :
    Sinking N n depth g { s with graph := s.graph.addAttributes r a } depth' where
  bound := by
    refine ⟨fun r hr hu c hc => ?_, fun r hr hu c hc => ?_⟩
    · rw [kind_addAttributes] at hu hc
      exact S.bound.union_le r hr hu c hc
    · rw [kind_addAttributes] at hu hc
      exact S.bound.lt r hr hu c hc
  same := S.same
  redirected := S.redirected
  fresh r hr hu := by
    dsimp only at hu
    rw [kind_addAttributes] at hu
    exact S.fresh r hr hu

theorem redirect (S : Sinking N n depth g s depth') {m : NodeId} (hm : depth' m ≤ depth' u) :
    Sinking N n depth g { s with redirection := s.redirection.insert u m } depth' where
  bound := S.bound
  same := S.same
  redirected r t ht := by
    rw [SortedMap.get?_insert] at ht
    split at ht
    · next hru =>
      cases ht
      exact hru ▸ hm
    · exact S.redirected r t ht
  fresh := S.fresh

theorem modify (S : Sinking N n depth g s depth') (hu : u < g.size) {f : Node → Node} {k : Kind}
    (hf : ∀ n, (f n).kind = k)
    (hk : k = .nothing ∨ ∃ ms, k = .union ms ∧ ∀ m ∈ ms, depth' m ≤ depth' u) :
    Sinking N n depth g { s with graph := s.graph.modify u f } depth' where
  bound := S.bound.modify hf hk
  same := S.same
  redirected := S.redirected
  fresh r hr hru := by
    dsimp only at hru
    rcases kind_modify_cases s.graph u r hf with hkind | ⟨rfl, -⟩
    · rw [hkind] at hru
      exact S.fresh r hr hru
    · exact absurd hu (Nat.not_lt.2 hr)

end Sinking

/-- **Each union leaves less depth.** -/
theorem sinking_step (hshallow : Shallow conflate N (n + 1) depth g) (hn : n ≤ N)
    (H : Settling conflate P g (u :: us) s) (hu : (g.kind u).isUnion = true)
    (S : Sinking N n depth g s depth') :
    ∃ depth', Sinking N n depth g (s.step conflate u) depth' := by
  have hult : u < g.size := lt_size_of_isUnion hu
  have hwf := H.edited.wellFormed
  have hlt : ∀ l ∈ s.graph.leaves u, l < s.graph.size := fun l hl =>
    lt_of_mem_walk (List.mem_filter.1 hl).1
  refine Flattening.step_cases (P := fun s => ∃ depth', Sinking N n depth g s depth')
    (fun _ _ _ => ⟨depth', S.bound, S.same, S.redirected, S.fresh⟩) (fun _ => ⟨depth', S⟩)
    fun _ hflat ms g₂ heq a _ => ?_
  -- the union is not flat, so that it is not deep
  have hun : depth' u ≤ n := by
    rw [S.same u hult]
    refine Nat.le_of_not_lt fun hdeep => Bool.false_ne_true (hflat.symm.trans ?_)
    exact isFlat_iff.2 (H.flatAt_of_flatAt hult (hshallow.flat u hdeep))
  have huN := Nat.le_trans hun hn
  have S₁ := S.made H hun (made_unify conflate hwf hlt fun l hl c hc =>
    ⟨hwf.lt_of_mem_children hc, S.bound.child_lt huN hl hc⟩)
  have hmembers : ∀ m ∈ (s.graph.unify conflate (s.graph.leaves u)).1,
      depthWith depth' s.graph.size (s.graph.unify conflate (s.graph.leaves u)).2 (depth' u) m ≤
        depth' u := fun m hm => S.bound.member_le hwf huN hm
  rw [heq] at S₁ hmembers
  have hu₁ : depthWith depth' s.graph.size g₂ (depth' u) u = depth' u :=
    depthWith_of_lt (Nat.lt_of_lt_of_le hult H.edited.size_le)
  generalize depthWith depth' s.graph.size g₂ (depth' u) = depth₁ at S₁ hu₁ hmembers
  rw [← hu₁] at hmembers
  refine ⟨fun _ => ⟨depth₁, S₁.modify hult (fun _ => rfl) (.inl rfl)⟩, fun m hm => ⟨depth₁, ?_⟩,
    fun _ => ⟨depth₁, S₁.modify hult (fun _ => rfl) (.inr ⟨_, rfl, fun m hm => ?_⟩)⟩⟩
  · exact (S₁.addAttributes m a).redirect (hmembers m (hm ▸ List.mem_singleton_self m))
  · exact hmembers m (SortedSet.mem_ofList.1 hm)

theorem sinking_foldl (hshallow : Shallow conflate N (n + 1) depth g) (hn : n ≤ N)
    (us : List NodeId) (hnodup : us.Nodup) (hus : ∀ u ∈ us, (g.kind u).isUnion = true)
    (H : Settling conflate (fun _ => True) g us s) (S : Sinking N n depth g s depth') :
    ∃ depth', Sinking N n depth g (us.foldl (Flattening.step conflate) s) depth' := by
  induction us generalizing s depth' with
  | nil => exact ⟨depth', S⟩
  | cons u us ih =>
    obtain ⟨hnot, hnodup⟩ := List.nodup_cons.1 hnodup
    have hu := hus u List.mem_cons_self
    obtain ⟨depth₁, S₁⟩ := sinking_step hshallow hn H hu S
    exact ih hnodup (fun v hv => hus v (List.mem_cons_of_mem u hv))
      (settling_step H hu hnot (H.added_unify u)) S₁

theorem sinking_settle (hg : g.WellFormed) (hinter : g.Every (·.isIntersection = false))
    (hshallow : Shallow conflate N (n + 1) depth g) (hn : n ≤ N) :
    ∃ depth', Sinking N n depth g (g.settle conflate) depth' := by
  refine sinking_foldl hshallow hn _ (List.nodup_range.filter _)
    (fun _ hu => (List.mem_filter.1 hu).2) (settling_start hg hinter)
    ⟨hshallow.toDepth, fun _ _ => rfl, (fun _ _ hm => by cases hm), fun r hr hu => ?_⟩
  exact absurd (lt_size_of_isUnion hu) (Nat.not_lt.2 hr)

/-! ## What is left -/

theorem isUnion_mapChildren (f : NodeId → NodeId) (k : Kind) :
    (k.mapChildren f).isUnion = k.isUnion := by
  cases k <;> rfl

/-- References may be redirected to types that are nested no deeper. -/
theorem Depth.renameReferences (H : Depth N depth g) {f : NodeId → NodeId}
    (hf : ∀ r, depth (f r) ≤ depth r) : Depth N depth (g.renameReferences f) := by
  have hrename : ∀ r c, c ∈ ((g.renameReferences f).kind r).children →
      ∃ d ∈ (g.kind r).children, depth c ≤ depth d := fun r c hc => by
    rw [kind_renameReferences, mem_children_mapChildren] at hc
    obtain ⟨d, hd, rfl⟩ := hc
    exact ⟨d, hd, hf d⟩
  refine ⟨fun r hr hu c hc => ?_, fun r hr hu c hc => ?_⟩
  · rw [kind_renameReferences, isUnion_mapChildren] at hu
    obtain ⟨d, hd, hle⟩ := hrename r c hc
    exact Nat.le_trans hle (H.union_le r hr hu d hd)
  · rw [kind_renameReferences, isUnion_mapChildren] at hu
    obtain ⟨d, hd, hle⟩ := hrename r c hc
    exact Nat.lt_of_le_of_lt hle (H.lt r hr hu d hd)

/-- Children of a collected type are children of what it was. -/
theorem mem_children_of_collect (hg : g.WellFormed) {i c : NodeId}
    (hc : c ∈ (g.collect.kind i).children) :
    (g.collect.kind i).isUnion = (g.kind (g.unplace i)).isUnion ∧
      g.unplace c ∈ (g.kind (g.unplace i)).children := by
  obtain ⟨r, hr, rfl⟩ := exists_place_eq (lt_size_of_mem_children hc)
  rw [kind_collect hr, mem_children_mapChildren] at hc
  obtain ⟨d, hd, rfl⟩ := hc
  rw [kind_collect hr, isUnion_mapChildren, unplace_place hr,
    unplace_place (mem_reachable_of_mem_children hg hr hd)]
  exact ⟨rfl, hd⟩

/-- Collected types are as deep as what they were. -/
theorem Depth.collect (H : Depth N depth g) (hg : g.WellFormed) :
    Depth N (depth ∘ g.unplace) g.collect := by
  refine ⟨fun i hi hu c hc => ?_, fun i hi hu c hc => ?_⟩
  · obtain ⟨hkind, hc⟩ := mem_children_of_collect hg hc
    exact H.union_le _ hi (hkind.symm.trans hu) _ hc
  · obtain ⟨hkind, hc⟩ := mem_children_of_collect hg hc
    exact H.lt _ hi (hkind.symm.trans hu) _ hc

theorem Sinking.follow_le (S : Sinking N n depth g s depth') (H : Settling conflate P g [] s)
    (r : NodeId) : depth' (s.redirection.follow r) ≤ depth' r := by
  cases hm : s.redirection.get? r with
  | none => exact Nat.le_of_eq (congrArg depth' (follow_of_none hm))
  | some m =>
    rw [follow_of_some hm (H.get?_of_not_isUnion (H.redirected r m hm).2.2)]
    exact S.redirected r m hm

/-- **Flattening leaves less depth**: unions that are not flat are nested less deep than before. -/
theorem shallow_flattenUnions (hg : g.WellFormed) (hinter : g.Every (·.isIntersection = false))
    (hshallow : Shallow conflate N (n + 1) depth g) (hn : n ≤ N) :
    ∃ depth', Shallow conflate N n depth' (flattenUnions conflate g).1 := by
  obtain ⟨depth', S⟩ := sinking_settle hg hinter hshallow hn
  have H : Settling conflate (fun _ => True) g [] (g.settle conflate) := settling_true hg hinter
  rw [flattenUnions_fst]
  generalize g.settle conflate = s at S H
  refine ⟨_, (S.bound.renameReferences (S.follow_le H)).collect H.wellFormed_forward,
    fun i hi => ?_⟩
  by_cases hlt : i < (s.graph.forward s.redirection).collect.size
  · obtain ⟨r, hr, rfl⟩ := exists_place_eq hlt
    have hplace : (s.graph.forward s.redirection).unplace
        ((s.graph.forward s.redirection).place r) = r := unplace_place hr
    by_cases hrg : r < g.size
    · exact H.flatAt_collect hrg hr
    · refine FlatAt.collect (flatAt_of_not_isUnion ?_) hr
      rw [forward, kind_renameReferences, isUnion_mapChildren, ← Bool.not_eq_true]
      refine fun hu => Nat.not_lt.2 ?_ (S.fresh r (Nat.not_lt.1 hrg) hu)
      rwa [← hplace]
  · refine flatAt_of_not_isUnion ?_
    rw [kind_eq_nothing_of_le (Nat.not_lt.1 hlt)]
    rfl

/-- Where all unions are flat once an application is over, flattening says that it is done. -/
theorem flattenUnions_done_of_shallow (hg : g.WellFormed)
    (hinter : g.Every (·.isIntersection = false)) (hshallow : Shallow conflate N 1 depth g) :
    (flattenUnions conflate g).2 = true := by
  obtain ⟨depth', hshallow'⟩ := shallow_flattenUnions hg hinter hshallow (Nat.zero_le N)
  rw [flattenUnions_snd, (settling_true hg hinter).not_waiting, Bool.not_false, Bool.true_and,
    List.all_eq_true]
  exact fun r _ => isFlat_iff.2 (hshallow'.flat r (Nat.zero_le _))

/-- **Flattening converges where types are not nested too deep**, if all bounds are numbers: one
    application for each level of unions that are not flat is enough, and one that finds that
    nothing changes. -/
theorem flattening_converges (hg : g.WellFormed) (hnan : g.NaNFree)
    (hinter : g.Every (·.isIntersection = false)) (hshallow : Shallow conflate N (N + 1) depth g)
    (hN : N + 2 ≤ iterationLimit) (stage : String) :
    ∃ g', (toFixedPoint stage fun _ => flattenUnions conflate).run g = (.ok ⟨⟩, g') := by
  refine repeatFrom_succeeds (I := fun k g => g.WellFormed ∧ g.NaNFree ∧
      g.Every (·.isIntersection = false) ∧ k ≤ N + 1 ∧ ∃ depth, Shallow conflate N k depth g)
    (fun k g I => ?_) (fun g I => ?_) (fun k g I => flattenUnions_done_of_same I.1 I.2.2.1)
    (fun k g I => (final_flattenUnions conflate).same_again I.1 I.2.1) 0
    ⟨hg, hnan, hinter, Nat.le_refl _, depth, hshallow⟩ hN
  · obtain ⟨hg, hnan, hinter, hk, depth, hshallow⟩ := I
    have hk := Nat.le_of_succ_le_succ hk
    rw [collect_flattenUnions hg]
    exact ⟨(kept_flattenUnions conflate hg).wellFormed, nanFree_flattenUnions conflate hg hnan,
      every_flattenUnions mergeable_isIntersection conflate hinter, Nat.le_succ_of_le hk,
      shallow_flattenUnions hg hinter hshallow hk⟩
  · obtain ⟨hg, -, hinter, -, depth, hshallow⟩ := I
    exact flattenUnions_done_of_shallow hg hinter hshallow

/-- **Where flattening converges, and where not.**  Without intersections in the way, it fails only
    at the limit, or, if a bound is not a number, where a change is found after it was done.  With
    numbers as bounds, it converges if types are nested below unions that are not flat less deep
    than the applications allow, though other types may be recursive.  It does not, with any number
    of applications, if there is a union of arrays of each other. -/
theorem flattening_convergence (hg : g.WellFormed) (hinter : g.Every (·.isIntersection = false))
    (conflate : Bool) (stage : String) :
    FailsOnly (toFixedPoint stage fun _ => flattenUnions conflate) g (fun e =>
      e = .iterationLimit stage iterationLimit ∨ ¬g.NaNFree ∧ e = .changedAfterDone stage) ∧
    (g.NaNFree → ∀ N depth, N + 2 ≤ iterationLimit → Shallow conflate N (N + 1) depth g →
      ∃ g', (toFixedPoint stage fun _ => flattenUnions conflate).run g = (.ok ⟨⟩, g')) ∧
    ∀ u ms, Tangle conflate g u ms →
      ∀ n, ∃ g', (repeatFrom stage (fun _ => flattenUnions conflate) n 0 false).run g =
        (.error (.iterationLimit stage iterationLimit), g') :=
  ⟨failsOnly_flattenUnions conflate hg hinter iterationLimit 0,
    fun hnan _ _ hN hshallow => flattening_converges hg hnan hinter hshallow hN stage,
    fun _ _ T n => flattening_never_done hg hinter T stage n⟩

/-- Lists of whole numbers or of lists of such, beside lists of lists without end. -/
def mixedLists : Graph where
  nodes := #[.new (.array 0), .new (.union (.ofList [2, 3])), .new (.array 4), .new (.array 2),
    .new .integer]
  topLevels := .ofList [("Endless", 0), ("Mixed", 1)]

/-- Lists without end are deeper than those below the union. -/
def mixedDepth (r : NodeId) : Nat := #[3, 2, 1, 2].getD r 0

theorem shallow_mixedLists : Shallow conflate 2 3 mixedDepth mixedLists := by
  refine shallow_of_lt_size (by decide) (by decide) ?_
  cases conflate <;> decide

theorem flattening_convergence_lists :
    (mixedLists.WellFormed ∧ mixedLists.NaNFree ∧ mixedLists.Every (·.isIntersection = false) ∧
      Shallow false 2 3 mixedDepth mixedLists ∧
      ∃ g', (toFixedPoint "flatten unions" fun _ => flattenUnions false).run mixedLists =
        (.ok ⟨⟩, g')) ∧
    tangledLists.WellFormed ∧ tangledLists.Every (·.isIntersection = false) ∧
      Tangle false tangledLists 2 (.ofList [0, 1]) ∧
      ∃ g', (toFixedPoint "flatten unions" fun _ => flattenUnions false).run tangledLists =
        (.error (.iterationLimit "flatten unions" 64), g') := by
  have hg : mixedLists.WellFormed := ⟨by decide, by decide⟩
  have hnan : mixedLists.NaNFree := by decide
  have hinter : ∀ r < mixedLists.size, (mixedLists.kind r).isIntersection = false := by decide
  exact ⟨⟨hg, hnan, hinter, shallow_mixedLists,
      (flattening_convergence hg hinter false "flatten unions").2.1 hnan 2 mixedDepth (by decide)
        shallow_mixedLists⟩,
    wellFormed_tangledLists, every_tangledLists, tangle_tangledLists,
    (flattening_convergence wellFormed_tangledLists every_tangledLists false "flatten unions").2.2
      2 _ tangle_tangledLists iterationLimit⟩

end Graph

end SchemaTypes
