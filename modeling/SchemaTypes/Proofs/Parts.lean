/-
  The parts of a resolved type admit what its description does.

  * `mapM_spec`: what is made for the entries of a list, one after the other;
  * `meetObjects_spec`: an object type for all of several;
  * `parts_spec`: primitive kinds, arrays and objects together.
-/
import SchemaTypes.Proofs.Faithful

namespace SchemaTypes

open SchemaTypes.Graph

variable {ρ : Reading}

namespace Resolution

variable {g₀ o o' : Graph} {s s' : Resolution} {set : SortedSet NodeId} {r : NodeId} {v : Json}

/-! ## One node after the other -/

theorem bind_apply {α β : Type} (m : ResolutionM α) (f : α → ResolutionM β) (s : Resolution) :
    (m >>= f) s = f (m s).1 (m s).2 := rfl

theorem mapM_cons_apply {α β : Type} (f : α → ResolutionM β) (a : α) (l : List α)
    (s : Resolution) :
    (a :: l).mapM f s = ((f a s).1 :: (l.mapM f (f a s).2).1, (l.mapM f (f a s).2).2) := by
  rw [List.mapM_cons]
  rfl

/-- What is made for the entries of a list, one after the other: `P` is asked of an entry, `Q`
    said of an entry and what is made for it; neither is lost when nodes come. -/
theorem mapM_spec {α β : Type} {f : α → ResolutionM β} {P : α → Resolution → Graph → Prop}
    {Q : α → β → Resolution → Graph → Prop}
    (hP : ∀ {a s o s' o'}, Faithful ρ g₀ s o → Extends ρ g₀ s o s' o' → P a s o → P a s' o')
    (hQ : ∀ {a b s o s' o'}, Faithful ρ g₀ s o → Extends ρ g₀ s o s' o' → Q a b s o → Q a b s' o')
    (hf : ∀ {a s o}, Faithful ρ g₀ s o → P a s o →
      ∃ o', Extends ρ g₀ s o (f a s).2 o' ∧ Q a (f a s).1 (f a s).2 o')
    (H : Faithful ρ g₀ s o) (l : List α) (hl : ∀ a ∈ l, P a s o) :
    ∃ o', Extends ρ g₀ s o (l.mapM f s).2 o' ∧
      (∀ a ∈ l, ∃ b ∈ (l.mapM f s).1, Q a b (l.mapM f s).2 o') ∧
      ∀ b ∈ (l.mapM f s).1, ∃ a ∈ l, Q a b (l.mapM f s).2 o' := by
  induction l generalizing s o with
  | nil => exact ⟨o, .refl H, by simp, fun _ hb => absurd hb List.not_mem_nil⟩
  | cons a l ih =>
    rw [mapM_cons_apply]
    obtain ⟨o₁, E₁, hq⟩ := hf H (hl a List.mem_cons_self)
    obtain ⟨o₂, E₂, hmem, hmem'⟩ := ih E₁.faithful fun b hb =>
      hP H E₁ (hl b (List.mem_cons_of_mem a hb))
    have hq := hQ E₁.faithful E₂ hq
    refine ⟨o₂, E₁.trans E₂, fun b hb => ?_, fun b hb => ?_⟩
    · rcases List.mem_cons.1 hb with rfl | hb
      · exact ⟨_, List.mem_cons_self, hq⟩
      · obtain ⟨c, hc, hq⟩ := hmem b hb
        exact ⟨c, List.mem_cons_of_mem _ hc, hq⟩
    · rcases List.mem_cons.1 hb with rfl | hb
      · exact ⟨a, List.mem_cons_self, hq⟩
      · obtain ⟨c, hc, hq⟩ := hmem' b hb
        exact ⟨c, List.mem_cons_of_mem _ hc, hq⟩

/-! ## Intersected object types -/

/-- The properties made for names: each admits what all views do, and is optional only if no
    view requires it. -/
structure Met (ρ : Reading) (o : Graph) (views : List ObjectView) (names : List String)
    (ps ps' : Properties) : Prop where
  of_mem : ∀ name ∈ names, ∃ p, ps'.get? name = some p ∧
    (p.optional = false → ∃ view ∈ views, view.requires name = true) ∧
    MeetsIn ρ o (ObjectView.typesOf views name) p.type
  of_not_mem : ∀ name ∉ names, ps'.get? name = ps.get? name

theorem Met.grow (ho : o.WellFormed) (h : o.Grows o') {views : List ObjectView}
    {names : List String} {ps ps' : Properties} (M : Met ρ o views names ps ps') :
    Met ρ o' views names ps ps' := by
  refine ⟨fun name hn => ?_, M.of_not_mem⟩
  obtain ⟨p, hp, hreq, hm⟩ := M.of_mem name hn
  exact ⟨p, hp, hreq, hm.grow ho h⟩

theorem meetProperties_spec (H : Faithful ρ g₀ s o) {views : List ObjectView}
    (hviews : o.ViewsBounded views) (names : List String) (ps : Properties) :
    ∃ o', Extends ρ g₀ s o (meetProperties views names ps s).2 o' ∧
      Met ρ o' views names ps (meetProperties views names ps s).1 := by
  induction names generalizing s o ps with
  | nil => exact ⟨o, .refl H, by simp, fun _ _ => rfl⟩
  | cons name rest ih =>
    have hset : ∀ t ∈ ObjectView.typesOf views name, t < o.size := hviews.lt_of_mem_typesOf
    obtain ⟨o₁, E₁, hm⟩ := intersectionOf_spec H hset
    obtain ⟨o₂, E₂, M⟩ := ih E₁.faithful (hviews.mono E₁.grows_old)
      (ps.insert name ⟨_, !views.any fun v => v.requires name⟩)
    refine ⟨o₂, E₁.trans E₂, fun other ho => ?_, fun other ho => ?_⟩
    · by_cases hr : other ∈ rest
      · exact M.of_mem other hr
      · obtain rfl : other = name := by simpa [hr] using ho
        refine ⟨_, (M.of_not_mem other hr).trans (by rw [OrderedMap.get?_insert, if_pos rfl]), ?_,
          hm.grow E₁.faithful.wellFormed_old E₂.grows_old⟩
        intro hopt
        simpa using hopt
    · rw [List.mem_cons, not_or] at ho
      exact (M.of_not_mem other ho.2).trans (by rw [OrderedMap.get?_insert, if_neg ho.1])

/-- Properties made for all names admit an object that all views do, if what the views admit of
    others is admitted. -/
theorem Met.admit {views : List ObjectView} {ps' : Properties}
    (M : Met ρ o views (ObjectView.names views) ∅ ps') {fields : Json.Fields} {P : Json → Prop}
    (hv : ∀ view ∈ views, view.Admits (o.unnested.Admits ρ) fields)
    (hP : ∀ e ∈ fields, (∀ view ∈ views, ∃ r ∈ view.additional, o.unnested.Admits ρ r e.2) → P e.2) :
    ps'.Admit (o.unnested.Admits ρ) P fields := by
  have hnames : ∀ name p, ps'.get? name = some p → name ∈ ObjectView.names views := by
    refine fun name p hp => Decidable.byContradiction fun hn => ?_
    rw [M.of_not_mem name hn] at hp
    cases hp
  refine ⟨fun name p hp hopt => ?_, fun e he => ?_⟩
  · -- some view requires the property
    obtain ⟨q, hq, hreq, -⟩ := M.of_mem name (hnames name p hp)
    obtain rfl : q = p := Option.some.inj (hq.symm.trans hp)
    obtain ⟨view, hview, hreq⟩ := hreq hopt
    unfold ObjectView.requires at hreq
    split at hreq
    · next p' hp' => exact (hv view hview).1 name p' hp' (by simpa using hreq)
    · cases hreq
  · split
    · next p hp =>
      obtain ⟨q, hq, -, hm⟩ := M.of_mem e.1 (hnames e.1 p hp)
      obtain rfl : q = p := Option.some.inj (hq.symm.trans hp)
      refine hm.admits e.2 fun t ht => ?_
      obtain ⟨view, hview, ht⟩ := ObjectView.mem_typesOf.1 ht
      have he' := (hv view hview).2 e he
      split at ht
      · next p' hp' =>
        rw [hp'] at he'
        exact ht ▸ he'
      · next hn =>
        rw [hn] at he'
        obtain ⟨r, hr, he'⟩ := he'
        rwa [← Option.mem_unique hr ht]
    · next hnone =>
      refine hP e he fun view hview => ?_
      have he' := (hv view hview).2 e he
      split at he'
      · next p' hp' =>
        obtain ⟨q, hq, -⟩ := M.of_mem e.1 (ObjectView.mem_names.2 ⟨view, hview, p', hp'⟩)
        cases hnone.symm.trans hq
      · exact he'

theorem Met.lt_of_mem_types {views : List ObjectView} {names : List String} {ps' : Properties}
    (M : Met ρ o views names ∅ ps') : ∀ c ∈ ps'.types, c < o.size := fun c hc => by
  obtain ⟨name, p, hp, rfl⟩ := Properties.exists_of_mem_types hc
  by_cases hn : name ∈ names
  · obtain ⟨q, hq, -, hm⟩ := M.of_mem name hn
    obtain rfl : q = p := Option.some.inj (hq.symm.trans hp)
    exact hm.lt_size
  · rw [M.of_not_mem name hn] at hp
    cases hp

theorem meetObjects_apply (rs : List NodeId) (s : Resolution) :
    meetObjects rs s =
      let views := rs.filterMap fun r => (s.graph.kind r).objectView?
      let ps := meetProperties views (ObjectView.names views) ∅ s
      if views.all fun v => v.additional.isSome then
        let a := intersectionOf (.ofList (views.filterMap (·.additional))) ps.2
        (.object ps.1 (some a.1), a.2)
      else (.object ps.1 none, ps.2) := by
  unfold meetObjects
  rw [get_bind_apply]
  dsimp only
  rw [bind_apply]
  split <;> rfl

/-- The views of object types are admitted as the types are. -/
theorem Faithful.admits_view (hρ : ρ.openClasses = false) (H : Faithful ρ g₀ s o) {view : ObjectView}
    (hview : (s.graph.kind r).objectView? = some view) {fields : Json.Fields}
    (hv : o.unnested.Admits ρ r (.object fields)) : view.Admits (o.unnested.Admits ρ) fields := by
  have hobj := Kind.isObjectLike_iff.2 ⟨view, hview⟩
  obtain ⟨_, he, hv⟩ := (Kind.admits_iff_view hρ hview).1
    (H.admits_ground (Kind.isGround_of_isObjectLike hobj) hv)
  cases he
  exact hv

theorem admits_view_of_grows (ho : o.WellFormed) (h : o.Grows o') {view : ObjectView}
    (hview : (∀ c ∈ view.properties.types, c < o.size) ∧ ∀ c ∈ view.additional, c < o.size)
    {fields : Json.Fields} (hv : view.Admits (o.unnested.Admits ρ) fields) :
    view.Admits (o'.unnested.Admits ρ) fields :=
  hv.mono (fun c hc _ _ hw => (admits_unnested_of_grows h ho (hview.1 c hc)).2 hw)
    fun _ _ ⟨c, hc, hw⟩ => ⟨c, hc, (admits_unnested_of_grows h ho (hview.2 c hc)).2 hw⟩

theorem Faithful.viewsBounded (H : Faithful ρ g₀ s o) (rs : List NodeId) :
    o.ViewsBounded (rs.filterMap fun r => (s.graph.kind r).objectView?) := fun view hview => by
  obtain ⟨r, -, hview⟩ := List.mem_filterMap.1 hview
  exact ⟨fun c hc => H.lt_of_mem_children (Kind.mem_children_of_view hview (.inl hc)),
    fun c hc => H.lt_of_mem_children (Kind.mem_children_of_view hview (.inr hc))⟩

/-- An object that all types admit is admitted by all views, in any graph that comes. -/
theorem Extends.admits_views (hρ : ρ.openClasses = false) (H : Faithful ρ g₀ s o)
    (E : Extends ρ g₀ s o s' o') {rs : List NodeId}
    (hrs : ∀ r ∈ rs, (s.graph.kind r).isObjectLike = true) {fields : Json.Fields}
    (hv : ∀ r ∈ rs, o'.unnested.Admits ρ r (.object fields)) :
    ∀ view ∈ rs.filterMap fun r => (s.graph.kind r).objectView?,
      view.Admits (o'.unnested.Admits ρ) fields := by
  intro view hmem
  obtain ⟨r, hr, hview⟩ := List.mem_filterMap.1 hmem
  have hlt : r < o.size := by
    rw [H.size_eq]
    exact lt_size_of_isObjectLike (hrs r hr)
  exact admits_view_of_grows H.wellFormed_old E.grows_old (H.viewsBounded rs view hmem)
    (H.admits_view hρ hview ((E.admits_iff H.wellFormed_old hlt).1 (hv r hr)))

/-- **An object type made of several admits the objects that all of them do.** -/
theorem meetObjects_spec (hρ : ρ.openClasses = false) (H : Faithful ρ g₀ s o) {rs : List NodeId}
    (hrs : ∀ r ∈ rs, (s.graph.kind r).isObjectLike = true) :
    ∃ o', Extends ρ g₀ s o (meetObjects rs s).2 o' ∧
      (meetObjects rs s).1.isObjectLike = true ∧
      (∀ c ∈ (meetObjects rs s).1.children, c < o'.size) ∧
      ∀ fields, (∀ r ∈ rs, o'.unnested.Admits ρ r (.object fields)) →
        (meetObjects rs s).1.Admits ρ (o'.unnested.Admits ρ) (.object fields) := by
  have hbound := H.viewsBounded rs
  rw [meetObjects_apply]
  extract_lets views ps a
  obtain ⟨o₁, E₁, M⟩ := meetProperties_spec H hbound (ObjectView.names views) ∅
  change Extends ρ g₀ s o ps.2 o₁ at E₁
  change Met ρ o₁ views _ ∅ ps.1 at M
  have hb₁ := hbound.mono E₁.grows_old
  split
  · have hset : ∀ m ∈ SortedSet.ofList (views.filterMap (·.additional)), m < o₁.size := by
      intro m hm
      obtain ⟨view, hview, hm⟩ := List.mem_filterMap.1 (SortedSet.mem_ofList.1 hm)
      exact (hb₁ view hview).2 m hm
    obtain ⟨o₂, E₂, hm⟩ := intersectionOf_spec E₁.faithful hset
    change Extends ρ g₀ ps.2 o₁ a.2 o₂ at E₂
    change MeetsIn ρ o₂ _ a.1 at hm
    have E := E₁.trans E₂
    have M₂ := M.grow E₁.faithful.wellFormed_old E₂.grows_old
    refine ⟨o₂, E, rfl, fun c hc => ?_, fun fields hv => ⟨fields, rfl, ?_⟩⟩
    · rcases List.mem_append.1 hc with hc | hc
      · exact M₂.lt_of_mem_types c hc
      · rw [Option.toList_some, List.mem_singleton] at hc
        exact hc ▸ hm.lt_size
    · refine M₂.admit (E.admits_views hρ H hrs hv) fun e he hothers => ⟨a.1, rfl, hm.admits e.2 ?_⟩
      intro m hmm
      obtain ⟨view, hview, hmm⟩ := List.mem_filterMap.1 (SortedSet.mem_ofList.1 hmm)
      obtain ⟨r, hr, hw⟩ := hothers view hview
      rwa [← Option.mem_unique hr hmm]
  · next hnone =>
    refine ⟨o₁, E₁, rfl, fun c hc => ?_, fun fields hv => ⟨fields, rfl, ?_⟩⟩
    · exact M.lt_of_mem_types c (by simpa [Kind.children] using hc)
    · refine M.admit (E₁.admits_views hρ H hrs hv) fun e he hothers => absurd ?_ hnone
      rw [List.all_eq_true]
      intro view hview
      obtain ⟨r, hr, -⟩ := hothers view hview
      rw [Option.mem_def.1 hr]
      rfl

/-! ## Parts -/

/-- What a part admits. -/
def PartAdmits (ρ : Reading) (o : Graph) : Part → Json → Prop
  | .new kind, v => kind.Admits ρ (o.unnested.Admits ρ) v
  | .existing r, v => o.unnested.Admits ρ r v

/-- A part is a ground kind that can be the kind of a node, or an object type. -/
def PartFits (ρ : Reading) (s : Resolution) (o : Graph) : Part → Prop
  | .new kind => kind.isGround = true ∧ (∀ c ∈ kind.children, c < o.size) ∧ ρ.Free kind.listed
  | .existing r => (s.graph.kind r).isObjectLike = true

theorem Faithful.lt_of_isObjectLike (H : Faithful ρ g₀ s o)
    (hr : (s.graph.kind r).isObjectLike = true) : r < o.size :=
  H.size_eq ▸ lt_size_of_isObjectLike hr

theorem Extends.isObjectLike (E : Extends ρ g₀ s o s' o')
    (hr : (s.graph.kind r).isObjectLike = true) : (s'.graph.kind r).isObjectLike = true := by
  rwa [E.grows.kind_eq r (lt_size_of_isObjectLike hr)]

theorem PartFits.extend (E : Extends ρ g₀ s o s' o') {p : Part} (hp : PartFits ρ s o p) :
    PartFits ρ s' o' p := by
  cases p with
  | new kind =>
    exact ⟨hp.1, fun c hc => Nat.lt_of_lt_of_le (hp.2.1 c hc) E.grows_old.size_le, hp.2.2⟩
  | existing r => exact E.isObjectLike hp

theorem PartFits.admits_iff (H : Faithful ρ g₀ s o) (E : Extends ρ g₀ s o s' o') {p : Part}
    (hp : PartFits ρ s o p) : PartAdmits ρ o' p v ↔ PartAdmits ρ o p v := by
  cases p with
  | new kind =>
    have hc : ∀ c ∈ kind.children, ∀ w,
        o'.unnested.Admits ρ c w ↔ o.unnested.Admits ρ c w := fun c hc w =>
      E.admits_iff H.wellFormed_old (hp.2.1 c hc)
    constructor
    · exact fun hv => Kind.Admits.mono hv fun c h w => (hc c h w).1
    · exact fun hv => Kind.Admits.mono hv fun c h w => (hc c h w).2
  | existing r => exact E.admits_iff H.wellFormed_old (H.lt_of_isObjectLike hp)

/-- What alternatives demand in the grown graph they demand in the old one. -/
theorem Extends.hold (H : Faithful ρ g₀ s o) (E : Extends ρ g₀ s o s' o')
    {x : Option Alternatives} (hx : ∀ l ∈ x, ∀ set ∈ l, ∀ t ∈ set, t < o.size) {ws : List Json}
    (h : Alternatives.Hold (o'.unnested.Admits ρ) x ws) :
    Alternatives.Hold (o.unnested.Admits ρ) x ws :=
  h.mono hx fun _ ht _ hw => (E.admits_iff H.wellFormed_old ht).1 hw

/-- A part for alternatives: it admits the values that `W` relates to lists of values that meet
    the alternatives. -/
structure PartFor (ρ : Reading) (W : List Json → Json → Prop) (l : Alternatives) (p : Part)
    (s : Resolution) (o : Graph) : Prop where
  lt_size : ∀ set ∈ l, ∀ t ∈ set, t < o.size
  fits : PartFits ρ s o p
  admits : ∀ ws v, W ws v → Alternatives.Hold (o.unnested.Admits ρ) (some l) ws →
    PartAdmits ρ o p v

theorem PartFor.extend {W : List Json → Json → Prop} {l : Alternatives} {p : Part}
    (H : Faithful ρ g₀ s o) (E : Extends ρ g₀ s o s' o') (h : PartFor ρ W l p s o) :
    PartFor ρ W l p s' o' where
  lt_size set hset t ht := Nat.lt_of_lt_of_le (h.lt_size set hset t ht) E.grows_old.size_le
  fits := h.fits.extend E
  admits ws v hw hv := by
    refine (h.fits.admits_iff H E).2 (h.admits ws v hw (E.hold H (fun l' hl' => ?_) hv))
    cases hl'
    exact h.lt_size

theorem arrayPart_apply (l : Alternatives) (s : Resolution) :
    arrayPart l s =
      if l.isEmpty then
        (.new (.array s.graph.size), { s with graph := s.graph.push (.new .any) })
      else
        let items := l.mapM unionOf s
        let r := intersectionOf (.ofList items.1) items.2
        (.new (.array r.1), r.2) := by
  unfold arrayPart
  split <;> rfl

/-- A node that admits everything comes. -/
theorem Faithful.push_any (H : Faithful ρ g₀ s o) :
    ∃ o', Extends ρ g₀ s o { s with graph := s.graph.push (.new .any) } o' ∧
      s.graph.size < o'.size ∧ ∀ v, o'.unnested.Admits ρ s.graph.size v := by
  obtain ⟨o', E, hlt, hk⟩ := H.push (n := .new .any) (by simp [Node.new, Kind.children])
    fun _ hs => absurd hs SortedSet.not_mem_empty
  refine ⟨o', E, H.size_eq ▸ hlt, fun v => ?_⟩
  rw [unnested_iff E.faithful.wellFormed_old, hk]
  trivial

/-- **Arrays of all alternatives.** -/
theorem arrayPart_spec (H : Faithful ρ g₀ s o) {l : Alternatives}
    (hl : ∀ set ∈ l, ∀ t ∈ set, t < o.size) :
    ∃ o', Extends ρ g₀ s o (arrayPart l s).2 o' ∧
      PartFor ρ (fun ws v => v = .array ws) l (arrayPart l s).1 (arrayPart l s).2 o' := by
  have hempty : ρ.Free ∅ := fun _ hs => absurd hs SortedSet.not_mem_empty
  have hbound : ∀ {s' o'}, Extends ρ g₀ s o s' o' → ∀ set ∈ l, ∀ t ∈ set, t < o'.size :=
    fun E set hset t ht => Nat.lt_of_lt_of_le (hl set hset t ht) E.grows_old.size_le
  rw [arrayPart_apply]
  split
  · obtain ⟨o', E, hlt, hany⟩ := H.push_any
    refine ⟨o', E, hbound E, ⟨rfl, fun c hc => List.mem_singleton.1 hc ▸ hlt, hempty⟩, ?_⟩
    rintro vs _ rfl -
    exact ⟨vs, rfl, fun w _ => hany w⟩
  extract_lets items r
  obtain ⟨o₁, E₁, hmem, hmem'⟩ := mapM_spec
    (P := fun set _ o => ∀ t ∈ set, t < o.size) (Q := fun set r _ o => JoinsIn ρ o set r)
    (fun _ E h t ht => Nat.lt_of_lt_of_le (h t ht) E.grows_old.size_le)
    (fun H E h => h.grow H.wellFormed_old E.grows_old) unionOf_spec H l hl
  change Extends ρ g₀ s o items.2 o₁ at E₁
  have hset : ∀ m ∈ SortedSet.ofList items.1, m < o₁.size := fun m hm => by
    obtain ⟨set, -, hj⟩ := hmem' m (SortedSet.mem_ofList.1 hm)
    exact hj.lt_size
  obtain ⟨o₂, E₂, hm⟩ := intersectionOf_spec E₁.faithful hset
  change Extends ρ g₀ items.2 o₁ r.2 o₂ at E₂
  have E := E₁.trans E₂
  refine ⟨o₂, E, hbound E, ⟨rfl, fun c hc => List.mem_singleton.1 hc ▸ hm.lt_size, hempty⟩, ?_⟩
  rintro vs _ rfl ⟨_, he, hvs⟩
  cases he
  refine ⟨vs, rfl, fun w hw => hm.admits w fun m hmi => ?_⟩
  obtain ⟨set, hset, hj⟩ := hmem' m (SortedSet.mem_ofList.1 hmi)
  have hj := hj.grow E₁.faithful.wellFormed_old E₂.grows_old
  obtain ⟨t, ht, htw⟩ := hvs set hset w hw
  exact hj.admits t ht w htw

theorem objectPart_apply (l : Alternatives) (s : Resolution) :
    objectPart l s =
      if l.isEmpty then
        (.new (.map s.graph.size), { s with graph := s.graph.push (.new .any) })
      else
        let rs := l.mapM objectOf s
        match rs.1.eraseDups with
        | [only] => (.existing only, rs.2)
        | rs' => (.new (meetObjects rs' rs.2).1, (meetObjects rs' rs.2).2) := by
  unfold objectPart
  split
  · rfl
  · rw [bind_apply]
    dsimp only
    generalize (l.mapM objectOf s).1.eraseDups = rs
    rcases rs with _ | ⟨only, _ | ⟨r, rs⟩⟩ <;> rfl

/-- **Objects of all alternatives.** -/
theorem objectPart_spec (hρ : ρ.openClasses = false) (H : Faithful ρ g₀ s o) {l : Alternatives}
    (hl : ∀ set ∈ l, ∀ t ∈ set, (s.graph.kind t).isObjectLike = true) :
    ∃ o', Extends ρ g₀ s o (objectPart l s).2 o' ∧
      PartFor ρ (fun ws v => ∃ fields, v = .object fields ∧ ws = [v]) l (objectPart l s).1
        (objectPart l s).2 o' := by
  have hempty : ρ.Free ∅ := fun _ hs => absurd hs SortedSet.not_mem_empty
  have hbound : ∀ {s' o'}, Extends ρ g₀ s o s' o' → ∀ set ∈ l, ∀ t ∈ set, t < o'.size :=
    fun E set hset t ht =>
      Nat.lt_of_lt_of_le (H.lt_of_isObjectLike (hl set hset t ht)) E.grows_old.size_le
  rw [objectPart_apply]
  split
  · obtain ⟨o', E, hlt, hany⟩ := H.push_any
    refine ⟨o', E, hbound E, ⟨rfl, fun c hc => List.mem_singleton.1 hc ▸ hlt, hempty⟩, ?_⟩
    rintro _ _ ⟨fields, rfl, rfl⟩ -
    exact ⟨fields, rfl, fun e _ => hany e.2⟩
  extract_lets rs
  obtain ⟨o₁, E₁, hmem, hmem'⟩ := mapM_spec
    (P := fun set s _ => ∀ t ∈ set, (s.graph.kind t).isObjectLike = true)
    (Q := fun set r s o => JoinsIn ρ o set r ∧ (s.graph.kind r).isObjectLike = true)
    (fun _ E h t ht => E.isObjectLike (h t ht))
    (fun H E h => ⟨h.1.grow H.wellFormed_old E.grows_old, E.isObjectLike h.2⟩)
    (fun H h => objectOf_spec hρ H h) H l hl
  change Extends ρ g₀ s o rs.2 o₁ at E₁
  change ∀ r ∈ rs.1, _ at hmem'
  have hobj : ∀ r ∈ rs.1.eraseDups, (rs.2.graph.kind r).isObjectLike = true := fun r hr => by
    obtain ⟨set, -, -, hobj⟩ := hmem' r (List.mem_eraseDups.1 hr)
    exact hobj
  -- each object type admits what all alternatives do
  have hadm : ∀ {s' o'}, Extends ρ g₀ rs.2 o₁ s' o' → ∀ fields,
      Alternatives.Hold (o'.unnested.Admits ρ) (some l) [.object fields] →
        ∀ r ∈ rs.1.eraseDups, o'.unnested.Admits ρ r (.object fields) := by
    rintro s' o' E fields ⟨_, he, hv⟩ r hr
    cases he
    obtain ⟨set, hset, hj, -⟩ := hmem' r (List.mem_eraseDups.1 hr)
    have hj := hj.grow E₁.faithful.wellFormed_old E.grows_old
    obtain ⟨t, ht, htw⟩ := hv set hset _ List.mem_cons_self
    exact hj.admits t ht _ htw
  split
  · next only he =>
    rw [he] at hobj hadm
    refine ⟨o₁, E₁, hbound E₁, hobj only List.mem_cons_self, ?_⟩
    rintro _ _ ⟨fields, rfl, rfl⟩ hv
    exact hadm (.refl E₁.faithful) fields hv only List.mem_cons_self
  · obtain ⟨o₂, E₂, hk, hlt, hv⟩ := meetObjects_spec hρ E₁.faithful hobj
    refine ⟨o₂, E₁.trans E₂, hbound (E₁.trans E₂),
      ⟨Kind.isGround_of_isObjectLike hk, hlt, ?_⟩, ?_⟩
    · rw [Kind.listed_of_isObjectLike hk]
      exact hempty
    · rintro _ _ ⟨fields, rfl, rfl⟩ hh
      exact hv fields (hadm E₂ fields hh)

theorem parts_apply (a : Admitted) (s : Resolution) :
    parts a s =
      let arrays := a.arrays.toList.mapM arrayPart s
      let objects := a.objects.toList.mapM objectPart arrays.2
      ((primitiveParts a).map .new ++ arrays.1 ++ objects.1, objects.2) := rfl

theorem mem_primitiveParts {a : Admitted} (ha : ∀ cases, a.texts = .only cases → ρ.Free cases)
    {k : Kind} (hk : k ∈ primitiveParts a) :
    k.isGround = true ∧ k.children = [] ∧ ρ.Free k.listed := by
  have hempty : ρ.Free ∅ := fun _ hs => absurd hs SortedSet.not_mem_empty
  have hif : ∀ {b : Bool} {k' : Kind}, k ∈ (if b then [k'] else []) → k = k' := fun h => by
    split at h
    · exact List.mem_singleton.1 h
    · cases h
  simp only [primitiveParts, List.mem_append, List.mem_map, SortedSet.mem_toList] at hk
  rcases hk with ((((hk | hk) | hk) | hk) | hk) | ⟨f, -, rfl⟩
  · exact hif hk ▸ ⟨rfl, rfl, hempty⟩
  · exact hif hk ▸ ⟨rfl, rfl, hempty⟩
  · exact hif hk ▸ ⟨rfl, rfl, hempty⟩
  · exact hif hk ▸ ⟨rfl, rfl, hempty⟩
  · split at hk
    · cases hk
    · exact List.mem_singleton.1 hk ▸ ⟨rfl, rfl, hempty⟩
    · next cases htexts =>
      split at hk
      · cases hk
      · exact List.mem_singleton.1 hk ▸ ⟨rfl, rfl, ha cases htexts⟩
  · exact ⟨rfl, rfl, hempty⟩

/-- Primitive values and strings that are admitted have a part. -/
theorem exists_primitivePart {a : Admitted} {A : NodeId → Json → Prop} (hv : a.Admits ρ A v)
    (harray : ∀ vs, v ≠ .array vs) (hobject : ∀ fields, v ≠ .object fields) :
    ∃ k ∈ primitiveParts a, k.Admits ρ A v := by
  simp only [primitiveParts, List.mem_append, List.mem_map, SortedSet.mem_toList]
  cases v with
  | null => exact ⟨.null, by simp [show a.null = true from hv], rfl⟩
  | bool b => exact ⟨.bool, by simp [show a.bool = true from hv], b, rfl⟩
  | number n =>
    rcases hv with hd | ⟨hi, hn⟩
    · exact ⟨.double, by simp [hd], n, rfl⟩
    · exact ⟨.integer, by simp [hi], n, rfl, hn⟩
  | string s =>
    rcases hv with ht | ⟨f, hf, hs⟩
    · cases htexts : a.texts with
      | nothing =>
        rw [htexts] at ht
        exact ht.elim
      | all =>
        refine ⟨.string none, by simp, s, rfl, fun c hc => ?_⟩
        cases hc
      | only cases =>
        rw [htexts] at ht
        have hne : cases.isEmpty = false := by
          rw [← Bool.not_eq_true]
          intro he
          rw [SortedSet.isEmpty, List.isEmpty_iff] at he
          have hs := SortedSet.mem_toList.2 ht
          rw [he] at hs
          cases hs
        refine ⟨.string (some cases), by simp [hne], s, rfl, fun c hc => ?_⟩
        cases hc
        exact ht
    · exact ⟨.formatted f, by simp [hf], s, rfl, hs⟩
  | array vs => exact absurd rfl (harray vs)
  | object fields => exact absurd rfl (hobject fields)

/-- **The parts of a description admit what it does.** -/
theorem parts_spec (hρ : ρ.openClasses = false) (H : Faithful ρ g₀ s o) {a : Admitted}
    (ha : a.Proper ρ s.graph) :
    ∃ o', Extends ρ g₀ s o (parts a s).2 o' ∧
      (∀ p ∈ (parts a s).1, PartFits ρ (parts a s).2 o' p) ∧
      ∀ v, a.Admits ρ (o'.unnested.Admits ρ) v → ∃ p ∈ (parts a s).1, PartAdmits ρ o' p v := by
  rw [parts_apply]
  extract_lets arrays objects
  have hobj := ha.objects_objectLike
  obtain ⟨o₁, E₁, harrays, harrays'⟩ := mapM_spec (f := arrayPart)
    (P := fun l _ o => ∀ set ∈ l, ∀ t ∈ set, t < o.size) (Q := PartFor ρ fun ws v => v = .array ws)
    (fun _ E h set hset t ht => Nat.lt_of_lt_of_le (h set hset t ht) E.grows_old.size_le)
    (fun H E h => h.extend H E) (fun H h => arrayPart_spec H h) H a.arrays.toList
    fun l hl => H.size_eq ▸ ha.arrays_lt l (Option.mem_toList.1 hl)
  obtain ⟨o₂, E₂, hobjects, hobjects'⟩ := mapM_spec (f := objectPart)
    (P := fun l s _ => ∀ set ∈ l, ∀ t ∈ set, (s.graph.kind t).isObjectLike = true)
    (Q := PartFor ρ fun ws v => ∃ fields, v = .object fields ∧ ws = [v])
    (fun _ E h set hset t ht => E.isObjectLike (h set hset t ht))
    (fun H E h => h.extend H E) (fun H h => objectPart_spec hρ H h) E₁.faithful a.objects.toList
    fun l hl set hset t ht => E₁.isObjectLike (hobj l (Option.mem_toList.1 hl) set hset t ht)
  change Extends ρ g₀ s o arrays.2 o₁ at E₁
  change Extends ρ g₀ arrays.2 o₁ objects.2 o₂ at E₂
  change ∀ p ∈ arrays.1, _ at harrays'
  change ∀ l ∈ a.arrays.toList, ∃ p ∈ arrays.1, _ at harrays
  change ∀ p ∈ objects.1, _ at hobjects'
  change ∀ l ∈ a.objects.toList, ∃ p ∈ objects.1, _ at hobjects
  refine ⟨o₂, E₁.trans E₂, fun p hp => ?_, fun v hv => ?_⟩
  · simp only [List.mem_append, List.mem_map] at hp
    rcases hp with (⟨k, hk, rfl⟩ | hp) | hp
    · obtain ⟨hground, hchildren, hfree⟩ := mem_primitiveParts ha.free hk
      exact ⟨hground, by simp [hchildren], hfree⟩
    · obtain ⟨l, -, h⟩ := harrays' p hp
      exact (h.extend E₁.faithful E₂).fits
    · obtain ⟨l, -, h⟩ := hobjects' p hp
      exact h.fits
  · simp only [List.mem_append, List.mem_map]
    by_cases harray : ∃ vs, v = .array vs
    · obtain ⟨vs, rfl⟩ := harray
      obtain ⟨l, hl, hhold⟩ := hv
      obtain ⟨p, hp, h⟩ := harrays l (Option.mem_toList.2 hl)
      exact ⟨p, .inl (.inr hp), (h.extend E₁.faithful E₂).admits vs _ rfl ⟨l, rfl, hhold⟩⟩
    by_cases hobject : ∃ fields, v = .object fields
    · obtain ⟨fields, rfl⟩ := hobject
      obtain ⟨l, hl, hhold⟩ := hv
      obtain ⟨p, hp, h⟩ := hobjects l (Option.mem_toList.2 hl)
      exact ⟨p, .inr hp, h.admits _ _ ⟨fields, rfl, rfl⟩ ⟨l, rfl, hhold⟩⟩
    · obtain ⟨k, hk, hv⟩ := exists_primitivePart hv (fun vs e => harray ⟨vs, e⟩)
        fun fields e => hobject ⟨fields, e⟩
      exact ⟨.new k, .inl (.inl ⟨k, hk, rfl⟩), hv⟩

end Resolution

end SchemaTypes
