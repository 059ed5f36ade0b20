/-
  Descriptions of what types admit, and what they mean.

  * `Admitted.Admits`: the values that a description admits, where `A` says what nodes admit;
  * `admits_join`, `admits_meet`: joins admit what either side does, and meets what both do, if
    formats are kept apart from each other and from listed strings (`Reading.Separate`);
  * `Admitted.Proper`: what the descriptions of the nodes of a graph refer to.
-/
import SchemaTypes.Graph.Admitted
import SchemaTypes.Proofs.Unification

namespace SchemaTypes

variable {ρ : Reading} {A B : NodeId → Json → Prop}

/-- No string has two formats. -/
def Reading.Separate (ρ : Reading) : Prop :=
  ∀ f f' s, ρ.formats f s → ρ.formats f' s → f = f'

/-- The strings that a kind lists. -/
def Kind.listed : Kind → SortedSet String
  | string (some cases) | enumeration cases => cases
  | _ => ∅

theorem Kind.listed_of_isObjectLike {k : Kind} (h : k.isObjectLike = true) : k.listed = ∅ := by
  cases k <;> first | rfl | cases h

/-- None of the strings has a format. -/
def Reading.Free (ρ : Reading) (cases : SortedSet String) : Prop :=
  ∀ s ∈ cases, ∀ f, ¬ρ.formats f s

/-- The strings that are admitted as such. -/
def Texts.Admit : Texts → String → Prop
  | nothing, _ => False
  | all, _ => True
  | only cases, s => s ∈ cases

/-- Each of the values is admitted by some node of every set. -/
def Alternatives.Hold (A : NodeId → Json → Prop) (x : Option Alternatives) (ws : List Json) :
    Prop :=
  ∃ l ∈ x, ∀ set ∈ l, ∀ w ∈ ws, ∃ t ∈ set, A t w

/-- The values that a description admits, where `A` says what nodes admit. -/
def Admitted.Admits (ρ : Reading) (A : NodeId → Json → Prop) (a : Admitted) : Json → Prop
  | .null => a.null = true
  | .bool _ => a.bool = true
  | .number n => a.double = true ∨ a.integer = true ∧ n.isWhole = true
  | .string s => a.texts.Admit s ∨ ∃ f ∈ a.formats, ρ.formats f s
  | .array vs => Alternatives.Hold A a.arrays vs
  | .object fields => Alternatives.Hold A a.objects [.object fields]

/-- What a description refers to: listed strings without formats, places of nodes, and object
    types. -/
structure Admitted.Proper (ρ : Reading) (g : Graph) (a : Admitted) : Prop where
  free : ∀ cases, a.texts = .only cases → ρ.Free cases
  arrays_lt : ∀ l ∈ a.arrays, ∀ set ∈ l, ∀ t ∈ set, t < g.size
  objects_objectLike : ∀ l ∈ a.objects, ∀ set ∈ l, ∀ t ∈ set, (g.kind t).isObjectLike = true

/-! ## Alternatives -/

namespace Alternatives

variable {a b l : Alternatives} {x y : Option Alternatives} {set : SortedSet NodeId} {t : NodeId}
  {ws : List Json}

theorem mem_foldl_insert :
    set ∈ b.foldl (fun l s => if s ∈ l then l else l ++ [s]) a ↔ set ∈ a ∨ set ∈ b := by
  induction b generalizing a with
  | nil => simp
  | cons s b ih =>
    rw [List.foldl_cons, ih, List.mem_cons, ← or_assoc]
    refine or_congr ?_ Iff.rfl
    split
    · next hs => exact ⟨.inl, fun h => h.elim id fun e => e ▸ hs⟩
    · simp

theorem hold_meet (hx : Hold A x ws) (hy : Hold A y ws) : Hold A (meet x y) ws := by
  obtain ⟨a, rfl, ha⟩ := hx
  obtain ⟨b, rfl, hb⟩ := hy
  refine ⟨_, rfl, fun set hset => ?_⟩
  exact (mem_foldl_insert.1 hset).elim (ha set) (hb set)

theorem mem_of_mem_meet (h : l ∈ meet x y) (hset : set ∈ l) :
    (∃ a ∈ x, set ∈ a) ∨ ∃ b ∈ y, set ∈ b := by
  cases x with
  | none => cases h
  | some a =>
    cases y with
    | none => cases h
    | some b =>
      cases h
      exact (mem_foldl_insert.1 hset).imp (fun h => ⟨a, rfl, h⟩) fun h => ⟨b, rfl, h⟩

theorem join_some_some (a b : Alternatives) :
    join (some a) (some b) = if a.isEmpty || b.isEmpty then some []
      else some [.ofList ((a ++ b).flatMap (·.toList))] := rfl

/-- A join has all the nodes of a side in each alternative. -/
theorem hold_join (h : Hold A x ws ∨ Hold A y ws) : Hold A (join x y) ws := by
  cases x with
  | none => exact h.resolve_left fun ⟨_, h, _⟩ => nomatch h
  | some a =>
    cases y with
    | none => exact h.resolve_right fun ⟨_, h, _⟩ => nomatch h
    | some b =>
      rw [join_some_some]
      split
      · exact ⟨[], rfl, fun _ h => absurd h List.not_mem_nil⟩
      next hne =>
      refine ⟨_, rfl, fun set hset w hw => ?_⟩
      -- some alternative of the side that holds is part of the only one
      obtain ⟨part, hpart, t, ht, hA⟩ : ∃ part ∈ a ++ b, ∃ t ∈ part, A t w := by
        simp only [Bool.or_eq_true, List.isEmpty_iff, not_or] at hne
        obtain ⟨first, rest, rfl⟩ := List.exists_cons_of_ne_nil hne.1
        obtain ⟨first', rest', rfl⟩ := List.exists_cons_of_ne_nil hne.2
        rcases h with ⟨_, hl, h⟩ | ⟨_, hl, h⟩ <;> cases hl
        · exact ⟨first, by simp, h first (by simp) w hw⟩
        · exact ⟨first', by simp, h first' (by simp) w hw⟩
      refine ⟨t, ?_, hA⟩
      rw [List.mem_singleton.1 hset, SortedSet.mem_ofList, List.mem_flatMap]
      exact ⟨part, hpart, SortedSet.mem_toList.2 ht⟩

/-- The nodes of a join are those of its sides. -/
theorem mem_of_mem_join (h : l ∈ join x y) (hset : set ∈ l) (ht : t ∈ set) :
    (∃ a ∈ x, ∃ part ∈ a, t ∈ part) ∨ ∃ b ∈ y, ∃ part ∈ b, t ∈ part := by
  cases x with
  | none => exact .inr ⟨l, h, set, hset, ht⟩
  | some a =>
    cases y with
    | none => exact .inl ⟨l, h, set, hset, ht⟩
    | some b =>
      rw [join_some_some] at h
      split at h
      · cases h
        cases hset
      · cases h
        rw [List.mem_singleton.1 hset, SortedSet.mem_ofList, List.mem_flatMap] at ht
        obtain ⟨part, hpart, ht⟩ := ht
        have ht := SortedSet.mem_toList.1 ht
        exact (List.mem_append.1 hpart).imp (fun h => ⟨a, rfl, part, h, ht⟩)
          fun h => ⟨b, rfl, part, h, ht⟩

theorem Hold.mono {n : Nat} (hlt : ∀ l ∈ x, ∀ set ∈ l, ∀ t ∈ set, t < n)
    (h : Hold A x ws) (hAB : ∀ t < n, ∀ w, A t w → B t w) : Hold B x ws := by
  obtain ⟨l, hl, h⟩ := h
  refine ⟨l, hl, fun set hset w hw => ?_⟩
  obtain ⟨t, ht, hA⟩ := h set hset w hw
  exact ⟨t, ht, hAB t (hlt l hl set hset t ht) w hA⟩

section

variable {P : NodeId → Prop}

theorem forall_singleton {r : NodeId} (h : P r) :
    ∀ l ∈ some [SortedSet.singleton r], ∀ set ∈ l, ∀ t ∈ set, P t := by
  intro l hl set hset t ht
  cases hl
  rw [List.mem_singleton.1 hset] at ht
  rwa [SortedSet.mem_singleton.1 ht]

theorem forall_join (hx : ∀ l ∈ x, ∀ set ∈ l, ∀ t ∈ set, P t)
    (hy : ∀ l ∈ y, ∀ set ∈ l, ∀ t ∈ set, P t) :
    ∀ l ∈ join x y, ∀ set ∈ l, ∀ t ∈ set, P t := by
  intro l hl set hset t ht
  rcases mem_of_mem_join hl hset ht with ⟨l, hl, set, hset, ht⟩ | ⟨l, hl, set, hset, ht⟩
  · exact hx l hl set hset t ht
  · exact hy l hl set hset t ht

theorem forall_meet (hx : ∀ l ∈ x, ∀ set ∈ l, ∀ t ∈ set, P t)
    (hy : ∀ l ∈ y, ∀ set ∈ l, ∀ t ∈ set, P t) :
    ∀ l ∈ meet x y, ∀ set ∈ l, ∀ t ∈ set, P t := by
  intro l hl set hset
  rcases mem_of_mem_meet hl hset with ⟨l, hl, hset⟩ | ⟨l, hl, hset⟩
  · exact hx l hl set hset
  · exact hy l hl set hset

end

end Alternatives

/-! ## Joins and meets -/

/-- All strings are left only where both sides have all. -/
theorem Texts.meet_eq_all_iff {s t : Texts} : s.meet t = .all ↔ s = .all ∧ t = .all := by
  cases s <;> cases t <;> simp [meet]

/-- What a join lists is listed on one side. -/
theorem Texts.mem_of_join_eq_only {s t : Texts} {l : SortedSet String} (h : s.join t = .only l)
    {x : String} (hx : x ∈ l) : (∃ m, s = .only m ∧ x ∈ m) ∨ ∃ m, t = .only m ∧ x ∈ m := by
  cases s <;> cases t <;> cases h <;> simpa using hx

/-- So is what a meet lists. -/
theorem Texts.mem_of_meet_eq_only {s t : Texts} {l : SortedSet String} (h : s.meet t = .only l)
    {x : String} (hx : x ∈ l) : (∃ m, s = .only m ∧ x ∈ m) ∨ ∃ m, t = .only m ∧ x ∈ m := by
  cases s <;> cases t <;> cases h <;> simp_all

namespace Admitted

variable {a b : Admitted} {g : Graph} {v : Json}

theorem texts_meet (a b : Admitted) : (a.meet b).texts = a.texts.meet b.texts := rfl

/-- A format is left where both sides have it, or one has it and the other has all strings. -/
theorem mem_formats_meet_iff {f : Format} : f ∈ (a.meet b).formats ↔
    f ∈ a.formats ∧ f ∈ b.formats ∨ a.texts = .all ∧ f ∈ b.formats ∨
      b.texts = .all ∧ f ∈ a.formats := by
  simp only [meet, SortedSet.mem_union, SortedSet.mem_inter, or_assoc]
  have hite : ∀ (p : Prop) [Decidable p] (s : SortedSet Format),
      f ∈ (if p then s else ∅) ↔ p ∧ f ∈ s := fun p _ s => by by_cases hp : p <;> simp [hp]
  rw [hite, hite]

theorem admits_join (h : a.Admits ρ A v ∨ b.Admits ρ A v) : (a.join b).Admits ρ A v := by
  cases v with
  | null => simpa [Admits, join] using h
  | bool _ => simpa [Admits, join] using h
  | number n =>
    simp only [Admits, join, Bool.or_eq_true] at h ⊢
    grind
  | string s =>
    simp only [Admits, join, SortedSet.mem_union] at h ⊢
    have htexts : a.texts.Admit s ∨ b.texts.Admit s → (a.texts.join b.texts).Admit s := by
      cases a.texts <;> cases b.texts <;> simp [Texts.Admit, Texts.join]
    rcases h with (h | ⟨f, hf, hs⟩) | (h | ⟨f, hf, hs⟩)
    · exact .inl (htexts (.inl h))
    · exact .inr ⟨f, .inl hf, hs⟩
    · exact .inl (htexts (.inr h))
    · exact .inr ⟨f, .inr hf, hs⟩
  | array vs => exact Alternatives.hold_join h
  | object fields => exact Alternatives.hold_join h

/-- Strings that both sides admit are strings of both or of one format of both. -/
theorem admits_meet (hρ : ρ.Separate) (hpa : a.Proper ρ g) (hpb : b.Proper ρ g)
    (ha : a.Admits ρ A v) (hb : b.Admits ρ A v) : (a.meet b).Admits ρ A v := by
  cases v with
  | null => exact Bool.and_eq_true_iff.2 ⟨ha, hb⟩
  | bool _ => exact Bool.and_eq_true_iff.2 ⟨ha, hb⟩
  | number n =>
    simp only [Admits, meet, Bool.or_eq_true, Bool.and_eq_true] at ha hb ⊢
    grind
  | string s =>
    have hall : ∀ {c : Admitted} {f}, c.Proper ρ g → c.texts.Admit s → ρ.formats f s →
        c.texts = .all := by
      intro c f hc ht hf
      cases htexts : c.texts with
      | nothing =>
        rw [htexts] at ht
        exact ht.elim
      | all => rfl
      | only cases =>
        rw [htexts] at ht
        exact absurd hf (hc.free cases htexts s ht f)
    simp only [Admits, meet, SortedSet.mem_union, SortedSet.mem_inter] at ha hb ⊢
    rcases ha with ha | ⟨f, hf, hs⟩ <;> rcases hb with hb | ⟨f', hf', hs'⟩
    · refine .inl ?_
      revert ha hb
      cases a.texts <;> cases b.texts <;> simp_all [Texts.Admit, Texts.meet]
    · exact .inr ⟨f', by simp [hall hpa ha hs', hf'], hs'⟩
    · exact .inr ⟨f, by simp [hall hpb hb hs, hf], hs⟩
    · obtain rfl := hρ f f' s hs hs'
      exact .inr ⟨f, .inl (.inl ⟨hf, hf'⟩), hs⟩
  | array vs => exact Alternatives.hold_meet ha hb
  | object fields => exact Alternatives.hold_meet ha hb

/-! ## What descriptions refer to -/

/-- A description speaks of nodes that are there. -/
theorem Proper.admits_mono (ha : a.Proper ρ g) (hAB : ∀ t < g.size, ∀ w, A t w → B t w)
    (hv : a.Admits ρ A v) : a.Admits ρ B v := by
  cases v with
  | array vs => exact hv.mono ha.arrays_lt hAB
  | object fields =>
    exact hv.mono (fun l hl set hset t ht =>
      Graph.lt_size_of_isObjectLike (ha.objects_objectLike l hl set hset t ht)) hAB
  | _ => exact hv

theorem proper_nothing : nothing.Proper ρ g where
  free cases h := by cases h
  arrays_lt l h := by cases h
  objects_objectLike l h := by cases h

theorem Proper.join (ha : a.Proper ρ g) (hb : b.Proper ρ g) : (a.join b).Proper ρ g where
  free cases h s hs := by
    rcases Texts.mem_of_join_eq_only h hs with ⟨l, hl, hs⟩ | ⟨l, hl, hs⟩
    · exact ha.free l hl s hs
    · exact hb.free l hl s hs
  arrays_lt := Alternatives.forall_join ha.arrays_lt hb.arrays_lt
  objects_objectLike := Alternatives.forall_join ha.objects_objectLike hb.objects_objectLike

theorem Proper.meet (ha : a.Proper ρ g) (hb : b.Proper ρ g) : (a.meet b).Proper ρ g where
  free cases h s hs := by
    rcases Texts.mem_of_meet_eq_only h hs with ⟨l, hl, hs⟩ | ⟨l, hl, hs⟩
    · exact ha.free l hl s hs
    · exact hb.free l hl s hs
  arrays_lt := Alternatives.forall_meet ha.arrays_lt hb.arrays_lt
  objects_objectLike := Alternatives.forall_meet ha.objects_objectLike hb.objects_objectLike

/-! ## Descriptions of kinds -/

theorem hold_singleton {r : NodeId} {w : Json} (h : A r w) :
    Alternatives.Hold A (some [.singleton r]) [w] := by
  refine ⟨_, rfl, fun set hset w' hw => ⟨r, ?_, ?_⟩⟩
  · rw [List.mem_singleton.1 hset]
    exact SortedSet.mem_singleton.2 rfl
  · rwa [List.mem_singleton.1 hw]

/-- A ground kind that admits a value is described so that the value is admitted. -/
theorem admits_ofKind {k : Kind} {r : NodeId} (hk : k.isGround = true) (hv : k.Admits ρ A v)
    (hr : A r v) (forced : Bool) : ∀ a ∈ ofKind forced r k, a.Admits ρ A v := by
  intro a ha
  cases k with
  | nothing => cases hv
  | any => cases ha
  | null => cases ha; cases hv; rfl
  | bool =>
    cases ha
    obtain ⟨_, rfl⟩ := hv
    rfl
  | integer =>
    cases ha
    obtain ⟨n, rfl, hn⟩ := hv
    exact .inr ⟨rfl, hn⟩
  | double =>
    cases ha
    obtain ⟨n, rfl⟩ := hv
    exact .inl rfl
  | string cases =>
    obtain ⟨s, rfl, hs⟩ := hv
    cases cases with
    | none => cases ha; exact .inl trivial
    | some cases => cases ha; exact .inl (hs cases rfl)
  | formatted f =>
    cases ha
    obtain ⟨s, rfl, hs⟩ := hv
    exact .inr ⟨f, SortedSet.mem_singleton.2 rfl, hs⟩
  | enumeration cases =>
    cases ha
    obtain ⟨s, rfl, hs⟩ := hv
    exact .inl hs
  | array items =>
    cases ha
    obtain ⟨vs, rfl, hvs⟩ := hv
    refine ⟨_, rfl, fun set hset w hw => ⟨items, ?_, hvs w hw⟩⟩
    rw [List.mem_singleton.1 hset]
    exact SortedSet.mem_singleton.2 rfl
  | object ps additional =>
    cases ha
    obtain ⟨fields, rfl, -⟩ := hv
    exact hold_singleton hr
  | record ps =>
    cases ha
    obtain ⟨fields, rfl, -⟩ := hv
    exact hold_singleton hr
  | map values =>
    cases ha
    obtain ⟨fields, rfl, -⟩ := hv
    exact hold_singleton hr
  | union _ => cases hk
  | intersection _ => cases hk

theorem proper_ofKind {r : NodeId} (hg : g.WellFormed) (hfree : ρ.Free (g.kind r).listed)
    (forced : Bool) : ∀ a ∈ ofKind forced r (g.kind r), a.Proper ρ g := by
  have hnothing := proper_nothing (ρ := ρ) (g := g)
  have hlisted : ∀ {cases}, ρ.Free cases → Proper ρ g { nothing with texts := .only cases } :=
    fun h => ⟨fun _ e => by cases e; exact h, hnothing.arrays_lt, hnothing.objects_objectLike⟩
  have hobject : (g.kind r).isObjectLike = true →
      Proper ρ g { nothing with objects := some [.singleton r] } := fun h =>
    ⟨hnothing.free, hnothing.arrays_lt, Alternatives.forall_singleton h⟩
  intro a ha
  cases hk : g.kind r with
  | any => rw [hk] at ha; cases ha
  | nothing => rw [hk] at ha; cases ha; exact hnothing
  | union _ => rw [hk] at ha; cases ha; exact hnothing
  | intersection _ =>
    rw [hk] at ha
    cases forced <;> cases ha
    exact hnothing
  | string cases =>
    rw [hk] at ha hfree
    cases cases with
    | none =>
      cases ha
      exact ⟨fun _ h => (nomatch h), hnothing.arrays_lt, hnothing.objects_objectLike⟩
    | some cases => cases ha; exact hlisted hfree
  | enumeration cases => rw [hk] at ha hfree; cases ha; exact hlisted hfree
  | array items =>
    have hitems : items < g.size :=
      hg.lt_of_mem_children (r := r) (by rw [hk]; exact List.mem_singleton_self items)
    rw [hk] at ha
    cases ha
    exact ⟨hnothing.free, Alternatives.forall_singleton hitems, hnothing.objects_objectLike⟩
  | object ps additional => rw [hk] at ha hobject; cases ha; exact hobject rfl
  | record ps => rw [hk] at ha hobject; cases ha; exact hobject rfl
  | map values => rw [hk] at ha hobject; cases ha; exact hobject rfl
  | _ =>
    rw [hk] at ha
    cases ha
    exact ⟨hnothing.free, hnothing.arrays_lt, hnothing.objects_objectLike⟩

/-! ## Several descriptions -/

theorem admits_joinAll {l : List (Option Admitted)} {x : Option Admitted} (hx : x ∈ l)
    (hv : ∀ a ∈ x, a.Admits ρ A v) : ∀ b ∈ joinAll l, b.Admits ρ A v := by
  induction l with
  | nil => cases hx
  | cons y l ih =>
    intro b hb
    cases y with
    | none => cases hb
    | some a =>
      simp only [joinAll] at hb
      cases hrest : joinAll l with
      | none => rw [hrest] at hb; cases hb
      | some c =>
        rw [hrest] at hb
        cases hb
        rcases List.mem_cons.1 hx with rfl | hx
        · exact admits_join (.inl (hv a rfl))
        · exact admits_join (.inr (ih hx c hrest))

/-- What holds of no values, and of a join of two descriptions, holds of a join of many. -/
theorem joinAll_induction {P : Admitted → Prop} (hnothing : P nothing)
    (hjoin : ∀ a b, P a → P b → P (a.join b)) {l : List (Option Admitted)}
    (h : ∀ x ∈ l, ∀ a ∈ x, P a) : ∀ b ∈ joinAll l, P b := by
  induction l with
  | nil =>
    intro b hb
    cases hb
    exact hnothing
  | cons y l ih =>
    intro b hb
    obtain ⟨a, rfl, hb⟩ := Option.bind_eq_some_iff.1 hb
    obtain ⟨c, hc, hb⟩ := Option.bind_eq_some_iff.1 hb
    cases hb
    exact hjoin a c (h _ List.mem_cons_self a rfl)
      (ih (fun x hx => h x (List.mem_cons_of_mem _ hx)) c hc)

theorem proper_joinAll {l : List (Option Admitted)} (h : ∀ x ∈ l, ∀ a ∈ x, a.Proper ρ g) :
    ∀ b ∈ joinAll l, b.Proper ρ g :=
  joinAll_induction proper_nothing (fun _ _ => .join) h

/-- A meet of many starts from the first description that there is. -/
theorem exists_of_meetAll {l : List (Option Admitted)} {d : Admitted} (h : meetAll l = some d) :
    ∃ a rest, l.filterMap id = a :: rest ∧ rest.foldl meet a = d := by
  unfold meetAll at h
  split at h
  · cases h
  · next a rest heq => exact ⟨a, rest, heq, Option.some.inj h⟩

/-- Everything is left only where every side admits everything. -/
theorem eq_none_of_meetAll {l : List (Option Admitted)} (h : meetAll l = none) :
    ∀ x ∈ l, x = none := by
  unfold meetAll at h
  split at h
  · next heq => exact List.filterMap_eq_nil_iff.1 heq
  · cases h

/-- What holds of a meet of two descriptions holds of a meet of many. -/
theorem meetAll_induction {P : Admitted → Prop} (hmeet : ∀ a b, P a → P b → P (a.meet b))
    {l : List (Option Admitted)} (h : ∀ x ∈ l, ∀ a ∈ x, P a) : ∀ b ∈ meetAll l, P b := by
  intro b hb
  obtain ⟨a, rest, heq, rfl⟩ := exists_of_meetAll hb
  have hmem : ∀ c ∈ a :: rest, P c := fun c hc => by
    obtain ⟨x, hx, rfl⟩ := List.mem_filterMap.1 (heq ▸ hc)
    exact h _ hx c rfl
  exact List.foldlRecOn (motive := P) _ _ (hmem a List.mem_cons_self)
    fun c hc d hd => hmeet c d hc (hmem d (List.mem_cons_of_mem _ hd))

/-- What a meet satisfies exactly if both sides do, a meet of many satisfies exactly if all do. -/
theorem meetAll_iff {P : Admitted → Prop} (hmeet : ∀ a b, P (a.meet b) ↔ P a ∧ P b)
    {l : List (Option Admitted)} {d : Admitted} (hd : meetAll l = some d) :
    P d ↔ ∀ a, some a ∈ l → P a := by
  have hfold : ∀ (rest : List Admitted) a, P (rest.foldl meet a) ↔ P a ∧ ∀ b ∈ rest, P b := by
    intro rest
    induction rest with
    | nil => simp
    | cons b rest ih => simp [ih, hmeet, and_assoc]
  have hmem : ∀ a, some a ∈ l ↔ a ∈ l.filterMap id := by simp
  obtain ⟨a, rest, heq, rfl⟩ := exists_of_meetAll hd
  simp only [hmem, heq, hfold, List.forall_mem_cons]

/-- A meet of proper descriptions is proper and admits what all of them do. -/
theorem foldl_meet (hρ : ρ.Separate) {l : List Admitted} (hl : ∀ b ∈ l, b.Proper ρ g)
    (ha : a.Proper ρ g) : (l.foldl meet a).Proper ρ g ∧ (a.Admits ρ A v →
      (∀ b ∈ l, b.Admits ρ A v) → (l.foldl meet a).Admits ρ A v) := by
  induction l generalizing a with
  | nil => exact ⟨ha, fun h _ => h⟩
  | cons b l ih =>
    have hb := hl b List.mem_cons_self
    obtain ⟨hp, hadm⟩ := ih (fun c hc => hl c (List.mem_cons_of_mem _ hc)) (ha.meet hb)
    refine ⟨hp, fun hav hv => hadm (admits_meet hρ ha hb hav (hv b List.mem_cons_self)) ?_⟩
    exact fun c hc => hv c (List.mem_cons_of_mem _ hc)

theorem meetAll_spec (hρ : ρ.Separate) {l : List (Option Admitted)}
    (hl : ∀ x ∈ l, ∀ a ∈ x, a.Proper ρ g) {b : Admitted} (hb : meetAll l = some b) :
    b.Proper ρ g ∧ ((∀ x ∈ l, ∀ a ∈ x, a.Admits ρ A v) → b.Admits ρ A v) := by
  obtain ⟨a, rest, heq, rfl⟩ := exists_of_meetAll hb
  have hmem : ∀ c ∈ a :: rest, some c ∈ l := fun c hc => by
    obtain ⟨x, hx, rfl⟩ := List.mem_filterMap.1 (heq ▸ hc)
    exact hx
  have hrest : ∀ c ∈ rest, some c ∈ l := fun c hc => hmem c (List.mem_cons_of_mem a hc)
  have ha := hmem a List.mem_cons_self
  obtain ⟨hp, hadm⟩ := foldl_meet (A := A) (v := v) hρ (fun c hc => hl _ (hrest c hc) c rfl)
    (hl _ ha a rfl)
  exact ⟨hp, fun h => hadm (h _ ha a rfl) fun c hc => h _ (hrest c hc) c rfl⟩

end Admitted

end SchemaTypes
