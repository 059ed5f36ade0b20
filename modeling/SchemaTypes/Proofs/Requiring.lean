/-
  Optional properties become nullable, and nothing else changes.

  * `Kind.require`: a kind with every named property required, of another type where it was
    optional;
  * `Nullables.Gives`: what stands for a type so far, the type itself or the one that was made;
    there is only one such type (`Gives.unique`);
  * `Nullables.Requiring`: what holds while some nodes wait for their turn; kept when a nullable
    type is asked for (`Requiring.nullable`), by all properties of a node (`Requiring.requireAll`)
    and by a turn (`Requiring.step`);
  * `optionalToNullable_replaces`: one function gives the new type of every optional property.
-/
import SchemaTypes.Proofs.Nullable

namespace SchemaTypes

/-- A required property, of another type where it was optional. -/
def Property.require (f : NodeId → NodeId) (p : Property) : Property :=
  if p.optional then ⟨f p.type, false⟩ else p

theorem Property.optional_require (f : NodeId → NodeId) (p : Property) :
    (p.require f).optional = false := by
  unfold require
  split
  · rfl
  · next h => exact Bool.eq_false_iff.2 h

namespace Kind

/-- The kind with the same named properties, all of them required. -/
def require (f : NodeId → NodeId) : Kind → Kind
  | object ps additional => object (ps.mapValues (Property.require f)) additional
  | record ps => record (ps.mapValues (Property.require f))
  | k => k

/-- The kind has an optional property of a type. -/
def HasOptional (k : Kind) (t : NodeId) : Prop :=
  ∃ name p, k.properties.get? name = some p ∧ p.optional = true ∧ p.type = t

theorem properties_require (f : NodeId → NodeId) (k : Kind) :
    (k.require f).properties = k.properties.mapValues (Property.require f) := by
  cases k <;> rfl

theorem requiresAll_require (f : NodeId → NodeId) (k : Kind) : (k.require f).RequiresAll := by
  intro name p hp
  rw [properties_require, OrderedMap.get?_mapValues] at hp
  obtain ⟨q, -, rfl⟩ := Option.map_eq_some_iff.1 hp
  exact q.optional_require f

/-- Only kinds of objects change. -/
theorem require_eq_or (f : NodeId → NodeId) (k : Kind) :
    k.require f = k ∨ (k.require f).isObjectLike = true ∧ k.isObjectLike = true := by
  cases k with
  | object ps a => exact .inr ⟨rfl, rfl⟩
  | record ps => exact .inr ⟨rfl, rfl⟩
  | _ => exact .inl rfl

theorem mem_children_of_mem_types {k : Kind} {c : NodeId} (h : c ∈ k.properties.types) :
    c ∈ k.children := by
  cases k with
  | object ps a => exact List.mem_append_left _ h
  | record ps => exact h
  | _ => cases h

end Kind

namespace Graph

open Kind

variable {g : Graph} {t : NodeId}

/-- Null, anything, or a union with null among its members. -/
def IncludesNull (g : Graph) (t : NodeId) : Prop :=
  g.kind t = .null ∨ g.kind t = .any ∨ ∃ ms, g.kind t = .union ms ∧ ∃ m ∈ ms, g.kind m = .null

theorem isNullable_iff : g.isNullable t = true ↔ g.IncludesNull t := by
  unfold isNullable IncludesNull
  generalize g.kind t = k
  cases k <;> simp

/-- The members of a union, and any other type alone. -/
def alternatives (g : Graph) (t : NodeId) : SortedSet NodeId :=
  match g.kind t with
  | .union ms => ms
  | _ => .singleton t

namespace Nullables

variable {s s' : Nullables} {r n : NodeId} {waiting : List NodeId}

/-! ## What stands for a type -/

/-- What stands for a type where null is to be admitted: the type itself, or the one that was
    made. -/
def Gives (g : Graph) (s : Nullables) (t n : NodeId) : Prop :=
  if g.isNullable t then n = t else s.made.get? t = some n

theorem Gives.unique {m : NodeId} (h : s.Gives g t n) (h' : s.Gives g t m) : n = m := by
  unfold Gives at h h'
  split at h
  · next ht =>
    rw [if_pos ht] at h'
    exact h.trans h'.symm
  · next ht =>
    rw [if_neg ht] at h'
    exact Option.some.inj (h.symm.trans h')

/-- Types that were made remain. -/
def Remembers (s s' : Nullables) : Prop :=
  ∀ t n, s.made.get? t = some n → s'.made.get? t = some n

theorem Gives.mono (h : s.Gives g t n) (hs : s.Remembers s') : s'.Gives g t n := by
  unfold Gives at h ⊢
  split at h
  · next ht => rwa [if_pos ht]
  · next ht => rw [if_neg ht, hs t n h]

/-- The function says what stands for each type so far. -/
def Follows (g : Graph) (f : NodeId → NodeId) (s : Nullables) : Prop :=
  ∀ t n, s.Gives g t n → f t = n

theorem Follows.mono {f : NodeId → NodeId} (h : s'.Follows g f) (hs : s.Remembers s') :
    s.Follows g f := fun t n ht => h t n (ht.mono hs)

theorem exists_follows (g : Graph) (s : Nullables) : ∃ f, s.Follows g f := by
  refine ⟨fun t => if g.isNullable t then t else (s.made.get? t).getD t, fun t n ht => ?_⟩
  unfold Gives at ht
  dsimp only
  split at ht
  · next h => rw [if_pos h, ht]
  · next h => rw [if_neg h, ht, Option.getD_some]

/-! ## Between two turns -/

/-- What is known while some nodes wait for their turn. -/
structure Requiring (g : Graph) (waiting : List NodeId) (s : Nullables) : Prop where
  size_le : g.size ≤ s.graph.size
  topLevels_eq : s.graph.topLevels = g.topLevels
  null : ∀ n, s.null = some n → g.size ≤ n ∧ s.graph.node n = .new .null
  made : ∀ t n, s.made.get? t = some n → g.size ≤ n ∧ ∃ null, s.null = some null ∧
    s.graph.node n = .new (.union ((g.alternatives t).insert null))
  fresh : ∀ r, g.size ≤ r → (s.graph.kind r).properties = ∅
  untouched : ∀ r ∈ waiting, r < g.size ∧ s.graph.node r = g.node r
  done : ∀ r < g.size, r ∉ waiting →
    (∀ t, (g.kind r).HasOptional t → ∃ n, s.Gives g t n) ∧
      ∀ f, s.Follows g f → s.graph.node r = { g.node r with kind := (g.kind r).require f }

namespace Requiring

theorem start (g : Graph) : Requiring g g.ids ⟨g, none, ∅⟩ where
  size_le := Nat.le_refl _
  topLevels_eq := rfl
  null _ h := by cases h
  made _ _ h := by cases h
  fresh r hr := by
    rw [kind_eq_nothing_of_le hr]
    rfl
  untouched _ hr := ⟨List.mem_range.1 hr, rfl⟩
  done _ hr hnot := absurd (List.mem_range.2 hr) hnot

variable (h : s.Requiring g waiting)

include h

theorem kind_eq_or (ht : t < g.size) :
    s.graph.kind t = g.kind t ∨
      (s.graph.kind t).isObjectLike = true ∧ (g.kind t).isObjectLike = true := by
  by_cases hw : t ∈ waiting
  · exact .inl (congrArg Node.kind (h.untouched t hw).2)
  · obtain ⟨f, hf⟩ := exists_follows g s
    have hk : s.graph.kind t = (g.kind t).require f :=
      congrArg Node.kind ((h.done t ht hw).2 f hf)
    rw [hk]
    exact require_eq_or f (g.kind t)

theorem kind_eq_iff (ht : t < g.size) {k : Kind} (hk : k.isObjectLike = false) :
    s.graph.kind t = k ↔ g.kind t = k := by
  rcases h.kind_eq_or ht with heq | ⟨hs, hg⟩
  · rw [heq]
  · have hne : ∀ {l : Kind}, l.isObjectLike = true → l ≠ k := by
      rintro l hl rfl
      rw [hl] at hk
      cases hk
    exact iff_of_false (hne hs) (hne hg)

theorem isNullable_eq (hg : g.WellFormed) (ht : t < g.size) :
    s.graph.isNullable t = g.isNullable t := by
  rw [Bool.eq_iff_iff, isNullable_iff, isNullable_iff]
  refine or_congr (h.kind_eq_iff ht rfl) (or_congr (h.kind_eq_iff ht rfl) ?_)
  refine exists_congr fun ms => ?_
  rw [h.kind_eq_iff ht rfl]
  refine and_congr_right fun hms => exists_congr fun m => and_congr_right fun hm => ?_
  exact h.kind_eq_iff (hg.lt_of_mem_children (r := t) (by rw [hms]; exact hm)) rfl

theorem alternatives_eq (ht : t < g.size) : s.graph.alternatives t = g.alternatives t := by
  unfold alternatives
  rcases h.kind_eq_or ht with heq | ⟨hs, hg⟩
  · rw [heq]
  · generalize s.graph.kind t = k at hs
    generalize g.kind t = l at hg
    cases k <;> cases hs <;> cases l <;> cases hg <;> rfl

/-! ## Nullable types -/

/-- New nodes may come that have no properties. -/
theorem push {n : Node} (hn : n.kind.properties = ∅) :
    Requiring g waiting { s with graph := s.graph.push n } := by
  have hnode : ∀ r < s.graph.size, (s.graph.push n).node r = s.graph.node r := fun r hr => by
    rw [node_push, if_neg (Nat.ne_of_lt hr)]
  have hnew : ∀ r k, s.graph.node r = .new k → k ≠ .nothing →
      (s.graph.push n).node r = .new k := fun r k hr hk => by
    rw [hnode r (lt_size_of_kind_ne (by rw [kind, hr]; exact hk)), hr]
  refine ⟨?_, h.topLevels_eq, fun r hr => ?_, fun t r hr => ?_, fun r hr => ?_, fun r hr => ?_,
    fun r hr hw => ?_⟩
  · exact Nat.le_trans h.size_le (by simp)
  · obtain ⟨hle, hk⟩ := h.null r hr
    exact ⟨hle, hnew r _ hk Kind.noConfusion⟩
  · obtain ⟨hle, null, hnull, hk⟩ := h.made t r hr
    exact ⟨hle, null, hnull, hnew r _ hk Kind.noConfusion⟩
  · dsimp only
    rw [kind_push]
    split
    · exact hn
    · exact h.fresh r hr
  · obtain ⟨hlt, hr⟩ := h.untouched r hr
    exact ⟨hlt, (hnode r (Nat.lt_of_lt_of_le hlt h.size_le)).trans hr⟩
  · obtain ⟨hgives, hf⟩ := h.done r hr hw
    exact ⟨hgives, fun f hff => (hnode r (Nat.lt_of_lt_of_le hr h.size_le)).trans (hf f hff)⟩

/-- There is one node for null. -/
theorem nullNode : Requiring g waiting s.nullNode.2 ∧ s.nullNode.2.null = some s.nullNode.1 ∧
    s.nullNode.2.made = s.made := by
  unfold Nullables.nullNode
  split
  · next hr => exact ⟨h, hr, rfl⟩
  · next hnone =>
    have hp := h.push (n := .new .null) rfl
    refine ⟨⟨hp.size_le, hp.topLevels_eq, fun n hn => ?_, fun t n hn => ?_, hp.fresh, hp.untouched,
      hp.done⟩, rfl, rfl⟩
    · cases hn
      exact ⟨h.size_le, by rw [node_push, if_pos rfl]⟩
    · obtain ⟨-, null, hnull, -⟩ := h.made t n hn
      cases hnone.symm.trans hnull

/-- **A nullable type is the one that stands for a type from then on.** -/
theorem nullable (hg : g.WellFormed) (ht : t < g.size) :
    Requiring g waiting (s.nullable t).2 ∧ s.Remembers (s.nullable t).2 ∧
      (s.nullable t).2.Gives g t (s.nullable t).1 := by
  unfold Nullables.nullable
  rw [h.isNullable_eq hg ht]
  split
  · next hnull => exact ⟨h, fun _ _ => id, by rw [Gives, if_pos hnull]⟩
  next hnot =>
  split
  · next n hn => exact ⟨h, fun _ _ => id, by rw [Gives, if_neg hnot, hn]⟩
  next hnone =>
  obtain ⟨h₁, hnull, hmade⟩ := h.nullNode
  generalize s.nullNode = p at h₁ hnull hmade ⊢
  obtain ⟨null, s₁⟩ := p
  dsimp -zeta only at h₁ hnull hmade ⊢
  extract_lets members n
  have hmembers : members = g.alternatives t := h₁.alternatives_eq ht
  have h₂ := h₁.push (n := .new (.union (members.insert null))) rfl
  have hremembers : ∀ x m, s₁.made.get? x = some m → (s₁.made.insert t n).get? x = some m := by
    intro x m hm
    refine (OrderedMap.get?_insert ..).trans ((if_neg ?_).trans hm)
    rintro rfl
    rw [hmade, hnone] at hm
    cases hm
  refine ⟨⟨h₂.size_le, h₂.topLevels_eq, h₂.null, fun x m hm => ?_, h₂.fresh, h₂.untouched,
    fun r hr hw => ?_⟩, fun x m hm => hremembers x m (hmade ▸ hm), ?_⟩
  · replace hm := (OrderedMap.get?_insert ..).symm.trans hm
    split at hm
    · next heq =>
      cases hm
      refine ⟨h₁.size_le, null, hnull, ?_⟩
      rw [node_push, if_pos rfl, hmembers, heq]
    · exact h₂.made x m hm
  · obtain ⟨hex, hf⟩ := h₂.done r hr hw
    refine ⟨fun x hx => ?_, fun f hff => hf f (hff.mono hremembers)⟩
    obtain ⟨m, hm⟩ := hex x hx
    exact ⟨m, hm.mono hremembers⟩
  · rw [Gives, if_neg hnot]
    exact (OrderedMap.get?_insert ..).trans (if_pos rfl)

/-! ## Turns -/

/-- All properties of a node are required, with their names in order. -/
theorem requireAll (hg : g.WellFormed) (rest : List (String × Property)) {done : Properties}
    (hrest : ∀ e ∈ rest, e.2.type < g.size)
    (hnodup : ((done.entries ++ rest).map Prod.fst).Nodup) :
    Requiring g waiting (Nullables.requireAll done rest s).2 ∧
      (∀ e ∈ rest, e.2.optional = true →
        ∃ n, (Nullables.requireAll done rest s).2.Gives g e.2.type n) ∧
      s.Remembers (Nullables.requireAll done rest s).2 ∧
      ∀ f, (Nullables.requireAll done rest s).2.Follows g f →
        (Nullables.requireAll done rest s).1.entries =
          done.entries ++ rest.map fun e => (e.1, e.2.require f) := by
  induction rest generalizing done s with
  | nil =>
    exact ⟨h, fun _ he => absurd he List.not_mem_nil, fun _ _ => id, fun _ _ =>
      (List.append_nil _).symm⟩
  | cons e rest ih =>
    have he := hrest e List.mem_cons_self
    replace hrest : ∀ e ∈ rest, e.2.type < g.size := fun e' h' =>
      hrest e' (List.mem_cons_of_mem e h')
    obtain ⟨name, p⟩ := e
    have hnew : name ∉ done.keys := by
      rw [List.map_append, List.map_cons] at hnodup
      exact fun hmem => (List.nodup_append.1 hnodup).2.2 name hmem name List.mem_cons_self rfl
    have hentries : ∀ q : Property, (done.insert name q).entries = done.entries ++ [(name, q)] :=
      OrderedMap.entries_insert_of_notMem hnew
    have hnodup' : ∀ q : Property, (((done.insert name q).entries ++ rest).map Prod.fst).Nodup :=
      fun q => by simpa [hentries q] using hnodup
    unfold Nullables.requireAll
    split
    · next ho =>
      obtain ⟨h₁, hrem, hgives⟩ := h.nullable hg he
      generalize s.nullable p.type = q at h₁ hrem hgives ⊢
      obtain ⟨t, s₁⟩ := q
      obtain ⟨h₂, hex, hrem₂, hf⟩ := ih h₁ hrest (hnodup' ⟨t, false⟩)
      refine ⟨h₂, fun e' h' ho' => ?_, fun x m hm => hrem₂ x m (hrem x m hm), fun f hff => ?_⟩
      · rcases List.mem_cons.1 h' with rfl | h'
        · exact ⟨t, hgives.mono hrem₂⟩
        · exact hex e' h' ho'
      · have hft : f p.type = t := hff p.type t (hgives.mono hrem₂)
        rw [hf f hff, hentries, List.map_cons, Property.require, if_pos ho, hft]
        simp
    · next ho =>
      obtain ⟨h₂, hex, hrem₂, hf⟩ := ih h hrest (hnodup' p)
      refine ⟨h₂, fun e' h' ho' => ?_, hrem₂, fun f hff => ?_⟩
      · rcases List.mem_cons.1 h' with rfl | h'
        · exact absurd ho' ho
        · exact hex e' h' ho'
      · rw [hf f hff, hentries, List.map_cons, Property.require, if_neg ho]
        simp

end Requiring

/-- A node had its turn: it alone may have changed, to the kind with all properties required. -/
theorem Requiring.settle (h : s.Requiring g (r :: waiting)) (hr : r ∉ waiting) {graph : Graph}
    (hsize : graph.size = s.graph.size) (htop : graph.topLevels = s.graph.topLevels)
    (hne : ∀ x, x ≠ r → graph.node x = s.graph.node x)
    (hgives : ∀ t, (g.kind r).HasOptional t → ∃ n, s.Gives g t n)
    (hnode : ∀ f, s.Follows g f →
      graph.node r = { g.node r with kind := (g.kind r).require f }) :
    Requiring g waiting { s with graph := graph } := by
  have hlt := (h.untouched r List.mem_cons_self).1
  have hnew : ∀ x, g.size ≤ x → graph.node x = s.graph.node x := fun x hx =>
    hne x (Nat.ne_of_gt (Nat.lt_of_lt_of_le hlt hx))
  refine ⟨hsize ▸ h.size_le, htop.trans h.topLevels_eq, fun n hn => ?_, fun t n hn => ?_,
    fun x hx => ?_, fun x hx => ?_, fun x hx hw => ?_⟩
  · obtain ⟨hle, hn⟩ := h.null n hn
    exact ⟨hle, (hnew n hle).trans hn⟩
  · obtain ⟨hle, null, hnull, hn⟩ := h.made t n hn
    exact ⟨hle, null, hnull, (hnew n hle).trans hn⟩
  · rw [kind, hnew x hx]
    exact h.fresh x hx
  · obtain ⟨hlt, hx'⟩ := h.untouched x (List.mem_cons_of_mem r hx)
    exact ⟨hlt, (hne x fun heq => hr (heq ▸ hx)).trans hx'⟩
  · by_cases heq : x = r
    · subst heq
      exact ⟨hgives, hnode⟩
    · obtain ⟨hex, hf⟩ := h.done x hx fun hmem => (List.mem_cons.1 hmem).elim heq hw
      exact ⟨hex, fun f hff => (hne x heq).trans (hf f hff)⟩

/-- The turn of a node with named properties. -/
theorem Requiring.setKind (hg : g.WellFormed) (h : s.Requiring g (r :: waiting))
    (hr : r ∉ waiting) {ps : Properties} (hps : (g.kind r).properties = ps)
    {k : Properties → Kind}
    (hk : ∀ f, (g.kind r).require f = k (ps.mapValues (Property.require f))) :
    Requiring g waiting { (Nullables.requireAll ∅ ps.entries s).2 with
      graph := (Nullables.requireAll ∅ ps.entries s).2.graph.setKind r
        (k (Nullables.requireAll ∅ ps.entries s).1) } := by
  have hlt : ∀ e ∈ ps.entries, e.2.type < g.size := fun e he => by
    refine hg.lt_of_mem_children (r := r) (mem_children_of_mem_types ?_)
    rw [hps]
    exact Properties.mem_types (OrderedMap.get?_eq_some_iff.2 he)
  have hnodup : (((∅ : Properties).entries ++ ps.entries).map Prod.fst).Nodup := ps.nodup
  obtain ⟨h₁, hex, -, hf⟩ := h.requireAll hg ps.entries hlt hnodup
  generalize Nullables.requireAll ∅ ps.entries s = q at h₁ hex hf ⊢
  obtain ⟨qs, s₁⟩ := q
  dsimp only at h₁ hex hf ⊢
  obtain ⟨hrlt, hnode⟩ := h₁.untouched r List.mem_cons_self
  refine h₁.settle hr (size_modify ..) rfl (fun x hx => ?_) (fun t ht => ?_) fun f hff => ?_
  · rw [Graph.setKind, node_modify_eq, if_neg fun hrx => hx hrx.1.symm]
  · obtain ⟨name, p, hp, ho, rfl⟩ := ht
    exact hex (name, p) (OrderedMap.get?_eq_some_iff.1 (hps ▸ hp)) ho
  · have hqs : qs = ps.mapValues (Property.require f) := by
      cases qs
      exact OrderedMap.mk.injEq .. |>.mpr (hf f hff)
    rw [Graph.setKind, node_modify_eq, if_pos ⟨rfl, Nat.lt_of_lt_of_le hrlt h₁.size_le⟩, hnode,
      hk f, hqs]

theorem Requiring.step (hg : g.WellFormed) (h : s.Requiring g (r :: waiting))
    (hr : r ∉ waiting) : Requiring g waiting (s.step r) := by
  have hnode := (h.untouched r List.mem_cons_self).2
  have hkind : s.graph.kind r = g.kind r := congrArg Node.kind hnode
  unfold Nullables.step
  rw [hkind]
  split
  · next ps hps =>
    exact h.setKind hg hr (by rw [hps]; rfl) (k := .record) fun f => by rw [hps]; rfl
  · next ps additional hps =>
    exact h.setKind hg hr (by rw [hps]; rfl) (k := (.object · additional)) fun f => by
      rw [hps]; rfl
  · next hrecord hobject =>
    have hnone : (g.kind r).properties = ∅ ∧ ∀ f, (g.kind r).require f = g.kind r := by
      generalize g.kind r = k at hrecord hobject
      cases k with
      | record ps => exact absurd rfl (hrecord ps)
      | object ps a => exact absurd rfl (hobject ps a)
      | _ => exact ⟨rfl, fun _ => rfl⟩
    refine h.settle hr rfl rfl (fun _ _ => rfl) (fun t ht => ?_) fun f _ => ?_
    · obtain ⟨name, p, hp, -⟩ := ht
      rw [hnone.1] at hp
      cases hp
    · rw [hnode, hnone.2]
      rfl

theorem requiring_foldl (hg : g.WellFormed) (rs : List NodeId) (hrs : rs.Nodup)
    (h : s.Requiring g rs) : Requiring g [] (rs.foldl step s) := by
  induction rs generalizing s with
  | nil => exact h
  | cons r rs ih =>
    obtain ⟨hr, hrs⟩ := List.nodup_cons.1 hrs
    exact ih hrs (h.step hg hr)

end Nullables

/-- **Optional properties become nullable, and nothing else changes.**  One function `f` says what
    comes in place of the type of an optional property: the type itself if it includes null, and
    else a new union of its alternatives and a new node for null. -/
theorem optionalToNullable_replaces (hg : g.WellFormed) :
    ∃ (f : NodeId → NodeId) (null : NodeId),
      g.optionalToNullable.topLevels = g.topLevels ∧
      (∀ r < g.size, g.optionalToNullable.node r =
        { g.node r with kind := (g.kind r).require f }) ∧
      (∀ r t, (g.kind r).HasOptional t →
        g.IncludesNull t ∧ f t = t ∨
          ¬g.IncludesNull t ∧ g.size ≤ f t ∧ g.size ≤ null ∧
            g.optionalToNullable.node null = .new .null ∧
            g.optionalToNullable.node (f t) =
              .new (.union ((g.alternatives t).insert null))) ∧
      g.optionalToNullable.Every RequiresAll := by
  have h := Nullables.requiring_foldl hg g.ids List.nodup_range (.start g)
  change Nullables.Requiring g [] (g.ids.foldl Nullables.step ⟨g, none, ∅⟩) at h
  unfold optionalToNullable
  generalize g.ids.foldl Nullables.step ⟨g, none, ∅⟩ = s at h ⊢
  obtain ⟨f, hf⟩ := Nullables.exists_follows g s
  have hnode : ∀ r < g.size, s.graph.node r = { g.node r with kind := (g.kind r).require f } :=
    fun r hr => (h.done r hr List.not_mem_nil).2 f hf
  refine ⟨f, s.null.getD 0, h.topLevels_eq, hnode, fun r t ht => ?_, fun r _ => ?_⟩
  · have hr : r < g.size := lt_size_of_kind_ne fun hn => by
      rw [hn] at ht
      obtain ⟨_, _, hp, -⟩ := ht
      cases hp
    obtain ⟨n, hn⟩ := (h.done r hr List.not_mem_nil).1 t ht
    obtain rfl := hf t n hn
    unfold Nullables.Gives at hn
    split at hn
    · next hnull => exact .inl ⟨isNullable_iff.1 hnull, hn⟩
    · next hnot =>
      obtain ⟨hle, null, hnull, hmade⟩ := h.made t _ hn
      obtain ⟨hlen, hk⟩ := h.null null hnull
      rw [hnull, Option.getD_some]
      exact .inr ⟨fun hi => hnot (isNullable_iff.2 hi), hle, hlen, hk, hmade⟩
  · by_cases hr : r < g.size
    · rw [kind, hnode r hr]
      exact requiresAll_require f (g.kind r)
    · intro name p hp
      rw [h.fresh r (Nat.not_lt.1 hr)] at hp
      cases hp

/-- Links: perhaps a next link, perhaps a label of any type, and a number. -/
def links : Graph where
  nodes := #[
    .new (.record (.ofList [("next", ⟨0, true⟩), ("label", ⟨1, true⟩), ("n", ⟨2, false⟩)])),
    .new .any, .new .integer]
  topLevels := .ofList [("Link", 0)]

/-- The type of the next link is a new union of the class and null, the other types stay. -/
theorem optionalToNullable_replaces_links :
    links.WellFormed ∧ ∃ (f : NodeId → NodeId) (null : NodeId), f 1 = 1 ∧
      links.optionalToNullable.kind 0 = .record (.ofList
        [("next", ⟨f 0, false⟩), ("label", ⟨f 1, false⟩), ("n", ⟨2, false⟩)]) ∧
      3 ≤ f 0 ∧ links.optionalToNullable.kind (f 0) = .union (.ofList [0, null]) := by
  have hg : links.WellFormed := ⟨by decide, by decide⟩
  obtain ⟨f, null, -, hnode, hgives, -⟩ := optionalToNullable_replaces hg
  have hkind : links.optionalToNullable.kind 0 = (links.kind 0).require f :=
    congrArg Node.kind (hnode 0 (by decide))
  refine ⟨hg, f, null, ?_, ?_, ?_⟩
  · rcases hgives 0 1 ⟨"label", ⟨1, true⟩, by decide, rfl, rfl⟩ with ⟨-, h⟩ | ⟨hnot, -⟩
    · exact h
    · exact absurd (.inr (.inl rfl)) hnot
  · exact hkind
  · have hnot : ¬links.IncludesNull 0 := by
      rw [← isNullable_iff]
      decide
    rcases hgives 0 0 ⟨"next", ⟨0, true⟩, by decide, rfl, rfl⟩ with ⟨hnull, -⟩ | ⟨-, hle, -, -, hn⟩
    · exact absurd hnull hnot
    · refine ⟨hle, (congrArg Node.kind hn).trans (congrArg Kind.union ?_)⟩
      ext m
      simp [links, alternatives, kind, node, Node.new, or_comm]

end Graph

end SchemaTypes
