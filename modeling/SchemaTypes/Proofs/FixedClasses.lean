/-
  Classes that schemas prescribe.

  A class that is made of an object type is fixed, and so is one that is merged from fixed classes
  alone.  So where every class is fixed at first, in particular where there is none, every class
  stays fixed.

  * `Graph.Prescribed`: every class is fixed;
  * `Graph.Furthers`: a graph grows by nodes that are fixed where they are classes, and the nodes
    that were there keep their kinds and flags; merging types is such a step (`furthers_unify`);
  * `prescribed_flattenUnions`, `prescribed_resolveIntersections`, `prescribed_replaceObjects`: the
    passes keep graphs prescribed;
  * `Resolution.furthers_parts`, `Resolution.prescribed_resolve`, `Resolution.prescribed_rounds`:
    so does resolution, one intersection and one round after the other.
-/
import SchemaTypes.Graph.Indirection
import SchemaTypes.Proofs.Flattening
import SchemaTypes.Proofs.KindClasses
import SchemaTypes.Proofs.Rounds

namespace SchemaTypes

/-- If the node is a class, it is fixed. -/
def Node.Prescribed (n : Node) : Prop := ∀ ps, n.kind = .record ps → n.fixed = true

theorem Node.Prescribed.mapChildren {n : Node} (h : n.Prescribed) (f : NodeId → NodeId) :
    Node.Prescribed { n with kind := n.kind.mapChildren f } := by
  obtain ⟨k, a, fixed, name⟩ := n
  intro ps hk
  cases k with
  | record qs => exact h qs rfl
  | _ => cases hk

namespace Graph

variable {g g₁ g₂ : Graph} {r : NodeId} {n : Node} {f : Node → Node}

/-- Every class is fixed. -/
def Prescribed (g : Graph) : Prop := ∀ r, (g.node r).Prescribed

/-- A graph without classes is prescribed. -/
theorem prescribed_of_no_record (h : ∀ r ps, g.kind r ≠ .record ps) : g.Prescribed :=
  fun r ps hk => absurd hk (h r ps)

namespace Prescribed

theorem modify (h : g.Prescribed) (hf : r < g.size → (f (g.node r)).Prescribed) :
    (g.modify r f).Prescribed := by
  intro s
  by_cases hs : s < g.size
  · rw [node_modify _ _ _ _ hs]
    split
    · next hrs =>
      subst hrs
      exact hf hs
    · exact h s
  · rw [node_eq_default_of_le (by rw [size_modify]; exact Nat.not_lt.1 hs)]
    exact fun _ hk => by cases hk

/-- A node gets a kind that is no class. -/
theorem modify_of_ne (h : g.Prescribed) (hf : ∀ n ps, (f n).kind ≠ .record ps) :
    (g.modify r f).Prescribed :=
  h.modify fun _ ps hk => absurd hk (hf _ ps)

theorem setAttributes (h : g.Prescribed) (r : NodeId) (a : Attributes) :
    (g.setAttributes r a).Prescribed :=
  h.modify fun _ => h r

theorem addAttributes (h : g.Prescribed) (r : NodeId) (a : Attributes) :
    (g.addAttributes r a).Prescribed := by
  unfold Graph.addAttributes
  split
  · exact h
  · exact h.setAttributes r _

theorem forward (h : g.Prescribed) (moved : Redirection) : (g.forward moved).Prescribed := by
  intro r
  rw [Graph.forward, node_renameReferences]
  exact (h r).mapChildren _

theorem collect (h : g.Prescribed) : g.collect.Prescribed := by
  intro i
  by_cases hi : i < g.collect.size
  · obtain ⟨r, hr, rfl⟩ := exists_place_eq hi
    rw [node_collect hr]
    exact (h r).mapChildren _
  · rw [node_eq_default_of_le (Nat.not_lt.1 hi)]
    exact fun _ hk => by cases hk

end Prescribed

/-! ## Growing graphs -/

/-- The graph grows by nodes that are fixed where they are classes; the nodes that were there keep
    their kinds, and are as fixed as they were. -/
structure Furthers (g g₁ : Graph) : Prop where
  size_le : g.size ≤ g₁.size
  kind_eq : ∀ r < g.size, g₁.kind r = g.kind r
  fixed_eq : ∀ r < g.size, (g₁.node r).fixed = (g.node r).fixed
  new : ∀ r, g.size ≤ r → (g₁.node r).Prescribed

namespace Furthers

theorem refl (g : Graph) : Furthers g g where
  size_le := Nat.le_refl _
  kind_eq _ _ := rfl
  fixed_eq _ _ := rfl
  new r hr := by
    rw [node_eq_default_of_le hr]
    exact fun _ hk => by cases hk

theorem prescribed (h : Furthers g g₁) (hg : g.Prescribed) : g₁.Prescribed := by
  intro r ps hk
  by_cases hr : r < g.size
  · rw [h.fixed_eq r hr]
    exact hg r ps ((h.kind_eq r hr).symm.trans hk)
  · exact h.new r (Nat.not_lt.1 hr) ps hk

theorem trans (h : Furthers g g₁) (h' : Furthers g₁ g₂) : Furthers g g₂ where
  size_le := Nat.le_trans h.size_le h'.size_le
  kind_eq r hr := (h'.kind_eq r (Nat.lt_of_lt_of_le hr h.size_le)).trans (h.kind_eq r hr)
  fixed_eq r hr := (h'.fixed_eq r (Nat.lt_of_lt_of_le hr h.size_le)).trans (h.fixed_eq r hr)
  new r hr ps hk := by
    by_cases hr₁ : r < g₁.size
    · rw [h'.fixed_eq r hr₁]
      exact h.new r hr ps ((h'.kind_eq r hr₁).symm.trans hk)
    · exact h'.new r (Nat.not_lt.1 hr₁) ps hk

theorem push (hn : n.Prescribed) : Furthers g (g.push n) where
  size_le := (size_push g n).symm ▸ Nat.le_succ _
  kind_eq r hr := by rw [kind_push, if_neg (Nat.ne_of_lt hr)]
  fixed_eq r hr := by rw [node_push, if_neg (Nat.ne_of_lt hr)]
  new r hr := by
    rw [node_push]
    split
    · exact hn
    · exact (refl g).new r hr

/-- A node comes whose kind is no class. -/
theorem push_new {k : Kind} (a : Attributes) (hk : ∀ ps, k ≠ .record ps) :
    Furthers g (g.push (.new k a)) :=
  push fun ps h => absurd h (hk ps)

theorem setAttributes (r : NodeId) (a : Attributes) : Furthers g (g.setAttributes r a) where
  size_le := Nat.le_of_eq (size_modify ..).symm
  kind_eq := (grows_setAttributes g r a).kind_eq
  fixed_eq s hs := by
    rw [Graph.setAttributes, node_modify _ _ _ _ hs]
    split <;> rfl
  new s hs := by
    rw [node_eq_default_of_le (by rw [Graph.setAttributes, size_modify]; exact hs)]
    exact fun _ hk => by cases hk

theorem isObjectLike (h : Furthers g g₁) (hr : (g.kind r).isObjectLike = true) :
    (g₁.kind r).isObjectLike = true := by
  rwa [h.kind_eq r (lt_size_of_isObjectLike hr)]

end Furthers

/-! ## One type for several -/

theorem furthers_unionOf (g : Graph) (ms : SortedSet NodeId) : Furthers g (g.unionOf ms).2 :=
  unionOf_cases (P := fun _ => Furthers g) (fun _ => .push_new _ fun _ => Kind.noConfusion)
    (fun _ _ _ => .refl g) (.push_new _ fun _ => Kind.noConfusion)

/-- **A class that is made of object types is made of classes alone**, so that it is fixed if those
    are. -/
theorem furthers_unifyObjects (hg : g.Prescribed) {rs : List NodeId}
    (hrs : ∀ r ∈ rs, (g.kind r).isObjectLike = true) :
    (g.unifyObjects rs).1.Prescribed ∧ Furthers g (g.unifyObjects rs).2 := by
  refine ⟨fun ps hps => ?_, unifyObjects_induction
    (fun g₁ ms h _ _ => h.trans (furthers_unionOf g₁ ms)) (.refl g)⟩
  rcases unifyObjects_cases g rs with ⟨_, hk⟩ | ⟨_, _, hk, -⟩ | ⟨-, hfixed, hclasses⟩
  · cases hps.symm.trans hk
  · cases hps.symm.trans hk
  · rw [hfixed, List.all_eq_true]
    intro r hr
    obtain ⟨qs, hqs⟩ := hclasses r hr (hrs r hr)
    exact hg r qs hqs

theorem furthers_mergeCategory (hg : g.Prescribed) {c : Category} {rs : List NodeId}
    (hne : rs ≠ []) (hc : ∀ r ∈ rs, (g.kind r).category? = some c) :
    Furthers g (g.mergeCategory c rs).2 := by
  refine mergeCategory_cases (P := fun _ => Furthers g) hne (fun _ _ => .refl g)
    (fun _ => .push fun _ hk => by cases hk) (fun _ => .push_new _ fun _ => Kind.noConfusion)
    (fun _ => (furthers_unionOf g _).trans (.push_new _ fun _ => Kind.noConfusion))
    (fun hobject => ?_) fun _ _ _ _ _ _ => .setAttributes _ _
  obtain ⟨hn, h⟩ := furthers_unifyObjects hg fun r hr =>
    Kind.isObjectLike_of_category (hobject ▸ hc r hr)
  exact h.trans (.push hn)

theorem furthers_unify (conflate : Bool) (ls : List NodeId) (hg : g.Prescribed) :
    Furthers g (g.unify conflate ls).2 :=
  unify_induction conflate
    (fun _ _ _ h hne _ hrs => h.trans (furthers_mergeCategory (h.prescribed hg) hne hrs)) (.refl g)

/-! ## Unions -/

theorem prescribed_flatteningStep (conflate : Bool) {s : Flattening} (h : s.graph.Prescribed)
    (u : NodeId) : (s.step conflate u).graph.Prescribed := by
  refine Flattening.step_cases (P := fun s => s.graph.Prescribed) (fun _ _ _ => h) (fun _ => h)
    fun _ _ ms g₁ heq a _ => ?_
  have hunify := (furthers_unify conflate (s.graph.leaves u) h).prescribed h
  rw [heq] at hunify
  exact ⟨fun _ => hunify.modify_of_ne fun _ _ => Kind.noConfusion,
    fun m _ => hunify.addAttributes m a,
    fun _ => hunify.modify_of_ne fun _ _ => Kind.noConfusion⟩

/-- **Flattening keeps all classes fixed.** -/
theorem prescribed_flattenUnions (conflate : Bool) (h : g.Prescribed) :
    (flattenUnions conflate g).1.Prescribed := by
  have hfold : ((g.idsWhere Kind.isUnion).foldl (Flattening.step conflate)
      ⟨g, ∅, false⟩).graph.Prescribed :=
    List.foldlRecOn (motive := fun s : Flattening => s.graph.Prescribed) _ _ h fun s hs u _ =>
      prescribed_flatteningStep conflate hs u
  exact (hfold.forward _).collect

/-! ## Object types -/

theorem prescribed_replaceObject (leaveFull : Bool) (h : g.Prescribed) (r : NodeId) :
    (replaceObject leaveFull g r).Prescribed :=
  replaceObject_cases (fun _ => h) (fun _ _ _ _ => h) (fun _ _ _ => h.modify fun _ _ _ => rfl)
    (fun _ _ _ _ => h.modify_of_ne fun _ _ => Kind.noConfusion)
    fun _ _ _ => ((furthers_unionOf g _).prescribed h).modify_of_ne fun _ _ => Kind.noConfusion

/-- **The classes that are made of object types are fixed.** -/
theorem prescribed_replaceObjects (leaveFull : Bool) (h : g.Prescribed) :
    (replaceObjects leaveFull g).Prescribed :=
  List.foldlRecOn (motive := Prescribed) _ _ h fun _ hg r _ =>
    prescribed_replaceObject leaveFull hg r

theorem prescribed_removeIndirections (h : g.Prescribed) : g.removeIndirections.Prescribed := by
  refine Prescribed.forward (List.foldlRecOn (motive := Prescribed) _ _ h fun g hg r _ => ?_) _
  unfold moveAttributes
  split
  · exact hg
  · exact hg.addAttributes _ _

end Graph

/-! ## Object types of descriptions -/

namespace Admitted

variable {g : Graph} {a b : Admitted}

/-- The object types of a description are object types of the graph. -/
def OfObjects (g : Graph) (a : Admitted) : Prop :=
  ∀ l ∈ a.objects, ∀ set ∈ l, ∀ t ∈ set, (g.kind t).isObjectLike = true

theorem OfObjects.join (ha : a.OfObjects g) (hb : b.OfObjects g) : (a.join b).OfObjects g :=
  Alternatives.forall_join ha hb

theorem OfObjects.meet (ha : a.OfObjects g) (hb : b.OfObjects g) : (a.meet b).OfObjects g :=
  Alternatives.forall_meet ha hb

theorem ofObjects_ofKind (forced : Bool) (r : NodeId) :
    ∀ a ∈ ofKind forced r (g.kind r), a.OfObjects g := by
  have hobject : (g.kind r).isObjectLike = true →
      OfObjects g { nothing with objects := some [.singleton r] } := fun h =>
    Alternatives.forall_singleton h
  intro a ha
  generalize g.kind r = k at ha hobject
  cases k with
  | object ps additional => cases ha; exact hobject rfl
  | record ps => cases ha; exact hobject rfl
  | map values => cases ha; exact hobject rfl
  | string cases => cases cases <;> cases ha <;> exact fun l hl => by cases hl
  | intersection ms => cases forced <;> cases ha; exact fun l hl => by cases hl
  | _ => cases ha <;> exact fun l hl => by cases hl

theorem ofObjects_admitted (forced : Bool) (r : NodeId) :
    ∀ a ∈ g.admitted forced r, a.OfObjects g := by
  refine joinAll_induction (fun l hl => by cases hl) (fun _ _ => .join) fun x hx => ?_
  obtain ⟨t, -, rfl⟩ := List.mem_map.1 hx
  exact ofObjects_ofKind forced t

end Admitted

/-! ## Resolution -/

/-- A part that is new is no class. -/
def Part.Unclassed (p : Part) : Prop := ∀ ps, p ≠ .new (.record ps)

namespace Resolution

open SchemaTypes.Graph

variable {s : Resolution} {α β : Type}

theorem furthers_intersectionOf (set : SortedSet NodeId) (s : Resolution) :
    Furthers s.graph (intersectionOf set s).2.graph := by
  rw [intersectionOf_apply]
  split
  · exact .refl _
  · exact .refl _
  · exact .push_new _ fun _ => Kind.noConfusion

theorem furthers_unionOf (set : SortedSet NodeId) (s : Resolution) :
    Furthers s.graph (unionOf set s).2.graph := by
  rw [unionOf_apply]
  split
  · exact Graph.furthers_unionOf _ _
  · split
    · exact .refl _
    · exact Graph.furthers_unionOf _ _

theorem furthers_objectOf (hs : s.graph.Prescribed) {set : SortedSet NodeId}
    (hset : ∀ t ∈ set, (s.graph.kind t).isObjectLike = true) :
    Furthers s.graph (objectOf set s).2.graph := by
  rw [objectOf_apply]
  split
  · exact .refl _
  · exact .refl _
  · have hlist : ∀ t ∈ set.toList, (s.graph.kind t).isObjectLike = true := fun t ht =>
      hset t (SortedSet.mem_toList.1 ht)
    obtain ⟨hn, h⟩ := furthers_unifyObjects hs hlist
    exact h.trans (.push hn)

/-- What is made for the entries of a list, one after the other: `P` is asked of an entry, and not
    lost when nodes come; `Q` is said of what is made. -/
theorem furthers_mapM {f : α → ResolutionM β} {P : α → Graph → Prop} {Q : β → Prop}
    (hP : ∀ {a g g'}, Furthers g g' → P a g → P a g')
    (hf : ∀ {a} {s : Resolution}, s.graph.Prescribed → P a s.graph →
      Q (f a s).1 ∧ Furthers s.graph (f a s).2.graph)
    (hs : s.graph.Prescribed) (l : List α) (hl : ∀ a ∈ l, P a s.graph) :
    (∀ b ∈ (l.mapM f s).1, Q b) ∧ Furthers s.graph (l.mapM f s).2.graph := by
  induction l generalizing s with
  | nil => exact ⟨fun _ hb => absurd hb List.not_mem_nil, .refl _⟩
  | cons a l ih =>
    rw [mapM_cons_apply]
    obtain ⟨hq, ha⟩ := hf hs (hl a List.mem_cons_self)
    obtain ⟨hqs, hrest⟩ := ih (ha.prescribed hs) fun b hb =>
      hP ha (hl b (List.mem_cons_of_mem a hb))
    exact ⟨List.forall_mem_cons.2 ⟨hq, hqs⟩, ha.trans hrest⟩

theorem furthers_meetProperties (views : List ObjectView) (names : List String) (ps : Properties)
    (s : Resolution) : Furthers s.graph (meetProperties views names ps s).2.graph := by
  induction names generalizing ps s with
  | nil => exact .refl _
  | cons name rest ih =>
    exact (furthers_intersectionOf (ObjectView.typesOf views name) s).trans (ih _ _)

/-- Object types that are intersected are no class yet. -/
theorem furthers_meetObjects (rs : List NodeId) (s : Resolution) :
    (∀ ps, (meetObjects rs s).1 ≠ .record ps) ∧
      Furthers s.graph (meetObjects rs s).2.graph := by
  rw [meetObjects_apply]
  extract_lets views ps additional
  have hps : Furthers s.graph ps.2.graph := furthers_meetProperties views _ _ s
  split
  · exact ⟨fun _ => Kind.noConfusion, hps.trans (furthers_intersectionOf _ _)⟩
  · exact ⟨fun _ => Kind.noConfusion, hps⟩

theorem furthers_arrayPart (l : Alternatives) (hs : s.graph.Prescribed) :
    Part.Unclassed (arrayPart l s).1 ∧ Furthers s.graph (arrayPart l s).2.graph := by
  rw [arrayPart_apply]
  split
  · exact ⟨fun _ h => (by cases h), .push_new _ fun _ => Kind.noConfusion⟩
  · have hitems : Furthers s.graph (l.mapM unionOf s).2.graph :=
      (furthers_mapM (P := fun _ _ => True) (Q := fun _ => True) (fun _ => id)
        (fun _ _ => ⟨trivial, furthers_unionOf _ _⟩) hs l fun _ _ => trivial).2
    exact ⟨fun _ h => (by cases h), hitems.trans (furthers_intersectionOf _ _)⟩

theorem furthers_objectPart {l : Alternatives} (hs : s.graph.Prescribed)
    (hl : ∀ set ∈ l, ∀ t ∈ set, (s.graph.kind t).isObjectLike = true) :
    Part.Unclassed (objectPart l s).1 ∧ Furthers s.graph (objectPart l s).2.graph := by
  rw [objectPart_apply]
  split
  · exact ⟨fun _ h => (by cases h), .push_new _ fun _ => Kind.noConfusion⟩
  extract_lets rs
  have hrs : Furthers s.graph rs.2.graph :=
    (furthers_mapM (P := fun set g => ∀ t ∈ set, (g.kind t).isObjectLike = true)
      (Q := fun _ => True) (fun h hset t ht => h.isObjectLike (hset t ht))
      (fun hs h => ⟨trivial, furthers_objectOf hs h⟩) hs l hl).2
  split
  · exact ⟨fun _ h => (by cases h), hrs⟩
  · obtain ⟨hk, hmeet⟩ := furthers_meetObjects rs.1.eraseDups rs.2
    exact ⟨fun ps h => hk ps (by injection h), hrs.trans hmeet⟩

theorem record_not_mem_primitiveParts (a : Admitted) (ps : Properties) :
    .record ps ∉ primitiveParts a := by
  intro h
  have hif : ∀ {b : Bool} {k : Kind}, .record ps ∈ (if b then [k] else []) → .record ps = k :=
    fun h => by
      split at h
      · exact List.mem_singleton.1 h
      · cases h
  simp only [primitiveParts, List.mem_append, List.mem_map] at h
  rcases h with ((((h | h) | h) | h) | h) | ⟨f, -, h⟩
  · cases hif h
  · cases hif h
  · cases hif h
  · cases hif h
  · split at h
    · cases h
    · cases List.mem_singleton.1 h
    · split at h
      · cases h
      · cases List.mem_singleton.1 h
  · cases h

theorem furthers_parts {a : Admitted} (hs : s.graph.Prescribed) (ha : a.OfObjects s.graph) :
    (∀ p ∈ (parts a s).1, p.Unclassed) ∧ Furthers s.graph (parts a s).2.graph := by
  rw [parts_apply]
  extract_lets arrays objects
  obtain ⟨harrays, h₁⟩ := furthers_mapM (f := arrayPart) (P := fun _ _ => True)
    (Q := Part.Unclassed) (fun _ => id) (fun hs _ => furthers_arrayPart _ hs) hs a.arrays.toList
    fun _ _ => trivial
  obtain ⟨hobjects, h₂⟩ := furthers_mapM (f := objectPart) (Q := Part.Unclassed)
    (P := fun l g => ∀ set ∈ l, ∀ t ∈ set, (g.kind t).isObjectLike = true)
    (fun h hl set hset t ht => h.isObjectLike (hl set hset t ht))
    (fun hs hl => furthers_objectPart hs hl) (h₁.prescribed hs) a.objects.toList
    fun l hl set hset t ht => h₁.isObjectLike (ha l (Option.mem_toList.1 hl) set hset t ht)
  refine ⟨fun p hp => ?_, h₁.trans h₂⟩
  simp only [List.mem_append, List.mem_map] at hp
  rcases hp with (⟨k, hk, rfl⟩ | hp) | hp
  · rintro ps ⟨⟩
    exact record_not_mem_primitiveParts a ps hk
  · exact harrays p hp
  · exact hobjects p hp

theorem furthers_partNode {p : Part} (hp : p.Unclassed) (s : Resolution) :
    Furthers s.graph (partNode p s).2.graph := by
  cases p with
  | new k => exact .push_new _ fun ps hk => hp ps (congrArg Part.new hk)
  | existing r => exact .refl _

/-- The kind and the flag of a node are given to another. -/
theorem prescribed_replace (hs : s.graph.Prescribed) {r : NodeId} {k : Kind} {a : Attributes}
    {fixed : Bool} (hk : ∀ ps, k = .record ps → fixed = true) :
    (replace r k a fixed s).2.graph.Prescribed :=
  hs.modify fun _ => hk

/-- **An intersection gets a kind that is no class, or is made a copy of a node that is there.** -/
theorem prescribed_resolve (hs : s.graph.Prescribed) (forced : Bool) (r : NodeId)
    (members : List NodeId) : (resolve forced r members s).2.graph.Prescribed := by
  rw [resolve_apply]
  split
  · exact prescribed_replace hs fun _ hk => by cases hk
  next d hd =>
  have hobjects : d.OfObjects s.graph := by
    refine Admitted.meetAll_induction (fun _ _ => .meet) (fun x hx => ?_) d hd
    obtain ⟨m, -, rfl⟩ := List.mem_map.1 hx
    exact Admitted.ofObjects_admitted forced m
  obtain ⟨hparts, h⟩ := furthers_parts hs hobjects
  have hs₁ := h.prescribed hs
  generalize parts d s = q at hparts hs₁ ⊢
  obtain ⟨ps, s₁⟩ := q
  dsimp only at hparts hs₁ ⊢
  split
  · exact prescribed_replace hs₁ fun _ hk => by cases hk
  · next k =>
    exact prescribed_replace hs₁ fun ps hk =>
      absurd (congrArg Part.new hk) (hparts _ List.mem_cons_self ps)
  · next x => exact prescribed_replace hs₁ (hs₁ x)
  · have hnodes := furthers_mapM (f := partNode) (P := fun p _ => p.Unclassed)
      (Q := fun _ => True) (fun _ => id) (fun _ hp => ⟨trivial, furthers_partNode hp _⟩) hs₁ ps
      hparts
    exact prescribed_replace (hnodes.2.prescribed hs₁) fun _ hk => by cases hk

theorem graph_foldl_register (es : List (NodeId × List NodeId)) (s : Resolution) :
    (es.foldl register s).graph = s.graph := by
  refine List.foldlRecOn (motive := fun t : Resolution => t.graph = s.graph) _ _ rfl
    fun t ht e _ => ?_
  unfold register
  extract_lets members
  split
  · exact ht
  · exact ht

theorem prescribed_forM_resolve (forced : Bool) (es : List (NodeId × List NodeId))
    (hs : s.graph.Prescribed) :
    ((es.forM fun e => resolve forced e.1 e.2).run s).2.graph.Prescribed := by
  induction es generalizing s with
  | nil => exact hs
  | cons e es ih => exact ih (prescribed_resolve hs forced e.1 e.2)

theorem prescribed_round (hs : s.graph.Prescribed) (rs : List NodeId) :
    (s.round rs).graph.Prescribed := by
  unfold round
  extract_lets g expanded s₁ ready
  have hs₁ : s₁.graph.Prescribed := (graph_foldl_register expanded s).symm ▸ hs
  split
  exact prescribed_forM_resolve _ _ hs₁

/-- **Any number of rounds keeps all classes fixed.** -/
theorem prescribed_rounds (n : Nat) (hs : s.graph.Prescribed) : (rounds n s).graph.Prescribed := by
  induction n generalizing s with
  | zero => exact hs
  | succ n ih =>
    unfold rounds
    split
    · exact hs
    · exact ih (prescribed_round hs _)

end Resolution

theorem Graph.prescribed_resolveIntersections {g : Graph} (h : g.Prescribed) :
    g.resolveIntersections.1.Prescribed :=
  (Resolution.prescribed_rounds Resolution.roundLimit (s := .ofGraph g) h).collect

end SchemaTypes
