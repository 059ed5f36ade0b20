/-
  Passes as rows of edits.

  A pass adds nodes and changes nodes in place, one after the other, then redirects references
  and collects what is still reachable.

  * `NodeClass`: a class of nodes, by their properties and attributes; passes stay inside one that
    has what is made of its members (`NodeClass.Heritable`), such as that of all nodes;
  * `Graph.Edit`: one node is added or changed, stays inside a class, and refers to nodes that are
    there;
  * `Graph.Step`: an edit, or references are redirected to nodes that are there, or the graph is
    collected;
  * `Graph.Fit`: a graph is well-formed and its nodes are of the class; steps keep it so
    (`Steps.fit`), and the names of the top levels, so that every pass keeps a well-formed graph
    (`Steps.kept`);
  * `edits_unifyObjects`, `edits_unify`: one type for several comes by edits;
  * `steps_flattenUnions`: flattening of unions is a row of steps.
-/
import Mathlib.Logic.Relation
import SchemaTypes.Proofs.Comparison
import SchemaTypes.Proofs.Flattening
import SchemaTypes.Proofs.Keeping
import SchemaTypes.Proofs.Nullable

namespace SchemaTypes

/-! ## Classes of nodes -/

/-- A class of nodes, by their properties and by their attributes. -/
structure NodeClass where
  properties : Properties → Prop
  attributes : Attributes → Prop

namespace NodeClass

/-- All nodes. -/
def all : NodeClass := ⟨fun _ => True, fun _ => True⟩

/-- A node is of the class. -/
structure Has (C : NodeClass) (n : Node) : Prop where
  properties : C.properties n.kind.properties
  attributes : C.attributes n.attributes

/-- A class that passes stay inside.  Of properties it does not depend on types and order, and has
    those that are made of the properties of several object types, whether united or met.  Of
    attributes it depends on the bounds alone, and has those that are combined. -/
structure Heritable (C : NodeClass) : Prop where
  empty : C.properties ∅
  rename : ∀ f ps, C.properties ps → C.properties (ps.mapTypes f)
  sort : ∀ le ps, C.properties ps → C.properties (ps.sortKeys le)
  unite : ∀ {views : List ObjectView} {ps : Properties} {name : String} (type : NodeId),
    (∀ v ∈ views, C.properties v.properties) → name ∈ ObjectView.names views → C.properties ps →
      C.properties (ps.insert name ⟨type, views.any fun v => !v.requires name⟩)
  meet : ∀ {views : List ObjectView} {ps : Properties} {name : String} (type : NodeId),
    (∀ v ∈ views, C.properties v.properties) → C.properties ps →
      C.properties (ps.insert name ⟨type, !views.any fun v => v.requires name⟩)
  noAttributes : C.attributes ∅
  bounds : ∀ {a b : Attributes}, C.attributes a → b.minMax = a.minMax →
    b.minMaxLength = a.minMaxLength → C.attributes b
  combine : ∀ how {a b : Attributes}, C.attributes a → C.attributes b →
    C.attributes (a.combine how b)

theorem has_all (n : Node) : all.Has n := ⟨trivial, trivial⟩

theorem heritable_all : all.Heritable :=
  ⟨trivial, fun _ _ _ => trivial, fun _ _ _ => trivial, fun _ _ _ _ => trivial,
    fun _ _ _ => trivial, trivial, fun _ _ _ => trivial, fun _ _ _ _ _ => trivial⟩

/-- Nodes whose bounds are numbers. -/
def nanFree : NodeClass := ⟨fun _ => True, Attributes.NaNFree⟩

/-- **Bounds that are made of numbers are numbers.** -/
theorem heritable_nanFree : nanFree.Heritable where
  empty := trivial
  rename _ _ _ := trivial
  sort _ _ _ := trivial
  unite _ _ _ _ := trivial
  meet _ _ _ := trivial
  noAttributes := Attributes.nanFree_empty
  bounds ha hvalues hlengths := ⟨hvalues ▸ ha.1, hlengths ▸ ha.2⟩
  combine how _ _ := .combine how

variable {C : NodeClass}

/-- Combining attributes one after the other stays inside a class. -/
theorem Heritable.foldl_combine (hC : C.Heritable) (how : Combination) {α : Type}
    {f : α → Attributes} {l : List α} {a : Attributes} (ha : C.attributes a)
    (hl : ∀ x ∈ l, C.attributes (f x)) :
    C.attributes (l.foldl (fun a x => a.combine how (f x)) a) :=
  List.foldlRecOn l _ ha fun _ ha x hx => hC.combine how ha (hl x hx)

/-- Nodes without properties and attributes are of every such class. -/
theorem Heritable.bare (hC : C.Heritable) {k : Kind} (hk : k.properties = ∅) : C.Has (.new k) :=
  ⟨hk ▸ hC.empty, hC.noAttributes⟩

end NodeClass

/-- The values of a map are places of nodes. -/
def OrderedMap.Within {κ : Type} [DecidableEq κ] (m : OrderedMap κ NodeId) (n : Nat) : Prop :=
  ∀ k r, m.get? k = some r → r < n

namespace OrderedMap

variable {κ : Type} [DecidableEq κ] {m : OrderedMap κ NodeId} {n n' : Nat}

theorem within_empty (n : Nat) : (∅ : OrderedMap κ NodeId).Within n := fun _ _ h => by cases h

theorem Within.mono (h : m.Within n) (hn : n ≤ n') : m.Within n' :=
  fun k r hr => Nat.lt_of_lt_of_le (h k r hr) hn

theorem Within.insert (h : m.Within n) {k : κ} {r : NodeId} (hr : r < n) :
    (m.insert k r).Within n := by
  intro k' r' hk
  rw [get?_insert] at hk
  split at hk
  · cases hk
    exact hr
  · exact h k' r' hk

end OrderedMap

namespace Kind

theorem properties_mapChildren (f : NodeId → NodeId) (k : Kind) :
    (k.mapChildren f).properties = k.properties.mapTypes f := by
  cases k <;> rfl

theorem properties_of_view {k : Kind} {view : ObjectView} (h : k.objectView? = some view) :
    view.properties = k.properties := by
  cases k <;> cases h <;> rfl

end Kind

theorem NodeClass.Has.mapChildren {C : NodeClass} (hC : C.Heritable) {n : Node} (hn : C.Has n)
    (f : NodeId → NodeId) : C.Has { n with kind := n.kind.mapChildren f } := by
  refine ⟨?_, hn.attributes⟩
  rw [Kind.properties_mapChildren]
  exact hC.rename _ _ hn.properties

namespace Graph

variable {C : NodeClass} {g g₁ g₂ : Graph} {r : NodeId}

/-! ## Edits -/

/-- The graph is well-formed, and all nodes are of a class. -/
structure Fit (C : NodeClass) (g : Graph) : Prop where
  wellFormed : g.WellFormed
  nodes : ∀ r, C.Has (g.node r)

theorem Fit.properties (hg : g.Fit C) (r : NodeId) : C.properties (g.kind r).properties :=
  (hg.nodes r).properties

theorem Fit.attributes (hg : g.Fit C) (r : NodeId) : C.attributes (g.attributes r) :=
  (hg.nodes r).attributes

theorem WellFormed.fit (hg : g.WellFormed) : g.Fit .all := ⟨hg, fun _ => NodeClass.has_all _⟩

theorem NaNFree.fit (h : g.NaNFree) (hg : g.WellFormed) : g.Fit .nanFree := by
  refine ⟨hg, fun r => ⟨trivial, ?_⟩⟩
  by_cases hr : r < g.size
  · exact h r hr
  · rw [node_eq_default_of_le (Nat.not_lt.1 hr)]
    exact Attributes.nanFree_empty

theorem Fit.nanFree (hg : g.Fit .nanFree) : g.NaNFree := fun r _ => hg.attributes r

/-- A node is added or changed, and refers to nodes that are there. -/
inductive Edit (C : NodeClass) (g : Graph) : Graph → Prop
  | push {n : Node} (hc : ∀ c ∈ n.kind.children, c < g.size) (hn : C.Has n) : Edit C g (g.push n)
  | modify {r : NodeId} {f : Node → Node} (hr : r < g.size)
      (hc : ∀ c ∈ (f (g.node r)).kind.children, c < g.size) (hn : C.Has (f (g.node r))) :
      Edit C g (g.modify r f)

/-- Edits, one after the other. -/
abbrev Edits (C : NodeClass) : Graph → Graph → Prop := Relation.ReflTransGen (Edit C)

theorem Edit.size_le (h : Edit C g g₁) : g.size ≤ g₁.size := by
  cases h with
  | push => exact Nat.le_of_lt (Nat.lt_of_lt_of_eq (Nat.lt_succ_self _) (size_push ..).symm)
  | modify => exact Nat.le_of_eq (size_modify ..).symm

theorem Edit.topLevels_eq (h : Edit C g g₁) : g₁.topLevels = g.topLevels := by
  cases h <;> rfl

theorem Edit.fit (h : Edit C g g₁) (hg : g.Fit C) : g₁.Fit C := by
  cases h with
  | @push n hc hn =>
    have hchild : ∀ c ∈ n.kind.children, c < g.size + 1 := fun c h => Nat.lt_succ_of_lt (hc c h)
    refine ⟨(grows_push hchild).wellFormed hg.wellFormed, fun s => ?_⟩
    rw [node_push]
    split
    · exact hn
    · exact hg.nodes s
  | @modify r f hr hc hn =>
    have hnode : ∀ s, (g.modify r f).node s = if r = s then f (g.node r) else g.node s := by
      intro s
      rw [node_modify_eq]
      by_cases hrs : r = s
      · rw [if_pos ⟨hrs, hrs ▸ hr⟩, if_pos hrs, hrs]
      · rw [if_neg fun h => hrs h.1, if_neg hrs]
    refine ⟨wellFormed_of_children (fun s c hcs => ?_) fun s hs => ?_, fun s => ?_⟩
    · rw [size_modify]
      rw [kind, hnode] at hcs
      split at hcs
      · exact hc c hcs
      · exact hg.wellFormed.lt_of_mem_children hcs
    · rw [size_modify]
      exact hg.wellFormed.2 s hs
    · rw [hnode]
      split
      · exact hn
      · exact hg.nodes s

namespace Edits

theorem size_le (h : Edits C g g₁) : g.size ≤ g₁.size := by
  induction h with
  | refl => exact Nat.le_refl _
  | tail _ h ih => exact Nat.le_trans ih h.size_le

theorem fit (h : Edits C g g₁) (hg : g.Fit C) : g₁.Fit C := by
  induction h with
  | refl => exact hg
  | tail _ h ih => exact h.fit ih

/-- Edits for the elements of a list, one after the other. -/
theorem foldl {α : Type} {f : Graph → α → Graph} {l : List α} (hg : g.Fit C)
    (hf : ∀ g₁, Edits C g g₁ → g₁.Fit C → ∀ a ∈ l, Edits C g₁ (f g₁ a)) :
    Edits C g (l.foldl f g) :=
  List.foldlRecOn (motive := Edits C g) l f .refl fun g₁ h a ha => h.trans (hf g₁ h (h.fit hg) a ha)

end Edits

/-- A node keeps its kind. -/
theorem edit_of_kind_eq (hg : g.Fit C) (hr : r < g.size) {f : Node → Node}
    (hf : (f (g.node r)).kind = g.kind r) (ha : C.attributes (f (g.node r)).attributes) :
    Edit C g (g.modify r f) :=
  .modify hr (hf ▸ fun _ => hg.wellFormed.lt_of_mem_children) ⟨hf ▸ hg.properties r, ha⟩

theorem edits_setAttributes (hg : g.Fit C) (hr : r < g.size) {a : Attributes}
    (ha : C.attributes a) : Edits C g (g.setAttributes r a) :=
  .single (edit_of_kind_eq hg hr rfl ha)

theorem edits_addAttributes (hC : C.Heritable) (hg : g.Fit C) (hr : r < g.size) {a : Attributes}
    (ha : C.attributes a) : Edits C g (g.addAttributes r a) := by
  unfold addAttributes
  split
  · exact .refl
  · exact edits_setAttributes hg hr (hC.combine .union (hg.attributes r) ha)

/-- All nodes may be changed one after the other. -/
theorem foldl_modify_ids (g : Graph) (f : Node → Node) :
    g.ids.foldl (fun g r => g.modify r f) g = { g with nodes := g.nodes.map f } := by
  have hfirst : ∀ k, ((List.range k).foldl (fun g r => g.modify r f) g).topLevels = g.topLevels ∧
      ∀ i, ((List.range k).foldl (fun g r => g.modify r f) g).nodes[i]? =
        if i < k then g.nodes[i]?.map f else g.nodes[i]? := by
    intro k
    induction k with
    | zero => exact ⟨rfl, fun i => (if_neg (Nat.not_lt_zero i)).symm⟩
    | succ k ih =>
      obtain ⟨htop, hnodes⟩ := ih
      rw [List.range_succ, List.foldl_append, List.foldl_cons, List.foldl_nil]
      refine ⟨htop, fun i => ?_⟩
      rw [modify, Array.getElem?_modify, hnodes]
      rcases Nat.lt_trichotomy i k with h | rfl | h
      · rw [if_neg (Nat.ne_of_gt h), if_pos h, if_pos (Nat.lt_succ_of_lt h)]
      · rw [if_pos rfl, if_neg (Nat.lt_irrefl i), if_pos (Nat.lt_succ_self i)]
      · rw [if_neg (Nat.ne_of_lt h), if_neg (Nat.lt_asymm h), if_neg (Nat.not_lt.2 h)]
  obtain ⟨htop, hnodes⟩ := hfirst g.size
  refine Graph.mk.injEq .. |>.mpr ⟨Array.ext_getElem? fun i => ?_, htop⟩
  rw [ids, hnodes, Array.getElem?_map]
  split
  · rfl
  · next h => rw [Array.getElem?_eq_none (Nat.not_lt.1 h)]; rfl

theorem edits_mapNodes (hg : g.Fit C) {f : Node → Node}
    (hc : ∀ n, ∀ c ∈ (f n).kind.children, c ∈ n.kind.children)
    (hf : ∀ n, C.Has n → C.Has (f n)) :
    Edits C g { g with nodes := g.nodes.map f } := by
  rw [← foldl_modify_ids]
  refine .foldl hg fun g₁ h hg₁ r hr => .single (.modify ?_ (fun c hcf => ?_) ?_)
  · exact Nat.lt_of_lt_of_le (List.mem_range.1 hr) h.size_le
  · exact hg₁.wellFormed.lt_of_mem_children (r := r) (hc _ c hcf)
  · exact hf _ (hg₁.nodes r)

/-! ## Steps -/

/-- The targets of a redirection are places of nodes. -/
def Redirection.Within (moved : Redirection) (n : Nat) : Prop :=
  ∀ r t, moved.get? r = some t → t < n

theorem Redirection.within_empty (n : Nat) : Redirection.Within ∅ n := fun _ _ h => by cases h

theorem Redirection.Within.mono {moved : Redirection} {n n' : Nat} (h : moved.Within n)
    (hn : n ≤ n') : moved.Within n' :=
  fun r t ht => Nat.lt_of_lt_of_le (h r t ht) hn

theorem Redirection.Within.insert {moved : Redirection} {n : Nat} (h : moved.Within n)
    {t : NodeId} (ht : t < n) (r : NodeId) : Redirection.Within (moved.insert r t) n := by
  intro s t' hs
  rw [SortedMap.get?_insert] at hs
  split at hs
  · cases hs
    exact ht
  · exact h s t' hs

/-- An edit, or references are redirected to nodes that are there, or the graph is collected. -/
inductive Step (C : NodeClass) (g : Graph) : Graph → Prop
  | edit {g₁ : Graph} (h : Edit C g g₁) : Step C g g₁
  | forward {moved : Redirection} (h : moved.Within g.size) : Step C g (g.forward moved)
  | collect : Step C g g.collect

/-- Steps, one after the other. -/
abbrev Steps (C : NodeClass) : Graph → Graph → Prop := Relation.ReflTransGen (Step C)

theorem Edits.steps (h : Edits C g g₁) : Steps C g g₁ :=
  Relation.ReflTransGen.mono (fun _ _ => Step.edit) _ _ h

theorem Steps.edits (h : Steps C g g₁) (h' : Edits C g₁ g₂) : Steps C g g₂ := h.trans h'.steps

theorem Edits.forward (h : Edits C g g₁) {moved : Redirection} (hm : moved.Within g₁.size) :
    Steps C g (g₁.forward moved) :=
  h.steps.tail (.forward hm)

/-- **A step keeps a graph well-formed and its nodes in the class**, and the names of its top
    levels. -/
theorem Step.fit (hC : C.Heritable) (h : Step C g g₁) (hg : g.Fit C) :
    g₁.Fit C ∧ g₁.topLevels.keys = g.topLevels.keys := by
  cases h with
  | edit h => exact ⟨h.fit hg, congrArg OrderedMap.keys h.topLevels_eq⟩
  | forward h =>
    have hkept := (Edited.refl hg.wellFormed).forward h
    refine ⟨⟨hkept.wellFormed, fun r => ?_⟩, hkept.keys_eq⟩
    rw [Graph.forward, node_renameReferences]
    exact (hg.nodes r).mapChildren hC _
  | collect =>
    have hkept := kept_collect hg.wellFormed
    refine ⟨⟨hkept.wellFormed, fun i => ?_⟩, hkept.keys_eq⟩
    by_cases hi : i < g.collect.size
    · obtain ⟨r, hr, rfl⟩ := exists_place_eq hi
      rw [node_collect hr]
      exact (hg.nodes r).mapChildren hC _
    · rw [node_eq_default_of_le (Nat.not_lt.1 hi)]
      exact hC.bare rfl

/-- **So does a row of steps.** -/
theorem Steps.fit (hC : C.Heritable) (h : Steps C g g₁) (hg : g.Fit C) :
    g₁.Fit C ∧ g₁.topLevels.keys = g.topLevels.keys := by
  induction h with
  | refl => exact ⟨hg, rfl⟩
  | tail _ h ih =>
    obtain ⟨hfit, hkeys⟩ := h.fit hC ih.1
    exact ⟨hfit, hkeys.trans ih.2⟩

/-- Where all bounds are numbers, steps keep them so. -/
theorem Steps.nanFree (h : Steps .nanFree g g₁) (hg : g.WellFormed) (hnan : g.NaNFree) :
    g₁.NaNFree :=
  (h.fit NodeClass.heritable_nanFree (hnan.fit hg)).1.nanFree

/-- Steps keep a well-formed graph. -/
theorem Steps.kept (h : Steps .all g g₁) (hg : g.WellFormed) : g.Kept g₁ :=
  have ⟨hfit, hkeys⟩ := h.fit NodeClass.heritable_all hg.fit
  ⟨hfit.wellFormed, hkeys⟩

/-! ## One type for several -/

/-- The views of the types of a graph have properties of the class. -/
theorem Fit.views (hg : g.Fit C) {rs : List NodeId} {v : ObjectView}
    (hv : v ∈ (rs.map g.kind).filterMap Kind.objectView?) : C.properties v.properties := by
  obtain ⟨k, hk, hview⟩ := List.mem_filterMap.1 hv
  obtain ⟨r, -, rfl⟩ := List.mem_map.1 hk
  exact Kind.properties_of_view hview ▸ hg.properties r

section

variable (hC : C.Heritable)

include hC

theorem edits_unionOf {ms : SortedSet NodeId} (hms : ∀ m ∈ ms, m < g.size) :
    Edits C g (g.unionOf ms).2 :=
  unionOf_cases (P := fun _ => Edits C g)
    (fun _ => .single (.push (fun _ hc => absurd hc List.not_mem_nil) (hC.bare rfl)))
    (fun _ _ _ => .refl) (.single (.push hms (hC.bare rfl)))

/-- Attributes of several types joined. -/
theorem Fit.joinedAttributes (hg : g.Fit C) (rs : List NodeId) :
    C.attributes (g.joinedAttributes rs) := by
  rw [Graph.joinedAttributes, Attributes.unionAll, List.foldl_map]
  exact hC.foldl_combine .union hC.noAttributes fun r _ => hg.attributes r

omit hC in
/-- Children of several types are nodes. -/
theorem Fit.lt_of_exists_child (hg : g.Fit C) {rs : List NodeId} {c : NodeId}
    (hc : ∃ r ∈ rs, c ∈ (g.kind r).children) : c < g.size := by
  obtain ⟨r, -, hr⟩ := hc
  exact hg.wellFormed.lt_of_mem_children hr

theorem heritable_uniteProperties {views : List ObjectView} {names : List String}
    {ps : Properties} (hv : ∀ v ∈ views, C.properties v.properties)
    (hnames : ∀ name ∈ names, name ∈ ObjectView.names views) (hps : C.properties ps) (g : Graph) :
    C.properties (uniteProperties views names ps g).1 := by
  induction names generalizing ps g with
  | nil => exact hps
  | cons name rest ih =>
    exact ih (fun n hn => hnames n (List.mem_cons_of_mem name hn))
      (hC.unite _ hv (hnames name List.mem_cons_self) hps) _

theorem has_unifyObjects (hg : g.Fit C) (rs : List NodeId) : C.Has (g.unifyObjects rs).1 := by
  have ha : C.attributes (g.joinedAttributes rs) := hg.joinedAttributes hC rs
  unfold unifyObjects
  extract_lets kinds attributes hasObject hasMap views fixed additional
  split
  · exact ⟨hC.empty, ha⟩
  have hps : C.properties (uniteProperties views (ObjectView.names views) ∅ g).1 :=
    heritable_uniteProperties hC (fun _ => hg.views) (fun _ => id) hC.empty g
  generalize uniteProperties views (ObjectView.names views) ∅ g = u at hps ⊢
  obtain ⟨ps, g₁⟩ := u
  dsimp only at hps ⊢
  split
  · split <;> exact ⟨hps, ha⟩
  · exact ⟨hps, ha⟩

/-- An object type that is made of several is yet to be added. -/
theorem edits_unifyObjects (hg : g.Fit C) (rs : List NodeId) :
    Edits C g (g.unifyObjects rs).2 ∧ C.Has (g.unifyObjects rs).1 := by
  refine ⟨unifyObjects_induction (fun g₁ ms h _ hms => ?_) .refl, has_unifyObjects hC hg rs⟩
  exact h.trans (edits_unionOf hC fun m hm =>
    Nat.lt_of_lt_of_le (hg.lt_of_exists_child (hms m hm)) h.size_le)

/-! ## Unions -/

/-- What is made for nodes is a node. -/
def Yields (C : NodeClass) (g : Graph) (made : NodeId × Graph) : Prop :=
  Edits C g made.2 ∧ made.1 < made.2.size

omit hC in
theorem yields_push {n : Node} (hc : ∀ c ∈ n.kind.children, c < g.size) (hn : C.Has n) :
    Yields C g (g.size, g.push n) :=
  ⟨.single (.push hc hn), Nat.lt_of_lt_of_eq (Nat.lt_succ_self _) (size_push ..).symm⟩

theorem yields_unionOf {ms : SortedSet NodeId} (hms : ∀ m ∈ ms, m < g.size) :
    Yields C g (g.unionOf ms) :=
  ⟨edits_unionOf hC hms, unionOf_lt hms⟩

omit hC in
/-- What is made after edits. -/
theorem Edits.yields {made : NodeId × Graph} (h : Edits C g g₁) (h' : Yields C g₁ made) :
    Yields C g made :=
  ⟨h.trans h'.1, h'.2⟩

theorem yields_unifyObjects (hg : g.Fit C) (rs : List NodeId) :
    Yields C g ((g.unifyObjects rs).2.size, (g.unifyObjects rs).2.push (g.unifyObjects rs).1) := by
  obtain ⟨hedits, hn⟩ := edits_unifyObjects hC hg rs
  exact hedits.yields (yields_push (unified_unifyObjects hg.wellFormed rs).lt_size hn)

theorem has_mergedStrings (hg : g.Fit C) (rs : List NodeId) : C.Has (g.mergedStrings rs) := by
  refine ⟨hC.empty, ?_⟩
  show C.attributes (if _ then _ else _)
  split
  · exact hC.bounds (hg.joinedAttributes hC rs) rfl rfl
  · exact hg.joinedAttributes hC rs

theorem edits_mergeCategory (hg : g.Fit C) {c : Category} {rs : List NodeId} (hne : rs ≠ [])
    (hc : ∀ r ∈ rs, (g.kind r).category? = some c) : Edits C g (g.mergeCategory c rs).2 := by
  have hnil : ∀ c ∈ ([] : List NodeId), c < g.size := fun _ hc => absurd hc List.not_mem_nil
  have ha : C.attributes (g.joinedAttributes rs) := hg.joinedAttributes hC rs
  obtain ⟨hitems, hlt⟩ := yields_unionOf hC (lt_of_mem_itemTypes hg.wellFormed rs)
  exact mergeCategory_cases (P := fun _ => Edits C g) hne (fun _ _ => .refl)
    (fun _ => .single (.push hnil (has_mergedStrings hC hg rs)))
    (fun _ => .single (.push hnil ⟨hC.empty, ha⟩))
    (fun _ => hitems.tail (.push (fun c hc => List.mem_singleton.1 hc ▸ hlt) ⟨hC.empty, ha⟩))
    (fun _ => (yields_unifyObjects hC hg rs).1)
    fun _ _ _ _ r hr => edits_setAttributes hg (lt_size_of_category (hc r hr)) ha

theorem edits_unify (conflate : Bool) (hg : g.Fit C) (ls : List NodeId)
    (hls : ∀ m ∈ ls, m < g.size) :
    Edits C g (g.unify conflate ls).2 ∧
      ∀ r ∈ (g.unify conflate ls).1, r < (g.unify conflate ls).2.size :=
  ⟨unify_induction conflate
    (fun _ _ _ h hne _ hrs => h.trans (edits_mergeCategory hC (h.fit hg) hne hrs)) .refl,
    (merged_unify hg.wellFormed conflate hls).lt_size⟩

/-- One union after the other is flattened. -/
theorem edits_flatteningStep (conflate : Bool) {s : Flattening} (hg : s.graph.Fit C)
    (hmoved : s.redirection.Within s.graph.size) {u : NodeId} (hu : u < s.graph.size) :
    Edits C s.graph (s.step conflate u).graph ∧
      (s.step conflate u).redirection.Within (s.step conflate u).graph.size := by
  refine Flattening.step_cases (P := fun s' => Edits C s.graph s'.graph ∧
    s'.redirection.Within s'.graph.size) (fun _ _ _ => ⟨.refl, hmoved⟩) (fun _ => ⟨.refl, hmoved⟩)
    fun _ _ ms g₁ heq a ha => ?_
  obtain ⟨hunify, hlt⟩ := edits_unify hC conflate hg (s.graph.leaves u) fun m hm =>
    lt_of_mem_walk (List.mem_filter.1 hm).1
  rw [heq] at hunify hlt
  have hu₁ := Nat.lt_of_lt_of_le hu hunify.size_le
  have hmoved₁ := hmoved.mono hunify.size_le
  have ha : C.attributes a :=
    ha ▸ hC.foldl_combine .union (hg.attributes u) fun n _ => hg.attributes n
  refine ⟨fun _ => ⟨?_, ?_⟩, fun m hm => ⟨?_, ?_⟩, fun _ => ⟨?_, ?_⟩⟩
  · exact hunify.tail (.modify hu₁ (fun _ hc => absurd hc List.not_mem_nil) ⟨hC.empty, ha⟩)
  · exact (size_modify ..).symm ▸ hmoved₁
  · exact hunify.trans (edits_addAttributes hC (hunify.fit hg)
      (hlt m (hm ▸ List.mem_singleton_self m)) ha)
  · exact (size_addAttributes ..).symm ▸ hmoved₁.insert (hlt m (hm ▸ List.mem_singleton_self m)) u
  · exact hunify.tail (.modify hu₁ (fun c hc => hlt c (SortedSet.mem_ofList.1 hc)) ⟨hC.empty, ha⟩)
  · exact (size_modify ..).symm ▸ hmoved₁

theorem steps_settle (conflate : Bool) (hg : g.Fit C) :
    Steps C g ((g.settle conflate).graph.forward (g.settle conflate).redirection) := by
  have hfold := List.foldlRecOn
    (motive := fun s : Flattening => Edits C g s.graph ∧ s.redirection.Within s.graph.size)
    (g.idsWhere Kind.isUnion) (Flattening.step conflate) (b := ⟨g, ∅, false⟩)
    ⟨.refl, Redirection.within_empty _⟩ fun s hs u hu => by
      have hlt := List.mem_range.1 (List.mem_filter.1 hu).1
      obtain ⟨hstep, hmoved⟩ := edits_flatteningStep hC conflate (hs.1.fit hg) hs.2
        (Nat.lt_of_lt_of_le hlt hs.1.size_le)
      exact ⟨hs.1.trans hstep, hmoved⟩
  exact hfold.1.forward hfold.2

/-- **Flattening of unions is a row of steps.** -/
theorem steps_flattenUnions (conflate : Bool) (hg : g.Fit C) :
    Steps C g (flattenUnions conflate g).1 :=
  (steps_settle hC conflate hg).tail .collect

end

theorem kept_settle (conflate : Bool) (hg : g.WellFormed) :
    g.Kept ((g.settle conflate).graph.forward (g.settle conflate).redirection) :=
  (steps_settle NodeClass.heritable_all conflate hg.fit).kept hg

theorem kept_flattenUnions (conflate : Bool) (hg : g.WellFormed) :
    g.Kept (flattenUnions conflate g).1 :=
  (kept_settle conflate hg).collect

end Graph

end SchemaTypes
