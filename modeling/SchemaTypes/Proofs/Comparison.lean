/-
  What equals itself.

  Graphs are compared with their bounds as numbers, and what is not a number equals nothing.  So
  comparison of attributes is symmetric and transitive, but attributes, and graphs, equal themselves
  only where all bounds are numbers.

  * `Bounds.keys`: the places that bounds are compared by;
  * `Bounds.NaNFree`, `Attributes.NaNFree`, `Graph.NaNFree`: all bounds are numbers;
  * `Attributes.same_iff`: equal attributes have bounds at the same places, all of them numbers;
  * `Attributes.NaNFree.combine`: combined bounds are numbers if those of both sides are;
  * `Graph.same_self_iff`: **a graph equals itself where all its bounds are numbers**, and only
    there;
  * `Graph.nanFree_of_same`: they are where it equals any graph.
-/
import SchemaTypes.Graph

namespace SchemaTypes

/-! ## Numbers -/

namespace Double

variable {x y : Double}

theorem key?_eq_none_iff : x.key? = none ↔ x = nan := by
  cases x <;> simp [key?]

/-- Numbers are equal where they have the same place. -/
theorem beq_iff : (x == y) = true ↔ x ≠ nan ∧ x.key? = y.key? := by
  rw [Ne, ← key?_eq_none_iff]
  show equal x y = true ↔ _
  unfold equal
  cases x.key? <;> cases y.key? <;> simp

theorem min_ne_nan (hx : x ≠ nan) (hy : y ≠ nan) : x.min y ≠ nan := by
  unfold min
  split
  · exact hy
  · exact hx

theorem max_ne_nan (hx : x ≠ nan) (hy : y ≠ nan) : x.max y ≠ nan := by
  unfold max
  split
  · exact hy
  · exact hx

end Double

/-! ## Bounds -/

namespace Bounds

/-- The places that bounds are compared by. -/
def keys (b : Bounds) : Option (Option Int) × Option (Option Int) :=
  (b.min.map Double.key?, b.max.map Double.key?)

/-- Both bounds are numbers, if they are there. -/
def NaNFree (b : Bounds) : Prop := b.min ≠ some .nan ∧ b.max ≠ some .nan

instance (b : Bounds) : Decidable b.NaNFree := inferInstanceAs (Decidable (_ ∧ _))

variable {a b : Bounds}

theorem side_ne_iff {x : Option Double} : x ≠ some .nan ↔ x.map Double.key? ≠ some none := by
  cases x <;> simp [Double.key?_eq_none_iff]

/-- Whether bounds are numbers is seen from their places. -/
theorem NaNFree.of_keys_eq (ha : a.NaNFree) (h : a.keys = b.keys) : b.NaNFree := by
  obtain ⟨hmin, hmax⟩ := Prod.mk.inj h
  rw [NaNFree, side_ne_iff, side_ne_iff] at ha ⊢
  exact ⟨hmin ▸ ha.1, hmax ▸ ha.2⟩

theorem beq_iff : (a == b) = true ↔ a.NaNFree ∧ a.keys = b.keys := by
  have hside : ∀ x y : Option Double, (x == y) = true ↔
      x ≠ some .nan ∧ x.map Double.key? = y.map Double.key? := by
    intro x y
    cases x <;> cases y <;> simp [Double.beq_iff]
  show (a.min == b.min && a.max == b.max) = true ↔ _
  rw [Bool.and_eq_true, hside, hside, keys, keys, Prod.mk.injEq, NaNFree]
  exact and_and_and_comm

variable {f : Double → Double → Double} {x y : Option Double}

theorem both_ne_nan (hf : ∀ {x y}, x ≠ .nan → y ≠ .nan → f x y ≠ .nan) (hx : x ≠ some .nan)
    (hy : y ≠ some .nan) : both f x y ≠ some .nan := by
  cases x <;> cases y <;> simp_all [both]

theorem either_ne_nan (hf : ∀ {x y}, x ≠ .nan → y ≠ .nan → f x y ≠ .nan) (hx : x ≠ some .nan)
    (hy : y ≠ some .nan) : either f x y ≠ some .nan := by
  cases x <;> cases y <;> simp_all [either]

theorem NaNFree.join (ha : a.NaNFree) (hb : b.NaNFree) : (a.join b).NaNFree :=
  ⟨both_ne_nan Double.min_ne_nan ha.1 hb.1, both_ne_nan Double.max_ne_nan ha.2 hb.2⟩

theorem NaNFree.meet (ha : a.NaNFree) (hb : b.NaNFree) : (a.meet b).NaNFree :=
  ⟨either_ne_nan Double.max_ne_nan ha.1 hb.1, either_ne_nan Double.min_ne_nan ha.2 hb.2⟩

end Bounds

/-! ## Attributes -/

namespace Attributes

/-- All bounds are numbers. -/
def NaNFree (a : Attributes) : Prop :=
  (∀ b ∈ a.minMax, b.NaNFree) ∧ ∀ b ∈ a.minMaxLength, b.NaNFree

instance (a : Attributes) : Decidable a.NaNFree := inferInstanceAs (Decidable (_ ∧ _))

variable {a b c : Attributes}

/-- Attributes are compared by the places of their bounds, which have to be numbers, and by all
    else that they are. -/
theorem same_iff : a.same b = true ↔ a.NaNFree ∧
    a.minMax.map Bounds.keys = b.minMax.map Bounds.keys ∧
    a.minMaxLength.map Bounds.keys = b.minMaxLength.map Bounds.keys ∧
    ({ a with minMax := none, minMaxLength := none } : Attributes) =
      { b with minMax := none, minMaxLength := none } := by
  have hside : ∀ x y : Option Bounds, (x == y) = true ↔
      (∀ b ∈ x, b.NaNFree) ∧ x.map Bounds.keys = y.map Bounds.keys := by
    intro x y
    cases x <;> cases y <;> simp [Bounds.beq_iff]
  rw [same, Bool.and_eq_true, Bool.and_eq_true, hside, hside, beq_iff_eq, NaNFree,
    and_and_and_comm, and_assoc]
  exact and_congr_right fun _ => and_assoc

/-- Attributes equal themselves where all bounds are numbers. -/
theorem same_self_iff : a.same a = true ↔ a.NaNFree :=
  same_iff.trans (and_iff_left ⟨rfl, rfl, rfl⟩)

theorem nanFree_of_same (h : a.same b = true) : a.NaNFree := (same_iff.1 h).1

theorem same_symm (h : a.same b = true) : b.same a = true := by
  obtain ⟨⟨hvalues, hlengths⟩, hv, hl, hrest⟩ := same_iff.1 h
  have hside : ∀ {x y : Option Bounds}, (∀ b ∈ x, b.NaNFree) →
      x.map Bounds.keys = y.map Bounds.keys → ∀ b ∈ y, b.NaNFree := by
    rintro x _ hx hxy b rfl
    obtain ⟨a, rfl, hab⟩ := Option.map_eq_some_iff.1 hxy
    exact (hx a rfl).of_keys_eq hab
  exact same_iff.2 ⟨⟨hside hvalues hv, hside hlengths hl⟩, hv.symm, hl.symm, hrest.symm⟩

theorem same_trans (h : a.same b = true) (h' : b.same c = true) : a.same c = true := by
  obtain ⟨ha, hv, hl, hrest⟩ := same_iff.1 h
  obtain ⟨-, hv', hl', hrest'⟩ := same_iff.1 h'
  exact same_iff.2 ⟨ha, hv.trans hv', hl.trans hl', hrest.trans hrest'⟩

theorem nanFree_empty : NaNFree ∅ := ⟨fun _ h => (by cases h), fun _ h => by cases h⟩

/-- **Combined bounds are numbers**, if those of both sides are. -/
theorem NaNFree.combine (how : Combination) (ha : a.NaNFree) (hb : b.NaNFree) :
    (a.combine how b).NaNFree := by
  have hbounds : ∀ {b c : Bounds}, b.NaNFree → c.NaNFree → (boundsOf how b c).NaNFree := by
    cases how with
    | union => exact Bounds.NaNFree.join
    | intersection => exact Bounds.NaNFree.meet
  have hside : ∀ {x y : Option Bounds}, (∀ b ∈ x, b.NaNFree) → (∀ b ∈ y, b.NaNFree) →
      ∀ b ∈ mergeOptions (boundsOf how) x y, b.NaNFree := by
    intro x y hx hy
    cases x with
    | none => exact hy
    | some b =>
      cases y with
      | none => exact hx
      | some c =>
        rintro _ ⟨⟩
        exact hbounds (hx b rfl) (hy c rfl)
  exact ⟨hside ha.1 hb.1, hside ha.2 hb.2⟩

end Attributes

/-! ## Graphs -/

theorem OrderedMap.same_self {κ ν : Type} [DecidableEq κ] [DecidableEq ν] (m : OrderedMap κ ν) :
    m.same m = true := by
  rw [same, Bool.and_eq_true, List.all_eq_true]
  refine ⟨beq_self_eq_true _, fun e he => ?_⟩
  rw [get?_eq_some_iff.2 he]
  exact beq_self_eq_true _

theorem Kind.same_self (k : Kind) : k.same k = true := by
  cases k with
  | object ps a => simp [same, OrderedMap.same_self]
  | record ps => exact OrderedMap.same_self ps
  | _ => exact beq_self_eq_true _

theorem Node.same_self_iff {n : Node} : n.same n = true ↔ n.attributes.NaNFree := by
  simp [same, Kind.same_self, Attributes.same_self_iff]

namespace Graph

/-- All bounds are numbers. -/
def NaNFree (g : Graph) : Prop := ∀ r < g.size, (g.attributes r).NaNFree

instance (g : Graph) : Decidable g.NaNFree := inferInstanceAs (Decidable (∀ r < _, _))

variable {g h : Graph}

/-- Nodes of graphs that are the same are the same. -/
theorem node_same_of_same (hsame : h.same g = true) {r : NodeId} (hr : r < h.size) :
    (h.node r).same (g.node r) = true := by
  simp only [same, Bool.and_eq_true, beq_iff_eq] at hsame
  obtain ⟨⟨hsize, hnodes⟩, -⟩ := hsame
  have hrh : r < h.nodes.size := hr
  have hrg : r < g.nodes.size := Nat.lt_of_lt_of_eq hr hsize
  have hmem : (h.node r, g.node r) ∈ h.nodes.toList.zip g.nodes.toList := by
    refine List.mem_iff_getElem.2 ⟨r, by rw [List.length_zip]; exact Nat.lt_min.2 ⟨hrh, hrg⟩, ?_⟩
    simp [node, Array.getD, hrg, hrh]
  exact List.all_eq_true.1 hnodes _ hmem

/-- What equals any graph has no bounds but numbers. -/
theorem nanFree_of_same (hsame : h.same g = true) : h.NaNFree := by
  intro r hr
  have hnode := node_same_of_same hsame hr
  simp only [Node.same, Bool.and_eq_true] at hnode
  exact Attributes.nanFree_of_same hnode.1.1.2

/-- **A graph equals itself where all its bounds are numbers**, and only there. -/
theorem same_self_iff : g.same g = true ↔ g.NaNFree := by
  refine ⟨nanFree_of_same, fun hnan => ?_⟩
  simp only [same, beq_self_eq_true, OrderedMap.same_self, Bool.true_and, Bool.and_true,
    List.all_eq_true]
  rintro ⟨m, n⟩ hmem
  obtain ⟨i, hi, heq⟩ := List.mem_iff_getElem.1 hmem
  rw [List.getElem_zip] at heq
  cases heq
  have hi : i < g.nodes.size := by simpa using hi
  have hnode : g.node i = g.nodes[i] := by simp [node, Array.getD, hi]
  exact Node.same_self_iff.2 (hnode ▸ hnan i hi)

theorem NaNFree.same_self (h : g.NaNFree) : g.same g = true := same_self_iff.2 h

/-- A reading whose lower bound is not a number. -/
def reading : Graph where
  nodes := #[.new .double { Attributes.empty with minMax := some ⟨some .nan, none⟩ }]
  topLevels := .ofList [("Reading", 0)]

example : reading.same reading = false := by decide

end Graph

end SchemaTypes
