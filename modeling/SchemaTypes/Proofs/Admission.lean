/-
  Which values a type admits.

  * `Kind.Admits`: what a kind admits, given what the nodes that it refers to admit;
  * `Graph.Admits`: the least relation between nodes and values that agrees with the kinds of
    the nodes (`admits_iff`), with its induction principle (`Graph.Admits.induction`);
  * `Graph.AdmitsAt`: what the top level of a name admits.

  A kind that is neither a union nor an intersection speaks only of smaller values
  (`Kind.Admits.of_smaller`); so induction on values meets recursive types only through
  unions and intersections.
-/
import SchemaTypes.Graph.Unify
import SchemaTypes.Json

namespace SchemaTypes

/-- How types are read: which strings a format has, and whether an object of a class may have
    other properties than the class lists. -/
structure Reading where
  formats : Format → String → Prop
  openClasses : Bool

/-- The reading in which classes are closed. -/
def Reading.closed (formats : Format → String → Prop) : Reading := ⟨formats, false⟩

/-- Objects that have every required property, with values that the types of the properties
    admit, and whose other values satisfy `others`. -/
def Properties.Admit (A : NodeId → Json → Prop) (ps : Properties) (others : Json → Prop)
    (fields : Json.Fields) : Prop :=
  (∀ name p, ps.get? name = some p → p.optional = false → name ∈ fields.map Prod.fst) ∧
    ∀ e ∈ fields, match ps.get? e.1 with
      | some p => A p.type e.2
      | none => others e.2

/-- What a kind admits, where `A` says what nodes admit. -/
def Kind.Admits (ρ : Reading) (A : NodeId → Json → Prop) (k : Kind) (v : Json) : Prop :=
  match k with
  | nothing => False
  | any => True
  | null => v = .null
  | bool => ∃ b, v = .bool b
  | integer => ∃ n : Number, v = .number n ∧ n.isWhole = true
  | double => ∃ n, v = .number n
  | string cases => ∃ s, v = .string s ∧ ∀ c ∈ cases, s ∈ c
  | formatted f => ∃ s, v = .string s ∧ ρ.formats f s
  | enumeration cases => ∃ s, v = .string s ∧ s ∈ cases
  | array items => ∃ vs, v = .array vs ∧ ∀ w ∈ vs, A items w
  | object ps additional =>
    ∃ fields, v = .object fields ∧ ps.Admit A (fun w => ∃ r ∈ additional, A r w) fields
  | record ps => ∃ fields, v = .object fields ∧ ps.Admit A (fun _ => ρ.openClasses = true) fields
  | map values => ∃ fields, v = .object fields ∧ ∀ e ∈ fields, A values e.2
  | union ms => ∃ m ∈ ms, A m v
  | intersection ms => ∀ m ∈ ms, A m v

/-- Whether a kind is neither a union nor an intersection. -/
def Kind.isGround : Kind → Bool
  | union _ | intersection _ => false
  | _ => true

namespace Kind

theorem isGround_iff {k : Kind} :
    k.isGround = true ↔ k.isUnion = false ∧ k.isIntersection = false := by
  cases k <;> simp [isGround, isUnion, isIntersection]

theorem mem_children_of_mem_unionMembers {k : Kind} {m : NodeId} (h : m ∈ k.unionMembers) :
    m ∈ k.children := by
  cases k with
  | union ms => exact h
  | _ => cases h

theorem mem_unionMembers_mapChildren {f : NodeId → NodeId} {k : Kind} {r : NodeId} :
    r ∈ (k.mapChildren f).unionMembers ↔ ∃ m ∈ k.unionMembers, f m = r := by
  cases k <;> simp [mapChildren, unionMembers]

theorem eq_union_of_isUnion {k : Kind} (h : k.isUnion = true) :
    k = .union (.ofList k.unionMembers) := by
  cases k with
  | union ms =>
    rw [Kind.unionMembers, Kind.union.injEq]
    ext m
    simp
  | _ => cases h

theorem isIntersection_of_union {k : Kind} (h : k.isUnion = true ∨ k = .nothing) :
    k.isIntersection = false := by
  rcases h with h | rfl
  · cases k <;> first | rfl | cases h
  · rfl

theorem isIntersection_mapChildren {f : NodeId → NodeId} {k : Kind} :
    (k.mapChildren f).isIntersection = k.isIntersection := by
  cases k <;> rfl

theorem mem_children_of_mem_intersectionMembers {k : Kind} {m : NodeId}
    (h : m ∈ k.intersectionMembers) : m ∈ k.children := by
  cases k with
  | intersection ms => exact h
  | _ => cases h

theorem isUnion_of_mem {k : Kind} {m : NodeId} (h : m ∈ k.unionMembers) : k.isUnion = true := by
  cases k <;> first | rfl | cases h

theorem isIntersection_of_mem {k : Kind} {m : NodeId} (h : m ∈ k.intersectionMembers) :
    k.isIntersection = true := by
  cases k with
  | intersection ms => rfl
  | _ => cases h

theorem eq_intersection_of_isIntersection {k : Kind} (h : k.isIntersection = true) :
    k = .intersection (.ofList k.intersectionMembers) := by
  cases k with
  | intersection ms =>
    rw [Kind.intersectionMembers, Kind.intersection.injEq]
    ext m
    simp
  | _ => cases h

end Kind

/-- What a node admits: the least relation that holds wherever the kind of the node admits a
    value by it. -/
inductive Graph.Admits (ρ : Reading) (g : Graph) : NodeId → Json → Prop
  | intro {r : NodeId} {v : Json} (A : NodeId → Json → Prop) :
      (∀ c w, A c w → Graph.Admits ρ g c w) → (g.kind r).Admits ρ A v → Graph.Admits ρ g r v

/-- What the top level of a name admits. -/
def Graph.AdmitsAt (ρ : Reading) (g : Graph) (name : String) (v : Json) : Prop :=
  ∃ r, g.topLevel? name = some r ∧ g.Admits ρ r v

/-! ## Monotonicity -/

variable {ρ : Reading} {A B : NodeId → Json → Prop}

theorem Properties.mem_types {ps : Properties} {name : String} {p : Property}
    (h : ps.get? name = some p) : p.type ∈ ps.types := by
  exact List.mem_map_of_mem (OrderedMap.mem_values_of_get? h)

theorem Properties.exists_of_mem_types {ps : Properties} {c : NodeId} (h : c ∈ ps.types) :
    ∃ name p, ps.get? name = some p ∧ p.type = c := by
  obtain ⟨p, hp, rfl⟩ := List.mem_map.1 h
  obtain ⟨⟨name, p⟩, he, rfl⟩ := List.mem_map.1 hp
  exact ⟨name, p, OrderedMap.get?_eq_some_iff.2 he, rfl⟩

theorem Properties.Admit.mono {ps : Properties} {P Q : Json → Prop} {fields : Json.Fields}
    (h : ps.Admit A P fields)
    (hA : ∀ r ∈ ps.types, ∀ e ∈ fields, A r e.2 → B r e.2)
    (hP : ∀ e ∈ fields, P e.2 → Q e.2) : ps.Admit B Q fields := by
  refine ⟨h.1, fun e he => ?_⟩
  have := h.2 e he
  split at this
  · next p hp => exact hA _ (Properties.mem_types hp) e he this
  · exact hP e he this

namespace Json

theorem size_lt_of_mem_items {w : Json} : ∀ {vs : List Json}, w ∈ vs → w.size < size (.array vs)
  | v :: vs, h => by
    simp only [size, sizeItems]
    rcases List.mem_cons.1 h with rfl | h
    · omega
    · have := size_lt_of_mem_items h
      simp only [size] at this
      omega

theorem size_lt_of_mem_fields {e : String × Json} :
    ∀ {fields : Fields}, e ∈ fields → e.2.size < size (.object fields)
  | (k, v) :: fields, h => by
    simp only [size, sizeFields]
    rcases List.mem_cons.1 h with rfl | h
    · exact Nat.lt_succ_of_le (Nat.le_add_right ..)
    · have := size_lt_of_mem_fields h
      simp only [size] at this
      omega

end Json

/-- A ground kind admits a value by what its children say of smaller values. -/
theorem Kind.Admits.of_smaller {k : Kind} {v : Json} (hk : k.isGround = true)
    (h : k.Admits ρ A v) (hAB : ∀ c ∈ k.children, ∀ w : Json, w.size < v.size → A c w → B c w) :
    k.Admits ρ B v := by
  cases k with
  | array items =>
    obtain ⟨vs, rfl, h⟩ := h
    exact ⟨vs, rfl, fun w hw => hAB items (by simp [children]) w
      (Json.size_lt_of_mem_items hw) (h w hw)⟩
  | object ps additional =>
    obtain ⟨fields, rfl, h⟩ := h
    refine ⟨fields, rfl, h.mono (fun r hr e he => ?_) fun e he => ?_⟩
    · exact hAB r (by simp [children, hr]) e.2 (Json.size_lt_of_mem_fields he)
    · rintro ⟨r, hr, h⟩
      refine ⟨r, hr, hAB r ?_ e.2 (Json.size_lt_of_mem_fields he) h⟩
      simp [children, Option.mem_def.1 hr]
  | record ps =>
    obtain ⟨fields, rfl, h⟩ := h
    exact ⟨fields, rfl, h.mono (fun r hr e he => hAB r hr e.2 (Json.size_lt_of_mem_fields he))
      fun _ _ => id⟩
  | map values =>
    obtain ⟨fields, rfl, h⟩ := h
    exact ⟨fields, rfl, fun e he => hAB values (by simp [children]) e.2
      (Json.size_lt_of_mem_fields he) (h e he)⟩
  | union ms => simp [isGround] at hk
  | intersection ms => simp [isGround] at hk
  | _ => exact h

/-- A kind admits a value by what its children say of values that are no larger. -/
theorem Kind.Admits.of_le {k : Kind} {v : Json} (h : k.Admits ρ A v)
    (hAB : ∀ c ∈ k.children, ∀ w : Json, w.size ≤ v.size → A c w → B c w) :
    k.Admits ρ B v := by
  by_cases hk : k.isGround = true
  · exact h.of_smaller hk fun c hc w hw => hAB c hc w (Nat.le_of_lt hw)
  cases k with
  | union ms =>
    obtain ⟨m, hm, h⟩ := h
    exact ⟨m, hm, hAB m hm v (Nat.le_refl _) h⟩
  | intersection ms => exact fun m hm => hAB m hm v (Nat.le_refl _) (h m hm)
  | _ => simp [isGround] at hk

theorem Kind.Admits.mono {k : Kind} {v : Json} (h : k.Admits ρ A v)
    (hAB : ∀ c ∈ k.children, ∀ w, A c w → B c w) : k.Admits ρ B v :=
  h.of_le fun c hc w _ => hAB c hc w

/-! ## The least relation -/

namespace Graph

variable {g : Graph} {r : NodeId} {v : Json}

theorem admits_iff : g.Admits ρ r v ↔ (g.kind r).Admits ρ (g.Admits ρ) v := by
  constructor
  · rintro ⟨A, hA, h⟩
    exact h.mono fun c _ w => hA c w
  · exact fun h => .intro _ (fun _ _ => id) h

/-- Whatever holds where the kind of a node admits a value by it holds of all that is
    admitted. -/
theorem Admits.induction {P : NodeId → Json → Prop}
    (hP : ∀ r v, (g.kind r).Admits ρ (fun c w => g.Admits ρ c w ∧ P c w) v → P r v)
    (h : g.Admits ρ r v) : P r v := by
  induction h with
  | intro A hA h ih => exact hP _ _ (h.mono fun c _ w hc => ⟨hA c w hc, ih c w hc⟩)

theorem admits_union {ms : SortedSet NodeId} (h : g.kind r = .union ms) :
    g.Admits ρ r v ↔ ∃ m ∈ ms, g.Admits ρ m v := by
  rw [admits_iff, h]
  rfl

theorem admits_intersection {ms : SortedSet NodeId} (h : g.kind r = .intersection ms) :
    g.Admits ρ r v ↔ ∀ m ∈ ms, g.Admits ρ m v := by
  rw [admits_iff, h]
  rfl

end Graph

/-! ## Renamed kinds -/

theorem Properties.get?_mapTypes (f : NodeId → NodeId) (ps : Properties) (name : String) :
    (ps.mapTypes f).get? name = (ps.get? name).map fun p => { p with type := f p.type } :=
  OrderedMap.get?_mapValues ..

theorem Properties.admit_mapTypes {f : NodeId → NodeId} {ps : Properties} {P : Json → Prop}
    {fields : Json.Fields} :
    (ps.mapTypes f).Admit A P fields ↔ ps.Admit (fun c => A (f c)) P fields := by
  simp only [Properties.Admit, Properties.get?_mapTypes]
  refine and_congr ⟨fun h name p hp => ?_, fun h name q hq => ?_⟩
    (forall₂_congr fun e _ => by cases ps.get? e.1 <;> rfl)
  · exact h name { p with type := f p.type } (by rw [hp]; rfl)
  obtain ⟨p, hp, rfl⟩ := Option.map_eq_some_iff.1 hq
  exact h name p hp

theorem Kind.admits_mapChildren {f : NodeId → NodeId} {k : Kind} {v : Json} :
    (k.mapChildren f).Admits ρ A v ↔ k.Admits ρ (fun c => A (f c)) v := by
  cases k with
  | object ps additional =>
    simp only [mapChildren, Admits, Properties.admit_mapTypes]
    cases additional <;> simp
  | record ps => simp only [mapChildren, Admits, Properties.admit_mapTypes]
  | union ms =>
    simp only [mapChildren, Admits, SortedSet.mem_map]
    constructor
    · rintro ⟨_, ⟨m, hm, rfl⟩, h⟩
      exact ⟨m, hm, h⟩
    · rintro ⟨m, hm, h⟩
      exact ⟨f m, ⟨m, hm, rfl⟩, h⟩
  | intersection ms => simp [mapChildren, Admits]
  | _ => rfl

end SchemaTypes
