/-
  Classes and maps in place of objects.

  * `replaceObjects` makes a class or a map of every object type, as its additional
    properties demand;
  * `combineClasses` merges similar classes that no schema prescribes;
  * `inferMaps` makes maps of such classes that look like dictionaries.
-/
import SchemaTypes.Graph.Unify

namespace SchemaTypes.Graph

/-! ## Object types -/

/-- Makes a node a class that is left alone from then on. -/
def fixClass (g : Graph) (r : NodeId) (ps : Properties) : Graph :=
  g.modify r ({ · with kind := .record ps, fixed := true })

/-- Replaces one object type.  Without additional properties, or if those may be anything,
    it becomes a class; without named ones a map; with both kinds a map of all their
    types, unless such objects are left. -/
def replaceObject (leaveFull : Bool) (g : Graph) (r : NodeId) : Graph :=
  match g.kind r with
  | .object ps additional =>
    if leaveFull && !ps.isEmpty && additional.isSome then g
    else
      match additional with
      | none => g.fixClass r ps
      | some values =>
        if ps.isEmpty then g.setKind r (.map values)
        else if g.kind values = .any then g.fixClass r ps
        else
          let (values, g) := g.unionOf (.ofList (values :: ps.types))
          g.setKind r (.map values)
  | _ => g

/-- Whether a kind is an object type with both named and additional properties possible. -/
def isObject : Kind → Bool
  | .object _ _ => true
  | _ => false

/-- What replacing a type comes to: it stays if it is no object type or is to be left; else it
    becomes a class, a map, or a map of all its types. -/
theorem replaceObject_cases {P : Graph → Prop} {leaveFull : Bool} {g : Graph} {r : NodeId}
    (hother : isObject (g.kind r) = false → P g)
    (hleft : ∀ ps additional, g.kind r = .object ps additional → leaveFull = true → P g)
    (hclass : ∀ ps additional, g.kind r = .object ps additional → P (g.fixClass r ps))
    (hmap : ∀ ps values, g.kind r = .object ps (some values) → ps.isEmpty = true →
      P (g.setKind r (.map values)))
    (hunion : ∀ ps values, g.kind r = .object ps (some values) →
      P ((g.unionOf (.ofList (values :: ps.types))).2.setKind r
        (.map (g.unionOf (.ofList (values :: ps.types))).1))) :
    P (replaceObject leaveFull g r) := by
  unfold replaceObject
  split
  · next ps additional hr =>
    split
    · next hleave =>
      rw [Bool.and_eq_true, Bool.and_eq_true] at hleave
      exact hleft ps additional hr hleave.1.1
    cases additional with
    | none => exact hclass ps none hr
    | some values =>
      dsimp only
      split
      · next hempty => exact hmap ps values hr hempty
      split
      · exact hclass ps (some values) hr
      · exact hunion ps values hr
  · next hne =>
    refine hother ?_
    unfold isObject
    split
    · next ps additional hr => exact absurd hr (hne ps additional)
    · rfl

/-- Replaces all object types by classes and maps. -/
def replaceObjects (leaveFull : Bool) (g : Graph) : Graph :=
  (g.idsWhere isObject).foldl (replaceObject leaveFull) g

/-! ## Similar classes -/

/-- The properties of a class. -/
def classProperties? (g : Graph) (r : NodeId) : Option Properties :=
  match g.kind r with
  | .record ps => some ps
  | _ => none

theorem classProperties?_eq_some {g : Graph} {r : NodeId} {ps : Properties} :
    g.classProperties? r = some ps ↔ g.kind r = .record ps := by
  unfold classProperties?
  cases g.kind r <;> simp

/-- Whether a kind is compatible with every other. -/
def isLoose : Kind → Bool
  | .null | .any | .nothing | .union _ => true
  | _ => false

/-- Whether two types may be the types of one property. -/
def compatible (g : Graph) (a b : NodeId) : Bool :=
  a == b || (g.kind a).name == (g.kind b).name || isLoose (g.kind a) || isLoose (g.kind b)

/-- Whether a number of common properties is enough of the larger number: three
    quarters. -/
def overlapEnough (common largest : Nat) : Bool := 3 * largest ≤ 4 * common

/-- Whether two classes are similar: enough of their properties are common, or all of them
    if `sameProperties`, and those are compatible. -/
def similar (sameProperties : Bool) (g : Graph) (a b : NodeId) : Bool :=
  match g.classProperties? a, g.classProperties? b with
  | some ps, some qs =>
    let common := ps.keys.filter qs.contains
    let enough :=
      if sameProperties then common.length == ps.size && common.length == qs.size
      else overlapEnough common.length (max ps.size qs.size)
    !ps.isEmpty && !qs.isEmpty && enough && common.all fun name =>
      match ps.get? name, qs.get? name with
      | some p, some q => g.compatible p.type q.type
      | _, _ => false
  | _, _ => false

/-- A class with the classes that are merged into it. -/
abbrev ClassGroup := NodeId × List NodeId

/-- Adds a class to the first group whose first class is similar to it, or as a new
    group. -/
def addToGroups (sameProperties : Bool) (g : Graph) (c : NodeId) :
    List ClassGroup → List ClassGroup
  | [] => [(c, [])]
  | group :: rest =>
    if g.similar sameProperties group.1 c then (group.1, group.2 ++ [c]) :: rest
    else group :: addToGroups sameProperties g c rest

/-- Groups of similar classes among those that are not fixed. -/
def classGroups (sameProperties : Bool) (g : Graph) : List ClassGroup :=
  (g.ids.filter fun r => !(g.node r).fixed && (g.classProperties? r).isSome).foldl
    (fun groups c => g.addToGroups sameProperties c groups) []

/-- Merges the classes of a group into the first. -/
def mergeGroup (g : Graph) (group : ClassGroup) : Graph :=
  let (n, g) := g.unifyObjects (group.1 :: group.2)
  g.modify group.1 fun _ => n

/-- Merges similar classes. -/
def combineClasses (sameProperties : Bool) (g : Graph) : Graph :=
  let groups := (g.classGroups sameProperties).filter fun group => !group.2.isEmpty
  let redirection : Redirection :=
    .ofList (groups.flatMap fun group => group.2.map (·, group.1))
  (groups.foldl mergeGroup g).forward redirection

/-! ## Dictionaries -/

/-- The least number of properties of one type that makes a dictionary. -/
def dictionaryMin : Nat := 20

/-- Whether a name consists of digits. -/
def isNumeral (name : String) : Bool :=
  !name.isEmpty && name.toList.all Char.isDigit

/-- Whether properties look like the entries of a dictionary: they are numbered, or many
    and of one type. -/
def looksLikeMap (g : Graph) (ps : Properties) : Bool :=
  decide (2 ≤ ps.size) &&
    (ps.keys.all isNumeral ||
      decide (dictionaryMin ≤ ps.size) &&
        match ps.types with
        | [] => false
        | first :: rest => rest.all fun t => t == first || (g.kind t).same (g.kind first))

/-- Makes a map of a class that looks like one; and says whether it did. -/
def inferMap (g : Graph) (r : NodeId) : Bool × Graph :=
  match g.classProperties? r with
  | some ps =>
    if !(g.node r).fixed && g.looksLikeMap ps then
      let (values, g) := g.unionOf (.ofList ps.types)
      (true, g.setKind r (.map values))
    else (false, g)
  | none => (false, g)

/-- A class that no schema prescribes. -/
def FreeClass (g : Graph) (r : NodeId) (ps : Properties) : Prop :=
  g.kind r = .record ps ∧ (g.node r).fixed = false

/-- A turn leaves the graph alone, or makes a map of the types of a class. -/
theorem inferMap_cases (g : Graph) (r : NodeId) :
    ((∀ ps, g.FreeClass r ps → g.looksLikeMap ps = false) ∧ g.inferMap r = (false, g)) ∨
    ∃ ps, g.FreeClass r ps ∧ g.looksLikeMap ps = true ∧
      g.inferMap r = (true, (g.unionOf (.ofList ps.types)).2.setKind r
        (.map (g.unionOf (.ofList ps.types)).1)) := by
  unfold inferMap
  cases hps : g.classProperties? r with
  | none =>
    refine .inl ⟨fun ps h => ?_, rfl⟩
    rw [classProperties?_eq_some.2 h.1] at hps
    cases hps
  | some ps =>
    rw [classProperties?_eq_some] at hps
    dsimp only
    split
    · next hturn =>
      rw [Bool.and_eq_true, Bool.not_eq_true'] at hturn
      exact .inr ⟨ps, ⟨hps, hturn.1⟩, hturn.2, rfl⟩
    · next hturn =>
      refine .inl ⟨fun qs h => ?_, rfl⟩
      cases h.1.symm.trans hps
      simpa [h.2] using hturn

/-- Makes maps of classes that look like dictionaries, and says whether there were none. -/
def inferMaps (g : Graph) : Graph × Bool :=
  g.ids.foldl (fun (g, done) r =>
    let (changed, g) := g.inferMap r
    (g, done && !changed)) (g, true)

theorem inferMaps_fst (g : Graph) :
    g.inferMaps.1 = g.ids.foldl (fun g r => (g.inferMap r).2) g :=
  (List.foldl_hom Prod.fst fun _ _ => rfl).symm

end SchemaTypes.Graph
