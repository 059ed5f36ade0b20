/-
  Flattening of unions.

  `flattenUnions` replaces each union by a flat one: nested unions give their members
  (`leaves`), members of one category are merged (`mergeCategory`), a single member stands
  for its union.  Unions that still have an intersection among their leaves are left for
  later.
-/
import SchemaTypes.Graph.Category
import SchemaTypes.Graph.Unify
import SchemaTypes.Graph.Walk

namespace SchemaTypes.Graph

/-! ## Leaves -/

/-- A node and all nested members, where it is a union. -/
def unionWalk (g : Graph) (u : NodeId) : List NodeId := g.walk Kind.unionMembers [u]

/-- The nested members that are no unions. -/
def leaves (g : Graph) (u : NodeId) : List NodeId :=
  (g.unionWalk u).filter fun m => !(g.kind m).isUnion

/-- The unions nested in a union. -/
def nestedUnions (g : Graph) (u : NodeId) : List NodeId :=
  (g.unionWalk u).filter fun m => (g.kind m).isUnion && m != u

/-- The attributes of a union, joined with those of the nested ones. -/
def nestedAttributes (g : Graph) (u : NodeId) : Attributes :=
  (g.nestedUnions u).foldl (fun a n => a ∪ g.attributes n) (g.attributes u)

/-! ## Merging -/

/-- The strings that several kinds list. -/
def listedCases (kinds : List Kind) : SortedSet String :=
  .ofList (kinds.flatMap fun
    | .string (some cases) => cases.toList
    | .enumeration cases => cases.toList
    | _ => [])

/-- One string type for several: all strings if any of them is, and converted at the
    boundary only if all are, in the same way. -/
def mergedStrings (g : Graph) (rs : List NodeId) : Node :=
  let kinds := rs.map g.kind
  let cases := if kinds.contains (.string none) then none else some (listedCases kinds)
  let attributes := g.joinedAttributes rs
  let transformations := (rs.map fun r => (g.attributes r).transformation).eraseDups
  .new (.string cases)
    (if 1 < transformations.length then { attributes with transformation := none }
      else attributes)

/-- The types of the items of several kinds. -/
def itemTypes (kinds : List Kind) : SortedSet NodeId :=
  .ofList (kinds.flatMap fun
    | .array items => [items]
    | _ => [])

/-- One node for several of a category.  Types that are alike except for attributes are
    merged into the first. -/
def mergeCategory (g : Graph) (c : Category) : List NodeId → NodeId × Graph
  | [only] => (only, g)
  | rs =>
    let kinds := rs.map g.kind
    match c with
    | .string => (g.size, g.push (g.mergedStrings rs))
    | .enumeration =>
      (g.size, g.push (.new (.enumeration (listedCases kinds)) (g.joinedAttributes rs)))
    | .array =>
      let attributes := g.joinedAttributes rs
      let (items, g) := g.unionOf (itemTypes kinds)
      (g.size, g.push (.new (.array items) attributes))
    | .object =>
      let (n, g) := g.unifyObjects rs
      (g.size, g.push n)
    | _ =>
      let first := rs.headD 0
      (first, g.setAttributes first (g.joinedAttributes rs))

/-- What merging types of a category comes to: the only one, a new type, or the first one with
    the attributes of all. -/
theorem mergeCategory_cases {P : NodeId → Graph → Prop} {g : Graph} {c : Category}
    {rs : List NodeId} (hrs : rs ≠ []) (honly : ∀ r, rs = [r] → P r g)
    (hstring : c = .string → P g.size (g.push (g.mergedStrings rs)))
    (henumeration : c = .enumeration → P g.size
      (g.push (.new (.enumeration (listedCases (rs.map g.kind))) (g.joinedAttributes rs))))
    (harray : c = .array → P (g.unionOf (itemTypes (rs.map g.kind))).2.size
      ((g.unionOf (itemTypes (rs.map g.kind))).2.push
        (.new (.array (g.unionOf (itemTypes (rs.map g.kind))).1) (g.joinedAttributes rs))))
    (hobject : c = .object → P (g.unifyObjects rs).2.size
      ((g.unifyObjects rs).2.push (g.unifyObjects rs).1))
    (hfirst : c ≠ .string → c ≠ .enumeration → c ≠ .array → c ≠ .object → ∀ r ∈ rs,
      P r (g.setAttributes r (g.joinedAttributes rs))) :
    P (g.mergeCategory c rs).1 (g.mergeCategory c rs).2 := by
  unfold mergeCategory
  split
  · next only => exact honly only rfl
  split
  · exact hstring rfl
  · exact henumeration rfl
  · exact harray rfl
  · exact hobject rfl
  · next hs he ha ho =>
    obtain ⟨first, rest, rfl⟩ := List.exists_cons_of_ne_nil hrs
    exact hfirst hs he ha ho first List.mem_cons_self

/-- One node for the leaves of each category, in turn. -/
def mergeCategories (leaves : List NodeId) : List Category → Graph → List NodeId × Graph
  | [], g => ([], g)
  | c :: rest, g =>
    match leaves.filter fun m => (g.kind m).category? = some c with
    | [] => mergeCategories leaves rest g
    | rs =>
      let (r, g) := g.mergeCategory c rs
      let (merged, g) := mergeCategories leaves rest g
      (r :: merged, g)

/-- The categories of merged members: without integers where doubles take them in. -/
def mergedCategories (g : Graph) (conflateNumbers : Bool) (leaves : List NodeId) :
    List Category :=
  if conflateNumbers && leaves.any (fun m => (g.kind m).category? = some .double) then
    Category.all.filter (· ≠ .integer)
  else Category.all

/-- Members of pairwise different categories that admit what the leaves admit; where a
    leaf admits all values, that leaf alone. -/
def unify (g : Graph) (conflateNumbers : Bool) (leaves : List NodeId) : List NodeId × Graph :=
  match leaves.find? fun m => g.kind m = .any with
  | some m => ([m], g)
  | none => mergeCategories leaves (g.mergedCategories conflateNumbers leaves) g

/-- Unifying leaves keeps what merging some of them, of one category, keeps. -/
theorem unify_induction {P : Graph → Prop} {g : Graph} (conflateNumbers : Bool)
    {leaves : List NodeId}
    (hmerge : ∀ g₁ c rs, P g₁ → rs ≠ [] → rs.Sublist leaves →
      (∀ r ∈ rs, (g₁.kind r).category? = some c) → P (g₁.mergeCategory c rs).2)
    (hg : P g) : P (g.unify conflateNumbers leaves).2 := by
  have hcategories : ∀ (cs : List Category) (g₁ : Graph), P g₁ →
      P (mergeCategories leaves cs g₁).2 := by
    intro cs
    induction cs with
    | nil => exact fun _ h => h
    | cons c cs ih =>
      intro g₁ h
      unfold mergeCategories
      split
      · exact ih g₁ h
      · next hne =>
        refine ih _ (hmerge g₁ c _ h hne List.filter_sublist fun r hr => ?_)
        simpa using (List.mem_filter.1 hr).2
  unfold unify
  split
  · exact hg
  · exact hcategories _ g hg

/-! ## The pass -/

/-- What flattening has come to: the graph, where the references to unions of a single
    member go, and whether a union was left because of an intersection. -/
structure Flattening where
  graph : Graph
  redirection : Redirection
  waiting : Bool

/-- Flattens one union. -/
def Flattening.step (conflateNumbers : Bool) (s : Flattening) (u : NodeId) : Flattening :=
  let g := s.graph
  let leaves := g.leaves u
  if leaves.any fun m => (g.kind m).isIntersection then { s with waiting := true }
  else if g.isFlat conflateNumbers u then s
  else
    let attributes := g.nestedAttributes u
    match g.unify conflateNumbers leaves with
    | ([], g) => { s with graph := g.modify u ({ · with kind := .nothing, attributes }) }
    | ([only], g) =>
      { s with graph := g.addAttributes only attributes
               redirection := s.redirection.insert u only }
    | (ms, g) =>
      { s with graph := g.modify u ({ · with kind := .union (.ofList ms), attributes }) }

/-- All that a turn of a union can come to: it has to wait or is flat as it is, or its leaves are
    unified and it becomes a type without values, gives way to the only member, or gets all
    members. -/
theorem Flattening.step_cases {P : Flattening → Prop} {conflateNumbers : Bool} {s : Flattening}
    {u : NodeId}
    (hwaiting : ∀ l ∈ s.graph.leaves u, (s.graph.kind l).isIntersection = true →
      P { s with waiting := true })
    (hflat : s.graph.isFlat conflateNumbers u = true → P s)
    (hunify : (∀ l ∈ s.graph.leaves u, (s.graph.kind l).isIntersection = false) →
      s.graph.isFlat conflateNumbers u = false →
      ∀ ms g₁, s.graph.unify conflateNumbers (s.graph.leaves u) = (ms, g₁) →
        ∀ a, a = s.graph.nestedAttributes u →
          (ms = [] →
            P { s with graph := g₁.modify u ({ · with kind := .nothing, attributes := a }) }) ∧
          (∀ m, ms = [m] → P { s with
            graph := g₁.addAttributes m a
            redirection := s.redirection.insert u m }) ∧
          (2 ≤ ms.length → P { s with
            graph := g₁.modify u ({ · with kind := .union (.ofList ms), attributes := a }) })) :
    P (s.step conflateNumbers u) := by
  unfold step
  extract_lets g leaves attributes
  split
  · next hinter =>
    obtain ⟨l, hl, hi⟩ := List.any_eq_true.1 hinter
    exact hwaiting l hl hi
  next hinter =>
  split
  · next h => exact hflat h
  next hnot =>
  have hunify := hunify (by simpa using hinter) (by simpa using hnot)
  cases hu : g.unify conflateNumbers leaves with | mk ms g₁ =>
  obtain ⟨hnothing, honly, hunion⟩ := hunify ms g₁ hu attributes rfl
  rcases ms with _ | ⟨m, _ | ⟨n, rest⟩⟩
  · exact hnothing rfl
  · exact honly m rfl
  · exact hunion (by simp)

/-- Makes every union flat, and says whether all are. -/
def flattenUnions (conflateNumbers : Bool) (g : Graph) : Graph × Bool :=
  let s := (g.idsWhere Kind.isUnion).foldl (Flattening.step conflateNumbers) ⟨g, ∅, false⟩
  let g := (s.graph.forward s.redirection).collect
  (g, !s.waiting && g.ids.all (g.isFlat conflateNumbers))

end SchemaTypes.Graph
