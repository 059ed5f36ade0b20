/-
  Naming gives names alone.

  * `Graph.SameTypes`: graphs of the same kinds, with the same top levels;
  * `lacks_of_mem_keys`: names are proposed to nodes that were not met;
  * `nameTopLevel_cases`, `assignName_cases`: what a turn of naming does;
  * `spreadNames_induction`: what spreading names keeps;
  * `sameTypes_gatherNames`: so is a graph after its types were named.
-/
import SchemaTypes.Graph.Naming
import SchemaTypes.Proofs.Simulation

namespace SchemaTypes.Graph

variable {g g₁ g₂ : Graph}

/-! ## Graphs of the same types -/

/-- The graphs differ at most in the attributes and names of nodes. -/
structure SameTypes (g g₁ : Graph) : Prop where
  size_eq : g₁.size = g.size
  kind_eq : ∀ r, g₁.kind r = g.kind r
  topLevels_eq : g₁.topLevels = g.topLevels

namespace SameTypes

theorem refl (g : Graph) : g.SameTypes g := ⟨rfl, fun _ => rfl, rfl⟩

theorem trans (h : g.SameTypes g₁) (h' : g₁.SameTypes g₂) : g.SameTypes g₂ where
  size_eq := h'.size_eq.trans h.size_eq
  kind_eq r := (h'.kind_eq r).trans (h.kind_eq r)
  topLevels_eq := h'.topLevels_eq.trans h.topLevels_eq

theorem symm (h : g.SameTypes g₁) : g₁.SameTypes g where
  size_eq := h.size_eq.symm
  kind_eq r := (h.kind_eq r).symm
  topLevels_eq := h.topLevels_eq.symm

theorem modify (g : Graph) (r : NodeId) {f : Node → Node} (hf : ∀ n, (f n).kind = n.kind) :
    g.SameTypes (g.modify r f) where
  size_eq := size_modify ..
  kind_eq s := by
    rw [kind, node_modify_eq]
    split
    · exact hf _
    · rfl
  topLevels_eq := rfl

end SameTypes

/-! ## Proposals -/

/-- Only nodes that names are proposed to get names. -/
theorem mem_joinProposals {l : List (NodeId × Names)} {e : NodeId × Names}
    (he : e ∈ (joinProposals l).toList) : e.1 ∈ l.map Prod.fst := by
  have hkeys : ∀ (m : SortedMap NodeId Names) (l : List (NodeId × Names)),
      ∀ k ∈ (l.foldl (fun m p => m.insertWith Names.add p.1 p.2) m).keys,
        k ∈ m.keys ∨ k ∈ l.map Prod.fst := by
    intro m l
    induction l generalizing m with
    | nil => exact fun k hk => .inl hk
    | cons p l ih =>
      intro k hk
      rw [List.map_cons, List.mem_cons, ← or_assoc]
      refine (ih _ k hk).imp_left fun hk => ?_
      have hinsert : (m.insertWith Names.add p.1 p.2).keys = SortedSet.insertSorted p.1 m.keys :=
        SortedMap.map_fst_insertEntry ..
      rw [hinsert, SortedSet.mem_insertSorted] at hk
      exact hk.symm
  exact (hkeys ∅ l e.1 (List.mem_map_of_mem he)).resolve_left List.not_mem_nil

/-- What names are proposed to was not met. -/
theorem lacks_of_mem_keys {n : Nat} {met : Met n} {layer : List NodeId} {r : NodeId}
    (hr : r ∈ (joinProposals (g.layerProposals met layer)).keys) : met.lacks r := by
  obtain ⟨e, he, rfl⟩ := List.mem_map.1 hr
  obtain ⟨p, hp, hpe⟩ := List.mem_map.1 (mem_joinProposals he)
  exact hpe ▸ of_decide_eq_true (List.mem_filter.1 hp).2

/-- Given names stay where further names are proposed, and inferred ones if they are to be kept. -/
theorem acceptNames_of_given {keepNames : Bool} {names : Names}
    (h : names.areInferred = false ∨ keepNames = true) (proposed : Names) :
    acceptNames keepNames proposed (some names) = names := by
  rw [acceptNames, if_neg]
  rcases h with h | h <;> simp [h]

/-! ## Spread names -/

/-- A top level that has names keeps them; any other gets its own. -/
theorem nameTopLevel_cases {P : Graph → Prop} {e : String × NodeId}
    (hnamed : (g.attributes e.2).names.isSome = true → P g)
    (hname : (g.attributes e.2).names = none → P (g.setAttributes e.2
      { g.attributes e.2 with names := some (.single e.1 false) })) : P (nameTopLevel g e) := by
  unfold nameTopLevel
  extract_lets a
  split
  · next hsome => exact hnamed hsome
  · next hnone => exact hname (Option.not_isSome_iff_eq_none.1 hnone)

/-- Spreading names keeps what changes of attributes keep that leave such names alone. -/
theorem spreadNames_induction {P : Graph → Prop} (keepNames : Bool)
    (hP : ∀ (g : Graph) r a, P g →
      (∀ names, (g.attributes r).names = some names →
        names.areInferred = false ∨ keepNames = true → a.names = some names) →
      P (g.setAttributes r a))
    (hg : P g) : P (g.spreadNames keepNames) := by
  have htop : P (g.topLevels.entries.foldl nameTopLevel g) := by
    refine List.foldlRecOn (motive := P) _ _ hg fun g₁ h e _ => ?_
    refine nameTopLevel_cases (fun _ => h) fun hnone => ?_
    exact hP g₁ e.2 _ h fun names hnames _ => by cases hnone.symm.trans hnames
  have hpropose : ∀ (g₁ : Graph) p, P g₁ → P (propose keepNames g₁ p) := fun g₁ p h =>
    hP g₁ p.1 _ h fun names hnames hgiven => by
      rw [hnames]
      exact congrArg some (acceptNames_of_given hgiven p.2)
  have hflow : ∀ {n : Nat} (depth : Nat) (g₁ : Graph) (met : Met n) (layer : List NodeId),
      P g₁ → P (flow keepNames depth g₁ met layer) := by
    intro n depth
    induction depth with
    | zero => exact fun _ _ _ h => h
    | succ depth ih =>
      intro g₁ met layer h
      unfold flow
      split
      · exact h
      · exact ih _ _ _ (List.foldlRecOn (motive := P) _ _ h fun g₂ h p _ => hpropose g₂ p h)
  exact hflow _ _ _ _ htop

theorem sameTypes_spreadNames (keepNames : Bool) (g : Graph) :
    g.SameTypes (g.spreadNames keepNames) :=
  spreadNames_induction keepNames (fun g₁ r _ h _ => h.trans (.modify g₁ r fun _ => rfl)) (.refl g)

/-! ## Assigned names -/

/-- A turn leaves the graph alone, or gives the node a name. -/
theorem assignName_cases {P : Graph → Prop} {s : Graph × List String} {r : NodeId} (hs : P s.1)
    (hname : ∀ name, P (s.1.modify r ({ · with name := some name }))) : P (assignName s r).1 := by
  obtain ⟨g, used⟩ := s
  dsimp only [assignName]
  split
  · exact hname _
  · split
    · exact hname _
    · exact hs

theorem sameTypes_assignName (s : Graph × List String) (r : NodeId) :
    s.1.SameTypes (assignName s r).1 :=
  assignName_cases (.refl s.1) fun _ => .modify s.1 r fun _ => rfl

theorem sameTypes_assignNames (g : Graph) : g.SameTypes g.assignNames :=
  List.foldlRecOn (motive := fun s : Graph × List String => g.SameTypes s.1) _ _ (.refl g)
    fun s h r _ => h.trans (sameTypes_assignName s r)

/-- **Naming leaves the types as they are.** -/
theorem sameTypes_gatherNames (keepNames : Bool) (g : Graph) :
    g.SameTypes (g.gatherNames keepNames) :=
  (sameTypes_spreadNames keepNames g).trans (sameTypes_assignNames _)

end SchemaTypes.Graph
