/-
  References in range.

  Passes, drivers that apply them, redirections and collections are rows of small steps.  Each adds
  or changes one node, redirects references or collects the graph, and each leaves a graph whose
  references are places of nodes.

  * `Rewrite`: the passes, with all their parameters, alone or in turn;
  * `Stage.Proceeds`: a stage goes by steps to the graph that it leaves behind, also if it fails;
    so do the applications of passes (`proceeds_once`, `proceeds_exactlyOnce`,
    `proceeds_toFixedPoint`);
  * `Graph.Act`: a pass, an application of passes, a redirection or a collection;
  * `Graph.Traced`: the references of a graph have nodes, and places for collection;
  * `steps_of_acts`, `WellFormed.traced`: acts are rows of steps, and well-formed graphs are traced.
-/
import SchemaTypes.Proofs.Normalization

namespace SchemaTypes

open SchemaTypes.Graph

/-! ## Passes -/

/-- A pass over a graph with its parameters, or two passes in turn, which have to be done
    together. -/
inductive Rewrite where
  | removeIndirections
  | resolveIntersections
  | flattenUnions (conflateNumbers : Bool)
  | replaceObjects (leaveFull : Bool)
  | combineClasses (sameProperties : Bool)
  | inferMaps
  | expandStrings (inference : EnumInference)
  | absorbStrings
  | nothingToAny
  | optionalToNullable
  | mergeDuplicates
  | representFormats (representation : Format → Representation)
  | gatherNames (keepNames : Bool)
  | inTurn (first second : Rewrite)

namespace Rewrite

/-- What a pass does to a graph, and whether it is done. -/
def pass : Rewrite → Pass
  | removeIndirections => .ofChange Graph.removeIndirections
  | resolveIntersections => Graph.resolveIntersections
  | flattenUnions conflateNumbers => Graph.flattenUnions conflateNumbers
  | replaceObjects leaveFull => .ofChange (Graph.replaceObjects leaveFull)
  | combineClasses sameProperties => .ofChange (Graph.combineClasses sameProperties)
  | inferMaps => Graph.inferMaps
  | expandStrings inference => .ofChange (Graph.expandStrings inference)
  | absorbStrings => .ofChange Graph.absorbStrings
  | nothingToAny => .ofChange Graph.nothingToAny
  | optionalToNullable => .ofChange Graph.optionalToNullable
  | mergeDuplicates => Graph.mergeDuplicates
  | representFormats representation => .ofChange (Graph.representFormats representation)
  | gatherNames keepNames => .ofChange (Graph.gatherNames keepNames)
  | inTurn first second => fun g =>
    let (g, doneFirst) := first.pass g
    let (g, doneSecond) := second.pass g
    (g, doneFirst && doneSecond)

/-- **Every pass is a row of steps.** -/
theorem steps (p : Rewrite) {g : Graph} (hg : g.WellFormed) :
    Steps .all g (p.pass g).1 := by
  have hC := NodeClass.heritable_all
  induction p generalizing g with
  | removeIndirections => exact steps_removeIndirections hC hg.fit
  | resolveIntersections => exact steps_resolveIntersections hC hg.fit
  | flattenUnions conflateNumbers => exact steps_flattenUnions hC conflateNumbers hg.fit
  | replaceObjects leaveFull => exact (edits_replaceObjects hC leaveFull hg.fit).steps
  | combineClasses sameProperties => exact steps_combineClasses hC sameProperties hg.fit
  | inferMaps => exact (edits_inferMaps hC hg.fit).steps
  | expandStrings inference => exact (edits_expandStrings hC inference hg.fit).steps
  | absorbStrings => exact steps_absorbStrings hC hg.fit
  | nothingToAny => exact (edits_nothingToAny hC hg.fit).steps
  | optionalToNullable => exact (edits_optionalToNullable hg).steps
  | mergeDuplicates => exact steps_mergeDuplicates _ g
  | representFormats representation =>
    exact (edits_representFormats hC representation hg.fit).steps
  | gatherNames keepNames => exact (edits_gatherNames hC keepNames hg.fit).steps
  | inTurn first second ihFirst ihSecond =>
    have hfirst := ihFirst hg
    exact hfirst.trans (ihSecond (hfirst.kept hg).wellFormed)

end Rewrite

/-! ## Stages -/

namespace Stage

variable {C : NodeClass} {α β : Type} {stage : String}

/-- A stage goes by steps to the graph that it leaves behind, whether it succeeds or fails. -/
def Proceeds (C : NodeClass) (m : StageM α) : Prop :=
  ∀ g : Graph, g.Fit C → Passes (Graph.Step C) (fun _ => True) m g fun _ _ => True

/-- A pass goes by steps. -/
def PassProceeds (C : NodeClass) (pass : Pass) : Prop :=
  ∀ g : Graph, g.Fit C → Steps C g (pass g).1

theorem Proceeds.pure {a : α} : Proceeds C (pure a) := fun _ _ => Passes.pure trivial

theorem Proceeds.throw {e : StageError} : Proceeds C (throw e : StageM α) :=
  fun _ _ => Passes.throw trivial

theorem Proceeds.bind (hC : C.Heritable) {m : StageM α} {f : α → StageM β}
    (hm : Proceeds C m) (hf : ∀ a, Proceeds C (f a)) : Proceeds C (m >>= f) :=
  fun g hg => (hm g hg).bind fun a g₁ h _ => hf a g₁ (Steps.fit hC h hg).1

theorem Proceeds.discard {m : StageM α} (hm : Proceeds C m) : Proceeds C (discard m) :=
  fun g hg => (hm g hg).discard

theorem Proceeds.modify {f : Graph → Graph} (hf : ∀ g : Graph, g.Fit C → Steps C g (f g)) :
    Proceeds C (modify f) :=
  fun g hg => Passes.modify (hf g hg) trivial

theorem Proceeds.optionally {c : Bool} {m : StageM Unit} (hm : c = true → Proceeds C m) :
    Proceeds C (optionally c m) := by
  unfold Stage.optionally
  cases c with
  | true => exact hm rfl
  | false => exact .pure

/-- A pass is applied, and the graph collected. -/
theorem proceeds_apply {pass : Pass} (hpass : PassProceeds C pass) :
    Proceeds C (modifyGet (apply pass)) :=
  fun g hg => Passes.modifyGet ((hpass g hg).tail .collect) trivial

section

variable (hC : C.Heritable)

include hC

theorem proceeds_once {pass : Pass} (hpass : PassProceeds C pass) : Proceeds C (once pass) :=
  (proceeds_apply hpass).bind hC fun _ => .pure

theorem proceeds_exactlyOnce {pass : Pass} (hpass : PassProceeds C pass) :
    Proceeds C (exactlyOnce stage pass) := by
  refine (proceeds_apply hpass).bind hC fun x => ?_
  dsimp only
  split
  · exact .pure
  · exact .throw

theorem proceeds_repeatFrom {passes : Nat → Pass} (hpasses : ∀ i, PassProceeds C (passes i))
    (n i : Nat) (done : Bool) : Proceeds C (repeatFrom stage passes n i done) := by
  induction n generalizing i done with
  | zero => exact .throw
  | succ n ih =>
    refine (proceeds_apply (hpasses i)).bind hC fun x => ?_
    dsimp only
    split
    · split
      · exact .pure
      · exact .throw
    split
    · exact .throw
    · exact ih _ _

theorem proceeds_toFixedPoint {passes : Nat → Pass} (hpasses : ∀ i, PassProceeds C (passes i)) :
    Proceeds C (toFixedPoint stage passes) :=
  proceeds_repeatFrom hC hpasses iterationLimit 0 false

end

end Stage

/-! ## Acts -/

namespace Graph

variable {g g₁ g' : Graph}

/-- What may be done to a graph: a pass is applied, by itself or as a stage does that succeeds or
    fails, references are redirected to nodes that are there, or the graph is collected, perhaps
    with its properties put in order. -/
inductive Act (g : Graph) : Graph → Prop
  | pass (p : Rewrite) : Act g (p.pass g).1
  | once (p : Rewrite) : Act g ((Stage.once p.pass).run g).2
  | exactlyOnce (stage : String) (p : Rewrite) : Act g ((Stage.exactlyOnce stage p.pass).run g).2
  | toFixedPoint (stage : String) (passes : Nat → Rewrite) :
      Act g ((Stage.toFixedPoint stage fun i => (passes i).pass).run g).2
  | forward {moved : Redirection} (h : moved.Within g.size) : Act g (g.forward moved)
  | collect (alphabetize : Bool) :
      Act g (if alphabetize then g.collect.sortProperties else g.collect)

theorem Act.steps (hg : g.WellFormed) (h : Act g g₁) : Steps .all g g₁ := by
  have hC := NodeClass.heritable_all
  have hpass : ∀ p : Rewrite, Stage.PassProceeds .all p.pass :=
    fun p g hg => p.steps hg.wellFormed
  cases h with
  | pass p => exact p.steps hg
  | once p => exact (Stage.proceeds_once hC (hpass p) g hg.fit).reaches
  | exactlyOnce stage p => exact (Stage.proceeds_exactlyOnce hC (hpass p) g hg.fit).reaches
  | toFixedPoint stage passes =>
    exact (Stage.proceeds_toFixedPoint hC (fun i => hpass (passes i)) g hg.fit).reaches
  | forward h => exact .single (.forward h)
  | collect alphabetize =>
    have hcollect : Steps .all g g.collect := .single .collect
    cases alphabetize with
    | true =>
      exact hcollect.edits (edits_sortProperties hC (hcollect.kept hg).wellFormed.fit)
    | false => exact hcollect

theorem steps_of_acts (hg : g.WellFormed) (h : Relation.ReflTransGen Act g g') :
    Steps .all g g' := by
  induction h with
  | refl => exact .refl
  | tail _ hact ih => exact ih.trans (hact.steps (ih.kept hg).wellFormed)

/-- A node is referred to: as a top level, or as a child of a node. -/
def Referred (g : Graph) (r : NodeId) : Prop :=
  r ∈ g.topLevels.values ∨ ∃ s, r ∈ (g.kind s).children

/-- All references have nodes, and collection finds a place for each reference that it renames:
    those of the top levels and of what they lead to. -/
structure Traced (g : Graph) : Prop where
  node : ∀ r, g.Referred r → ∃ n, g.nodes[r]? = some n
  place : ∀ r, (r ∈ g.topLevels.values ∨ ∃ s ∈ g.reachable, r ∈ (g.kind s).children) →
    (places g.size g.reachable)[r]? = some (g.place r) ∧ g.reachable[g.place r]? = some r

theorem size_places (n : Nat) (row : List NodeId) : (places n row).size = n :=
  List.foldlRecOn (motive := fun a : Array Nat => a.size = n) row.zipIdx _ Array.size_replicate
    fun _ ha _ _ => Array.size_setIfInBounds.trans ha

theorem WellFormed.traced (hg : g.WellFormed) : g.Traced where
  node r hr := by
    have hlt : r < g.size := by
      rcases hr with hr | ⟨s, hr⟩
      · exact hg.2 r hr
      · exact hg.lt_of_mem_children hr
    exact ⟨_, Array.getElem?_eq_getElem hlt⟩
  place r hr := by
    have hreach : r ∈ g.reachable := by
      rcases hr with hr | ⟨s, hs, hr⟩
      · exact mem_reachable_of_mem_values hg hr
      · exact mem_reachable_of_mem_children hg hs hr
    have hlt : r < (places g.size g.reachable).size :=
      Nat.lt_of_lt_of_eq (lt_of_mem_walk hreach) (size_places ..).symm
    obtain ⟨hplace, heq⟩ := getElem_place hreach
    refine ⟨?_, by rw [List.getElem?_eq_getElem hplace, heq]⟩
    rw [place, Array.getD_eq_getD_getElem?, Array.getElem?_eq_getElem hlt, Option.getD_some]

/-- **No reference is ever out of range.**  Whatever is done to a well-formed graph, one after the
    other, is a row of steps; and all graphs that steps lead to, so all that come between, are
    well-formed and have the same names of top levels in the same order: each reference has a node,
    and collection finds a place for each that it renames. -/
theorem references_in_range (hg : g.WellFormed) (h : Relation.ReflTransGen Act g g') :
    Steps .all g g' ∧ ∀ g₁, Steps .all g g₁ →
      g₁.WellFormed ∧ g₁.topLevels.keys = g.topLevels.keys ∧ g₁.Traced := by
  refine ⟨steps_of_acts hg h, fun g₁ h₁ => ?_⟩
  have hkept := h₁.kept hg
  exact ⟨hkept.wellFormed, hkept.keys_eq, hkept.wellFormed.traced⟩

/-- A day that is a date and a string becomes a date, and then stands for its entries. -/
theorem references_in_range_journal :
    let resolve := Rewrite.inTurn .resolveIntersections (.flattenUnions true)
    let resolved := ((Stage.toFixedPoint "resolve" fun _ => resolve.pass).run Options.journal).2
    let moved := resolved.forward (.ofList [(0, 1)])
    Options.journal.WellFormed ∧ resolved.kind 1 = .formatted .date ∧
      moved.collect.sortProperties.topLevels = .ofList [("Entry", 0)] ∧
      moved.collect.sortProperties.WellFormed ∧
      moved.collect.sortProperties.topLevels.keys = Options.journal.topLevels.keys ∧
      moved.collect.sortProperties.Traced := by
  intro resolve resolved moved
  have hg : Options.journal.WellFormed := ⟨by decide, by decide⟩
  have hwithin : Redirection.Within (.ofList [(0, 1)]) resolved.size := by
    have hsize : resolved.size = 2 := by decide +kernel
    intro r t ht
    cases List.mem_singleton.1 (SortedMap.mem_of_get?_ofList ht)
    exact hsize ▸ Nat.one_lt_two
  have hacts : Relation.ReflTransGen Act Options.journal moved.collect.sortProperties :=
    .tail (.tail (.single (.toFixedPoint "resolve" fun _ => resolve)) (.forward hwithin))
      (.collect true)
  obtain ⟨hsteps, hall⟩ := references_in_range hg hacts
  exact ⟨hg, by decide +kernel, by decide +kernel, hall _ hsteps⟩

end Graph

end SchemaTypes
