/-
  Normalization in phases.

  * `Options.resolveAll`, `expandAll`, `simplifyAll`, `representAll` and so on: the stages of
    normalization that belong together;
  * `Options.normalize_eq`: normalization is these phases in turn, of which some are left out
    as the options demand (`Stage.optionally`).
-/
import SchemaTypes.Normalization
import SchemaTypes.Proofs.Ensures

namespace SchemaTypes

namespace Stage

/-- A stage that is left out unless a condition holds. -/
def optionally (c : Bool) (m : StageM Unit) : StageM Unit := if c then m else pure ()

theorem ensures_optionally {c : Bool} {m : StageM Unit} {g : Graph} {Q : Graph → Prop}
    (hm : c = true → Ensures m g fun _ => Q) (hc : c = false → Q g) :
    Ensures (optionally c m) g fun _ => Q := by
  unfold optionally
  cases c with
  | true => exact hm rfl
  | false => exact ensures_pure (hc rfl)

end Stage

namespace Options

open Stage (optionally)

/-- Intersections are resolved, and classes and maps made of object types. -/
def resolveAll (o : Options) : StageM Unit := do
  discard <| Stage.once (.ofChange Graph.removeIndirections)
  Stage.toFixedPoint "resolve intersections and flatten unions" fun _ =>
    Graph.resolveAndFlatten o.conflateNumbers
  discard <| Stage.once (.ofChange (Graph.replaceObjects o.target.fullObjects))
  o.flattenAll

/-- Maps are made of classes that look like dictionaries. -/
def inferAllMaps (o : Options) : StageM Unit := do
  Stage.toFixedPoint "infer maps" fun _ => Graph.inferMaps
  o.flattenAll

/-- Enumerations or plain strings are made of listed strings. -/
def expandAll (o : Options) (fromSchemas : Bool) : StageM Unit := do
  discard <| Stage.once (.ofChange (Graph.expandStrings (o.enumInference fromSchemas)))
  Stage.exactlyOnce "flatten unions after expanding strings"
    (Graph.flattenUnions o.conflateNumbers)

/-- Types are simplified one by one, and merged where they are equal. -/
def simplifyAll (o : Options) (fromSchemas : Bool) : StageM Unit := do
  optionally fromSchemas (discard <| Stage.once (.ofChange Graph.absorbStrings))
  discard <| Stage.once (.ofChange Graph.nothingToAny)
  optionally (!o.target.optionalProperties)
    (discard <| Stage.once (.ofChange Graph.optionalToNullable))
  Stage.toFixedPoint "fixed point" fun _ => Graph.mergeDuplicates

/-- Formats are represented as the target does. -/
def representAll (o : Options) : StageM Unit := do
  discard <| Stage.once (.ofChange (Graph.representFormats o.representation))
  Stage.exactlyOnce "flatten unions after transformations"
    (Graph.flattenUnions o.conflateNumbers)

/-- The types are put in their final order and named. -/
def finish (o : Options) (fromSchemas : Bool) : StageM Unit := do
  modify fun g => if o.alphabetizeProperties then g.collect.sortProperties else g.collect
  modify (Graph.gatherNames fromSchemas)

/-- **Normalization in phases.** -/
theorem normalize_eq (o : Options) (fromSchemas : Bool) : o.normalize fromSchemas = (do
    o.resolveAll
    optionally o.combineClasses o.combineSimilar
    optionally o.inferMaps o.inferAllMaps
    o.expandAll fromSchemas
    o.simplifyAll fromSchemas
    o.representAll
    o.finish fromSchemas) := by
  unfold normalize resolveAll inferAllMaps expandAll simplifyAll representAll finish optionally
  cases o.combineClasses <;> cases o.inferMaps <;> cases fromSchemas <;>
    cases o.target.optionalProperties <;>
    simp only [bind_assoc, pure_bind, if_true, if_false, Bool.false_eq_true, Bool.not_true,
      Bool.not_false]

end Options

end SchemaTypes
