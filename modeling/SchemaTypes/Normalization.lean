/-
  Normalization of graphs.

  A converted graph goes through a fixed row of passes.  In the end there are no
  intersections, no types of listed strings, only flat unions, and no more than the target
  can express; and every type that needs one has a name.
-/
import SchemaTypes.Options
import SchemaTypes.Stage
import SchemaTypes.Graph.Classes
import SchemaTypes.Graph.Duplicates
import SchemaTypes.Graph.Flattening
import SchemaTypes.Graph.Indirection
import SchemaTypes.Graph.Naming
import SchemaTypes.Graph.Nullable
import SchemaTypes.Graph.Resolution

namespace SchemaTypes

namespace Graph

/-- Resolves intersections and flattens unions; both have to be done together. -/
def resolveAndFlatten (conflateNumbers : Bool) : Pass := fun g =>
  let (g, resolved) := g.resolveIntersections
  let (g, flattened) := g.flattenUnions conflateNumbers
  (g, resolved && flattened)

end Graph

namespace Options

/-- Whether unions keep only doubles of the two kinds of numbers. -/
def conflateNumbers (o : Options) : Bool := !o.target.bothNumbersInUnions

/-- Which listed strings become enumerations: all of them where schemas list them. -/
def enumInference (o : Options) (fromSchemas : Bool) : EnumInference :=
  if fromSchemas then .all else if o.inferEnums then .few else .none

/-- Flattens unions until all are flat. -/
def flattenAll (o : Options) : StageM Unit :=
  Stage.toFixedPoint "flatten unions" fun _ => Graph.flattenUnions o.conflateNumbers

/-- Merges similar classes, first those with the same properties; if there are any, also
    those that share most, and what the merging leaves in unions. -/
def combineSimilar (o : Options) : StageM Unit := do
  if ← Stage.once (.ofChange (Graph.combineClasses true)) then
    discard <| Stage.once (.ofChange (Graph.combineClasses false))
    o.flattenAll

/-- Brings a graph into the form that the options ask for.  `fromSchemas` says that the
    graph comes from schemas: their enumerations and names are kept. -/
def normalize (o : Options) (fromSchemas : Bool) : StageM Unit := do
  discard <| Stage.once (.ofChange Graph.removeIndirections)
  Stage.toFixedPoint "resolve intersections and flatten unions" fun _ =>
    Graph.resolveAndFlatten o.conflateNumbers
  discard <| Stage.once (.ofChange (Graph.replaceObjects o.target.fullObjects))
  o.flattenAll
  if o.combineClasses then o.combineSimilar
  if o.inferMaps then
    Stage.toFixedPoint "infer maps" fun _ => Graph.inferMaps
    o.flattenAll
  discard <| Stage.once (.ofChange (Graph.expandStrings (o.enumInference fromSchemas)))
  Stage.exactlyOnce "flatten unions after expanding strings"
    (Graph.flattenUnions o.conflateNumbers)
  if fromSchemas then discard <| Stage.once (.ofChange Graph.absorbStrings)
  discard <| Stage.once (.ofChange Graph.nothingToAny)
  if !o.target.optionalProperties then
    discard <| Stage.once (.ofChange Graph.optionalToNullable)
  Stage.toFixedPoint "fixed point" fun _ => Graph.mergeDuplicates
  discard <| Stage.once (.ofChange (Graph.representFormats o.representation))
  Stage.exactlyOnce "flatten unions after transformations"
    (Graph.flattenUnions o.conflateNumbers)
  modify fun g => if o.alphabetizeProperties then g.collect.sortProperties else g.collect
  modify (Graph.gatherNames fromSchemas)

end Options

end SchemaTypes
