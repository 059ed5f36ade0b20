/-
  Application of passes.

  A pass changes a graph and says whether its work is done.  After each application the
  graph is collected, so that two graphs can be compared.

  * `once` applies a pass and says whether the graph changed;
  * `exactlyOnce` demands that the pass is done after one application;
  * `toFixedPoint` applies it until the graph stays as it is, and demands that "done" and
    "unchanged" agree.
-/
import SchemaTypes.Error
import SchemaTypes.Graph.Walk

namespace SchemaTypes

/-- A change of a graph, with whether it leaves nothing to do. -/
abbrev Pass := Graph → Graph × Bool

/-- A pass that is always done. -/
def Pass.ofChange (f : Graph → Graph) : Pass := fun g => (f g, true)

/-- A computation on a graph, which it leaves behind also when it fails. -/
abbrev StageM := ExceptT StageError (StateM Graph)

namespace Stage

/-- Applies a pass; says whether it is done, and whether the graph changed. -/
def apply (pass : Pass) (g : Graph) : (Bool × Bool) × Graph :=
  let (h, done) := pass g
  let h := h.collect
  ((done, !h.same g), h)

/-- Applies a pass once, and says whether the graph changed. -/
def once (pass : Pass) : StageM Bool := do
  let (_, changed) ← modifyGet (apply pass)
  return changed

/-- Applies a pass once, after which it has to be done. -/
def exactlyOnce (stage : String) (pass : Pass) : StageM Unit := do
  let (done, _) ← modifyGet (apply pass)
  unless done do throw (.extraIteration stage)

/-- The most applications of a repeated pass. -/
def iterationLimit : Nat := 64

/-- Applies passes in turn until the graph stays as it is, at most `n` of them.
    `reportedDone` says whether the pass before was done, after which nothing may change. -/
def repeatFrom (stage : String) (passes : Nat → Pass) :
    Nat → Nat → Bool → StageM Unit
  | 0, _, _ => throw (.iterationLimit stage iterationLimit)
  | n + 1, i, reportedDone => do
    let (done, changed) ← modifyGet (apply (passes i))
    if !changed then
      unless done do throw (.notConverged stage)
    else if reportedDone then throw (.changedAfterDone stage)
    else repeatFrom stage passes n (i + 1) done

/-- Applies the passes in turn until the graph stays as it is. -/
def toFixedPoint (stage : String) (passes : Nat → Pass) : StageM Unit :=
  repeatFrom stage passes iterationLimit 0 false

end Stage

end SchemaTypes
