/-
  Names of types.

  Candidate names flow from the top levels down, layer by layer: properties name their
  types, items and values take the singular of their container's names, members the names
  of their union.  Then each class, object type, enumeration and union receives a final
  name that no other node has (`assignNames`); top levels keep their own.
-/
import SchemaTypes.Graph.Walk

namespace SchemaTypes.Graph

/-- Whether types of a kind receive names. -/
def isNamed : Kind → Bool
  | .record _ | .object _ _ | .enumeration _ | .union _ => true
  | _ => false

/-- The names that a type proposes for its children. -/
def proposals (k : Kind) (names : Option Names) : List (NodeId × Names) :=
  let ofProperties (ps : Properties) := ps.entries.map fun e => (e.2.type, Names.single e.1 true)
  match k, names with
  | .record ps, _ | .object ps none, _ | .object ps _, none => ofProperties ps
  | .object ps (some a), some ns => ofProperties ps ++ [(a, ns.singularize)]
  | .array child, some ns | .map child, some ns => [(child, ns.singularize)]
  | .union ms, some ns | .intersection ms, some ns => ms.toList.map (·, ns.makeInferred)
  | _, _ => []

/-! ## Layers -/

/-- The proposals of a layer for nodes that were not met yet. -/
def layerProposals {n : Nat} (g : Graph) (met : Met n) (layer : List NodeId) :
    List (NodeId × Names) :=
  (layer.flatMap fun r => proposals (g.kind r) (g.attributes r).names).filter fun p =>
    decide (met.lacks p.1)

/-- The proposals of each node joined. -/
def joinProposals (l : List (NodeId × Names)) : SortedMap NodeId Names :=
  l.foldl (fun m p => m.insertWith Names.add p.1 p.2) ∅

/-- The names of a node to which names are proposed.  Given names stay, and inferred ones
    if `keepNames`. -/
def acceptNames (keepNames : Bool) (proposed : Names) : Option Names → Names
  | none => proposed
  | some names => if !keepNames && names.areInferred then names.add proposed else names

/-- Proposes names to a node. -/
def propose (keepNames : Bool) (g : Graph) (p : NodeId × Names) : Graph :=
  let a := g.attributes p.1
  g.setAttributes p.1 { a with names := some (acceptNames keepNames p.2 a.names) }

/-- Lets names flow from a layer to the next, and so on, over at most `depth` layers. -/
def flow {n : Nat} (keepNames : Bool) : Nat → Graph → Met n → List NodeId → Graph
  | 0, g, _, _ => g
  | depth + 1, g, met, layer =>
    match g.layerProposals met layer with
    | [] => g
    | ps =>
      let proposed := joinProposals ps
      flow keepNames depth (proposed.toList.foldl (propose keepNames) g)
        (proposed.keys.foldl Met.insert met) proposed.keys

/-- Names a top level, unless it has names. -/
def nameTopLevel (g : Graph) (e : String × NodeId) : Graph :=
  let a := g.attributes e.2
  if a.names.isSome then g
  else g.setAttributes e.2 { a with names := some (.single e.1 false) }

/-- Lets names flow from the top levels.  Each layer meets nodes that no layer before it
    met, so that there are no more layers than nodes. -/
def spreadNames (keepNames : Bool) (g : Graph) : Graph :=
  let layer := g.topLevels.values.eraseDups
  flow keepNames g.size (g.topLevels.entries.foldl nameTopLevel g)
    (layer.foldl Met.insert (.nothing g.size)) layer

/-! ## Final names -/

/-- The first of the proposed names that is not used; else the first with a number, from
    two on.  Of one more number than there are used names, some gives a name that is not
    used. -/
def chooseName (proposed used : List String) : String :=
  match proposed.find? fun n => n ∉ used with
  | some n => n
  | none =>
    let base := proposed.headD Reference.placeholderName
    let numbered := (List.range (used.length + 1)).map fun i => base ++ toString (i + 2)
    (numbered.find? fun n => n ∉ used).getD base

/-- The names to try for a type. -/
def namesToTry (a : Attributes) : List String :=
  match a.names with
  | some names => names.proposed
  | none => [Reference.placeholderName]

/-- Assigns a name to a node that needs one, given the names used so far. -/
def assignName (s : Graph × List String) (r : NodeId) : Graph × List String :=
  let (g, used) := s
  match g.topLevels.entries.find? fun e => e.2 == r with
  | some (name, _) => (g.modify r ({ · with name := some name }), used)
  | none =>
    if isNamed (g.kind r) then
      let name := chooseName (namesToTry (g.attributes r)) used
      (g.modify r ({ · with name := some name }), name :: used)
    else (g, used)

/-- Assigns final names. -/
def assignNames (g : Graph) : Graph := (g.ids.foldl assignName (g, g.topLevels.keys)).1

/-- Gathers candidate names and assigns final ones. -/
def gatherNames (keepNames : Bool) (g : Graph) : Graph := (g.spreadNames keepNames).assignNames

end SchemaTypes.Graph
