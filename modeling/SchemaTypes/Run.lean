/-
  Runs: from inputs to a normalized graph of types.

  `Inputs` are inputs of several kinds; schemas are one of them.  `Inputs.makeGraph`
  converts them all and normalizes the graph.  Where all inputs are one schema text that
  was made elsewhere, `Inputs.passThrough?` gives it back.
-/
import SchemaTypes.Normalization
import SchemaTypes.SchemaInput

namespace SchemaTypes

/-- An input of another kind than schemas. -/
structure OtherInput where
  kind : String
  /-- Whether its types need normalization in any case. -/
  needsGraph : Bool
  /-- Whether enumerations and names are kept as those of schemas are. -/
  fromSchemas : Bool
  /-- The schema text that the input amounts to. -/
  text : Option String
  addTypes : Builder → Builder

/-- An input of a run. -/
inductive Input where
  | schema (i : SchemaInput)
  | other (i : OtherInput)

namespace Input

/-- The kind of an input. -/
def kind : Input → String
  | schema _ => "schema"
  | other i => i.kind

/-- Whether only a graph will do: a schema text alone is not enough. -/
def needsGraph : Input → Bool
  | schema i => i.hasOwnSchemas
  | other i => i.needsGraph

/-- Whether enumerations and names are kept. -/
def fromSchemas : Input → Bool
  | schema _ => true
  | other i => i.fromSchemas

/-- The one schema text that the input amounts to. -/
def text? : Input → Option String
  | schema i => i.singleText?
  | other i => i.text

/-- Adds the types of an input. -/
def addTypes (b : Builder) : Input → Except SourceError Builder × Input
  | schema i =>
    let (result, i) := i.addTypes b
    (result, schema i)
  | other i => (.ok (i.addTypes b), other i)

end Input

/-- The inputs of a run, in order. -/
abbrev Inputs := List Input

namespace Inputs

/-- Whether there is an input of the kind of schemas. -/
def hasSchemas (is : Inputs) : Bool := is.any (·.kind == "schema")

/-- The inputs with one of the kind of schemas; `new` where there is none. -/
def withSchemas (is : Inputs) (new : SchemaInput) : Inputs :=
  if is.hasSchemas then is else is ++ [.schema new]

/-- The first input of the kind of schemas, if schemas can be added to it. -/
def schemas? (is : Inputs) : Option SchemaInput :=
  match is.find? (·.kind == "schema") with
  | some (.schema i) => some i
  | _ => none

/-- Replaces the first input of the kind of schemas. -/
def setSchemas (i : SchemaInput) : Inputs → Inputs
  | [] => []
  | j :: rest => if j.kind == "schema" then .schema i :: rest else j :: setSchemas i rest

/-- Adds a source to the schemas, which are `new` where there are none. -/
def addSource (is : Inputs) (new : SchemaInput) (s : Source) :
    Except SourceError Unit × Inputs :=
  let is := is.withSchemas new
  match is.schemas? with
  | some i =>
    let (result, i) := i.addSource s
    (result, is.setSchemas i)
  | none => (.ok (), is)

/-- Adds the types of all inputs, up to the first that fails. -/
def addTypes (b : Builder) : Inputs → Except SourceError Builder × Inputs
  | [] => (.ok b, [])
  | i :: rest =>
    match i.addTypes b with
    | (.ok b, i) =>
      let (result, rest) := addTypes b rest
      (result, i :: rest)
    | (.error e, i) => (.error e, i :: rest)

/-- Whether some input needs a graph. -/
def needsGraph (is : Inputs) : Bool := is.any Input.needsGraph

/-- Whether enumerations and names are kept as those of schemas are. -/
def fromSchemas (is : Inputs) : Bool := is.any Input.fromSchemas

/-- The schema text of the inputs, if just one of them amounts to one. -/
def singleText? (is : Inputs) : Option String :=
  match is.filterMap Input.text? with
  | [only] => some only
  | _ => none

/-- The converted types of all inputs. -/
def convert (is : Inputs) (o : Options) : Except SourceError Graph × Inputs :=
  let (result, is) := is.addTypes (.new o.allPropertiesOptional)
  (result.map (·.graph), is)

/-- The types of all inputs, normalized. -/
def makeGraph (is : Inputs) (o : Options) : Except RunError Graph × Inputs :=
  let (result, is) := is.convert o
  match result with
  | .error e => (.error (.source e), is)
  | .ok g =>
    match (o.normalize is.fromSchemas).run g with
    | (.ok (), g) => (.ok g, is)
    | (.error e, _) => (.error (.stage e), is)

/-- The one schema text of the inputs, indented by four spaces, where no graph is
    needed. -/
def passThrough? (is : Inputs) : Except SourceError (Option String) :=
  if is.needsGraph then .ok none
  else
    match is.singleText? with
    | none => .ok none
    | some text =>
      ((documentOfText "schema source" text).mapError .load).map fun v => some (v.pretty 4)

end Inputs

end SchemaTypes
