/-
  Conversion of schemas into types.

  Every schema becomes an intersection: of a union of the primitive types, arrays and
  objects that it describes itself, and of the types of `$ref`, `allOf`, `oneOf` and
  `anyOf`.  The intersection is entered under the canonical reference of the schema before
  anything below it is converted (`Conversion.types`), so that a schema that refers to
  itself finds it.

  `Conversion.typeOf` is bounded by the number of schemas that it goes through, one inside
  the other; `Conversion.depthFor` bounds that number for given documents.
-/
import SchemaTypes.Attribute.Producer
import SchemaTypes.Graph.Builder
import SchemaTypes.Keywords
import SchemaTypes.Resolver

namespace SchemaTypes

/-- What a conversion has come to. -/
structure Conversion where
  resolver : Resolver
  builder : Builder
  /-- The types of schemas by their canonical references. -/
  types : OrderedMap Reference NodeId

/-- Steps of a conversion. -/
abbrev ConversionM := ExceptT ConversionError (StateM Conversion)

namespace Conversion

/-- A step of building. -/
def build {α : Type} (f : Builder → α × Builder) : ConversionM α :=
  modifyGet fun s => let (a, builder) := f s.builder; (a, { s with builder })

/-- A step of building without a result. -/
def change (f : Builder → Builder) : ConversionM Unit :=
  modify fun s => { s with builder := f s.builder }

/-- A step of resolving. -/
def resolving {α : Type} (m : ResolverM α) : ConversionM α := fun s =>
  let (result, resolver) := m.run s.resolver
  (result, { s with resolver })

/-- The type of a schema that is known already. -/
def known? (place : Reference) : ConversionM (Option NodeId) :=
  return (← get).types.get? place

/-- Enters the type of a schema. -/
def enter (place : Reference) (r : NodeId) : ConversionM Unit :=
  modify fun s => { s with types := s.types.insert place r }

/-- Converts a schema at a location to a type with attributes. -/
abbrev Converter := Json → Location → Attributes → ConversionM NodeId

/-! ## Attributes -/

/-- What the producers say about a schema. -/
def produce (producers : List Producer) (s : Schema) (place : Reference)
    (included : List Primitive) (cases : Option (List Json)) : List Produced :=
  producers.filterMap fun p => p s place included cases

/-- The attributes for one part of a type, of all producers. -/
def partOf (produced : List Produced) (part : Produced → Option Attributes) : Attributes :=
  .unionAll (produced.filterMap part)

/-- The attributes of the type of a schema.  Where there is `oneOf`, the producers are
    asked again for it; elsewhere they must not speak of a union. -/
def typeAttributes (s : Schema) (place : Reference) (produced : List Produced)
    (a : Attributes) : Except ConversionError Attributes :=
  if s.has "oneOf" then .ok (s.nameAttributes place a)
  else if produced.any fun p => p.forUnion.isSome || p.forCases.isSome then
    .error (.attributesWithoutUnion place)
  else .ok (s.nameAttributes place (a ∪ partOf produced (·.forType)))

/-- The attributes handed to the target of a reference: given names go along, others give
    way to the name of the target. -/
def targetAttributes (a : Attributes) (target : Reference) : Attributes :=
  if a.hasGivenNames then a else { a with names := some (.single target.name true) }

/-! ## Arrays -/

/-- The types of items, the first of which has index `i`. -/
def itemTypes (convert : Converter) (l : Location) (a : Attributes) (i : Nat) :
    List Json → ConversionM (List NodeId)
  | [] => return []
  | item :: rest => do
    let itemLocation := l.push [toString i]
    checkSchema item itemLocation.canonical
    let r ← convert item itemLocation a
    return r :: (← itemTypes convert l a (i + 1) rest)

/-- The type of the items of an array: of one schema, of any of several, or anything. -/
def itemType (convert : Converter) (s : Schema) (l : Location) (a : Attributes) :
    ConversionM NodeId :=
  match s.get? "items" with
  | none => build (·.primitive .any ∅)
  | some (.array items) => do
    let rs ← itemTypes convert (l.push ["items"]) a 0 items
    build (·.union (.ofList rs) ∅)
  | some v =>
    match v.isSchema with
    | true => convert v (l.push ["items"]) a
    | false => throw (.itemsNotSchema l.canonical v.typeName)

/-- The type of the arrays that a schema describes. -/
def arrayType (convert : Converter) (s : Schema) (l : Location) (a : Attributes) :
    ConversionM NodeId := do
  let items ← itemType convert s l a.singularized
  change (·.addAttributes items a.singularized)
  build (·.array items ∅)

/-! ## Objects -/

/-- The properties of an object type, with the types of their schemas. -/
def declaredProperties (convert : Converter) (l : Location) (required : List String) :
    Json.Fields → Properties → ConversionM Properties
  | [], ps => return ps
  | (name, v) :: rest, ps => do
    let propertyLocation := l.push ["properties", name]
    checkSchema v propertyLocation.canonical
    let r ← convert v propertyLocation (.named name true)
    declaredProperties convert l required rest (ps.insert name ⟨r, decide (name ∉ required)⟩)

/-- The type of further properties, if any are allowed. -/
def additionalType (convert : Converter) (s : Schema) (l : Location) (a : Attributes) :
    ConversionM (Option NodeId) :=
  match s.additional? with
  | none | some (.bool true) => some <$> build (·.primitive .any ∅)
  | some (.bool false) => return none
  | some v => do
    let additionalLocation := l.push ["additionalProperties"]
    checkSchema v additionalLocation.canonical
    some <$> convert v additionalLocation a.singularized

/-- Adds the required properties that are not declared, with the type of further ones. -/
def withUndeclared (place : Reference) (required : List String) (additional : Option NodeId)
    (ps : Properties) : Except ConversionError Properties :=
  match required.filter fun name => !ps.contains name, additional with
  | [], _ => .ok ps
  | _ :: _, none => .error (.additionalForbidsRequired place)
  | names, some r => .ok (names.foldl (fun ps name => ps.insert name ⟨r, false⟩) ps)

/-- The type of the objects that a schema describes. -/
def objectType (convert : Converter) (s : Schema) (l : Location) (a : Attributes) :
    ConversionM NodeId := do
  let required ← s.required l.canonical
  let properties ← s.properties l.canonical
  let required := Schema.allRequired required properties
  let ps ← declaredProperties convert l required (s.orderedProperties properties) ∅
  let additional ← additionalType convert s l a
  let ps ← withUndeclared l.canonical required additional ps
  build (·.object ps additional a)

/-! ## Members -/

/-- The types that a schema describes without strings, arrays and objects. -/
def plainTypes (included : List Primitive) (numbers : Attributes) : ConversionM (List NodeId) :=
  let kinds : List (Primitive × Kind × Attributes) :=
    [(.null, .null, ∅), (.number, .double, numbers), (.integer, .integer, numbers),
      (.boolean, .bool, ∅)]
  (kinds.filter fun e => decide (e.1 ∈ included)).mapM fun e => build (·.primitive e.2.1 e.2.2)

/-- The type of the strings that a schema describes: the listed ones, those of its format,
    or all. -/
def stringType (s : Schema) (a : Attributes) : ConversionM NodeId :=
  match s.cases?, s.format? with
  | some cases, _ => build (·.string (some cases) a)
  | none, some f => build (·.primitive (.formatted f) a)
  | none, none => build (·.string none a)

/-- The union of the types that a schema describes itself. -/
def ownUnion (convert : Converter) (s : Schema) (l : Location)
    (allowed : Option (List Primitive)) (produced : List Produced) (a : Attributes) :
    ConversionM NodeId := do
  let included := s.included allowed
  let inferred := a.makeInferred
  let plain ← plainTypes included (partOf produced (·.forNumber))
  let strings ←
    if .string ∈ included then
      pure [← stringType s (inferred ∪ partOf produced (·.forString))]
    else pure []
  let arrays ← if s.isOpenTo allowed .array then pure [← arrayType convert s l a] else pure []
  let objects ←
    if s.isOpenTo allowed .object then
      pure [← objectType convert s l (inferred ∪ partOf produced (·.forObject))]
    else pure []
  build (·.union (.ofList (plain ++ strings ++ arrays ++ objects)) inferred)

/-- The type of the target of `$ref`. -/
def targetType (convert : Converter) (l : Location) (a : Attributes) (ref : Json) :
    ConversionM NodeId :=
  match ref with
  | .string text => do
    let (target, targetLocation) ← resolving (Resolver.resolve l (Reference.parse text))
    convert target targetLocation (targetAttributes a targetLocation.canonical)
  | v => throw (.refNotText l.canonical v.typeName)

/-- The types of the schemas that an operation combines. -/
def operandTypes (convert : Converter) (l : Location) (a : Attributes) (operation : String)
    (operands : Json) : ConversionM (List NodeId) :=
  match operands with
  | .array operands => itemTypes convert (l.push [operation]) a.makeInferred 0 operands
  | _ => throw (.operationNotArray (l.push [operation]).canonical operation)

/-- Attributes of `oneOf`, one producer after the other: for the type, for each member,
    and, joined to those given, for the union. -/
def caseAttributes (l : Location) (r : NodeId) (members : List NodeId) :
    List Produced → Attributes → ConversionM Attributes
  | [], a => return a
  | p :: rest, a => do
    change (·.addAttributes r (p.forType.getD ∅))
    match p.forCases with
    | none => pure ()
    | some cases =>
      if cases.length ≠ members.length then
        throw (.caseCountMismatch l.canonical members.length cases.length)
      (members.zip cases).forM fun e => change (·.addAttributes e.1 e.2)
    caseAttributes l r members rest (a ∪ p.forUnion.getD ∅)

/-- The type of the members of `oneOf`. -/
def oneOfType (convert : Converter) (producers : List Producer) (s : Schema) (l : Location)
    (included : List Primitive) (a : Attributes) (r : NodeId) (operands : Json) :
    ConversionM NodeId := do
  let rs ← operandTypes convert l a "oneOf" operands
  let produced := produce producers s l.canonical included (some (operands.array?.getD []))
  let unionAttributes ← caseAttributes l r rs produced a.makeInferred
  build (·.union (.ofList rs) unionAttributes)

/-- The type of the members of `anyOf`. -/
def anyOfType (convert : Converter) (l : Location) (a : Attributes) (operands : Json) :
    ConversionM NodeId := do
  let rs ← operandTypes convert l a "anyOf" operands
  build (·.union (.ofList rs) a.makeInferred)

/-! ## Schemas -/

/-- The types that a keyword gives, if it is there. -/
def ofKeyword (s : Schema) (keyword : String) (f : Json → ConversionM (List NodeId)) :
    ConversionM (List NodeId) :=
  match s.get? keyword with
  | some v => f v
  | none => return []

/-- The type of a schema that is an object. -/
def schemaType (convert : Converter) (producers : List Producer) (s : Schema) (l : Location)
    (a : Attributes) : ConversionM NodeId := do
  let allowed ← s.types? l.canonical
  let included := s.included allowed
  let produced := produce producers s l.canonical included none
  let a ← typeAttributes s l.canonical produced a
  let r ← build (·.newIntersection a)
  enter l.canonical r
  let own ←
    if s.constrainsValues then pure [← ownUnion convert s l allowed produced a] else pure []
  let target ← ofKeyword s "$ref" fun v => return [← targetType convert l a v]
  let all ← ofKeyword s "allOf" (operandTypes convert l a "allOf")
  let one ← ofKeyword s "oneOf" fun v =>
    return [← oneOfType convert producers s l included a r v]
  let any ← ofKeyword s "anyOf" fun v => return [← anyOfType convert l a v]
  change (·.setMembers r (.ofList (own ++ target ++ all ++ one ++ any)))
  return r

/-- The type of a schema at a location, through at most `depth` schemas. -/
def typeOf (producers : List Producer) : Nat → Converter
  | 0, _, l, _ => throw (.tooDeep l.canonical)
  | depth + 1, v, l, a => do
    match ← known? l.canonical with
    | some r => return r
    | none =>
      let r ←
        match v with
        | .bool true => build (·.primitive .any ∅)
        | .bool false => throw (.falseSchema l.canonical)
        | v => do
          let s : Schema ← checkObject v l.canonical
          let l ← l.withId (s.get? "$id")
          schemaType (typeOf producers depth) producers s l a
      enter l.canonical r
      return r

/-- How many schemas a conversion can go through, one inside the other, in documents with
    `size` values altogether and `count` top levels: each is one of the values below the
    target of a reference, in one of the documents. -/
def depthFor (size count : Nat) : Nat :=
  let values := size + count + 1
  values * values * values

/-- Adds the types of named references as top levels, in order. -/
def addTopLevels (producers : List Producer) (depth : Nat) :
    List (String × Reference) → ConversionM Unit
  | [] => return
  | (name, r) :: rest => do
    let (v, l) ← resolving (Resolver.resolveTopLevel r)
    let t ← typeOf producers depth v l (.named name false)
    discard <| build (·.addTopLevel name t)
    addTopLevels producers depth rest

end Conversion

end SchemaTypes
