/-
  What can go wrong, and how it is told.

  Errors say where and why; their texts are made only by the `message` functions.
  `exitCode` is 3 for documents that cannot be had and 2 for everything else.
-/
import SchemaTypes.Reference
import SchemaTypes.Json.Printer

namespace SchemaTypes

/-- Where a schema is: by its place in a document, which identifies it, and as it was
    reached, relative to the nearest `$id`. -/
structure Location where
  canonical : Reference
  reached : Reference
  /-- Whether an `$id` was declared here or further up. -/
  hasId : Bool
  deriving DecidableEq

/-- The location as written. -/
def Location.text (l : Location) : String := l.reached.text ++ " (" ++ l.canonical.text ++ ")"

/-- Why a document could not be had. -/
inductive LoadError where
  | fileNotFound (path : String)
  | unreadable (path : String) (reason : String)
  | notRegistered (address : String)
  | invalidJson (address : String)
  | notASchema (address : String) (actual : String)

/-- Why schemas could not be turned into types. -/
inductive ConversionError where
  | schemaIsArray (place : Reference)
  | schemaIsNull (place : Reference)
  | invalidSchema (place : Reference) (actual : String)
  | falseSchema (place : Reference)
  | typeNotTextOrArray (place : Reference) (actual : String)
  | typeElementNotText (place : Reference) (actual : Json)
  | noType (place : Reference)
  | unknownType (place : Reference) (name : String)
  | requiredNotArray (place : Reference) (actual : String)
  | requiredElementNotText (place : Reference) (actual : Json)
  | refNotText (place : Reference) (actual : String)
  | operationNotArray (place : Reference) (operation : String)
  | itemsNotSchema (place : Reference) (actual : String)
  | propertiesNotObject (place : Reference) (actual : String)
  | additionalForbidsRequired (place : Reference)
  | topLevelUnavailable (address : String)
  | unavailable (address : String) (base : Reference)
  | keyNotFound (place : Reference) (key : String)
  | indexNotFound (place : Reference) (index : Nat)
  | indexNotNumber (place : Reference) (key : String)
  | pathNotInDocument (place : Reference)
  | noAddress (place : Reference)
  | crawledTwice (address : String)
  | idMustHaveAddress (place : Location) (id : String)
  | attributesWithoutUnion (place : Reference)
  | caseCountMismatch (place : Reference) (expected actual : Nat)
  /-- References lead further than they may.  Where the bound is `Conversion.depthFor` the
      documents, they do not. -/
  | tooDeep (place : Reference)

/-- Why the sources of a run could not be used. -/
inductive SourceError where
  | noUris (name : String)
  | noName (uri : String)
  | typesFromBoolean (reference : Reference)
  | additionalUnavailable (address : String)
  | load (e : LoadError)
  | conversion (e : ConversionError)

/-- How a stage broke its promise to come to an end. -/
inductive StageError where
  | notConverged (stage : String)
  | extraIteration (stage : String)
  | changedAfterDone (stage : String)
  | iterationLimit (stage : String) (limit : Nat)

/-- Why a run gave no graph. -/
inductive RunError where
  | source (e : SourceError)
  | stage (e : StageError)

/-! ## Texts -/

/-- The text of an error. -/
def LoadError.message : LoadError → String
  | fileNotFound path => "file not found: " ++ path
  | unreadable path reason => "cannot read " ++ path ++ ": " ++ reason
  | notRegistered address => "no document registered for " ++ address
  | invalidJson address => "invalid JSON in " ++ address
  | notASchema address actual =>
    address ++ " is not a schema: expected object or boolean, got " ++ actual

/-- The text of an error. -/
def ConversionError.message : ConversionError → String
  | schemaIsArray a => "schema at " ++ a.text ++ " is an array, which is not a valid schema"
  | schemaIsNull a => "schema at " ++ a.text ++ " is null, which is not a valid schema"
  | invalidSchema a actual =>
    "schema at " ++ a.text ++ " must be an object or a boolean, got " ++ actual
  | falseSchema a => "schema at " ++ a.text ++ " is false, which is not supported"
  | typeNotTextOrArray a actual =>
    "`type` at " ++ a.text ++ " must be a string or an array of strings, got " ++ actual
  | typeElementNotText a actual =>
    "`type` at " ++ a.text ++ " contains a non-string element " ++ actual.compact
  | noType a => "`type` at " ++ a.text ++ " is an empty array"
  | unknownType a name => "`type` at " ++ a.text ++ " names an invalid type \"" ++ name ++ "\""
  | requiredNotArray a actual =>
    "`required` at " ++ a.text ++ " must be an array of strings, got " ++ actual
  | requiredElementNotText a actual =>
    "`required` at " ++ a.text ++ " contains a non-string element " ++ actual.compact
  | refNotText a actual => "`$ref` at " ++ a.text ++ " must be a string, got " ++ actual
  | operationNotArray a operation =>
    "`" ++ operation ++ "` at " ++ a.text ++ " must be an array of schemas"
  | itemsNotSchema a actual =>
    "`items` at " ++ a.text ++ " must be a schema or an array of schemas, got " ++ actual
  | propertiesNotObject a actual =>
    "`properties` at " ++ a.text ++ " must be an object, got " ++ actual
  | additionalForbidsRequired a =>
    "schema at " ++ a.text ++
      " requires properties that are not declared while forbidding additional properties"
  | topLevelUnavailable address => "could not fetch top-level schema " ++ address
  | unavailable address base =>
    "could not fetch schema " ++ address ++ ", referred to from " ++ base.text
  | keyNotFound a key => "key \"" ++ key ++ "\" not found in object at " ++ a.text
  | indexNotFound a index =>
    "index " ++ toString index ++ " out of range for array at " ++ a.text
  | indexNotNumber a key =>
    "cannot index array at " ++ a.text ++ " with non-number \"" ++ key ++ "\""
  | pathNotInDocument a =>
    "cannot look up synthesized path " ++ a.text ++ " in a schema document"
  | noAddress a => "reference " ++ a.text ++ " has no address and cannot be resolved"
  | crawledTwice address =>
    "schema " ++ address ++ " was indexed twice while resolving a single reference"
  | idMustHaveAddress a id => "$id \"" ++ id ++ "\" at " ++ a.text ++ " must have an address"
  | attributesWithoutUnion a =>
    "attribute producer returned union or case attributes at " ++ a.text ++
      ", which has no union"
  | caseCountMismatch a expected actual =>
    "attribute producer returned " ++ toString actual ++ " case attributes at " ++ a.text ++
      ", expected " ++ toString expected
  | tooDeep a => "schema at " ++ a.text ++ " is referred to through too many others"

/-- The text of an error. -/
def SourceError.message : SourceError → String
  | noUris name => "schema source \"" ++ name ++ "\" has neither a schema nor URIs"
  | noName uri => "cannot infer a name for schema " ++ uri
  | typesFromBoolean reference => "cannot get types from boolean schema " ++ reference.text
  | additionalUnavailable address => "could not fetch additional schema " ++ address
  | load e => e.message
  | conversion e => e.message

/-- The text of an error. -/
def StageError.message : StageError → String
  | notConverged stage => "graph did not change during " ++ stage ++ " but the stage is not done"
  | extraIteration stage => stage ++ " should converge in a single application"
  | changedAfterDone stage =>
    stage ++ " reported done but changed the graph when applied again"
  | iterationLimit stage limit =>
    stage ++ " did not converge within " ++ toString limit ++ " iterations"

/-- The text of an error. -/
def RunError.message : RunError → String
  | source e => e.message
  | stage e => e.message

/-! ## Exit codes -/

/-- The exit code of an error. -/
def LoadError.exitCode : LoadError → Nat
  | fileNotFound _ | unreadable _ _ | notRegistered _ => 3
  | _ => 2

/-- The exit code of an error. -/
def ConversionError.exitCode : ConversionError → Nat
  | topLevelUnavailable _ | unavailable _ _ => 3
  | _ => 2

/-- The exit code of an error. -/
def SourceError.exitCode : SourceError → Nat
  | additionalUnavailable _ => 3
  | load e => e.exitCode
  | conversion e => e.exitCode
  | _ => 2

/-- The exit code of an error. -/
def RunError.exitCode : RunError → Nat
  | source e => e.exitCode
  | stage _ => 2

end SchemaTypes
