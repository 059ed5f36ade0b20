/-
  Locations of schemas.

  A schema has a place in a document, its canonical reference, which identifies it, and
  it is reached by a reference relative to the nearest `$id` around it.  Both grow by the
  same steps; an `$id` replaces the reference by which the schema is reached.
-/
import SchemaTypes.Reference
import SchemaTypes.Json
import SchemaTypes.Error

namespace SchemaTypes

namespace Location

/-- A location reached by its canonical reference. -/
def ofReference (canonical : Reference) : Location := ⟨canonical, canonical, false⟩

/-- The location below, by the same steps in both references. -/
def append (l : Location) (steps : List Step) : Location :=
  { l with canonical := l.canonical.append steps, reached := l.reached.append steps }

/-- The location below, by keys. -/
def push (l : Location) (keys : List String) : Location := l.append (keys.map .key)

/-- Accounts for the `$id` of the schema at a location.  The first one around a schema
    must have an address, the others are relative to the nearest; what is no text is
    ignored. -/
def withId (l : Location) (id : Option Json) : Except ConversionError Location :=
  match id with
  | some (.string id) =>
    let r := Reference.parse id
    if l.hasId then .ok { l with reached := r.resolve (some l.reached) }
    else if r.address.isNone then .error (.idMustHaveAddress l id)
    else .ok { l with reached := r, hasId := true }
  | _ => .ok l

end Location

end SchemaTypes
