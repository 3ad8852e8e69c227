import QueryPipeline.Path
import QueryPipeline.Schema.Declared

namespace QueryPipeline

/-! The schema graph.  Every parent of a declared path is a field as well, an
embedded document and so plain, unless it is declared itself. -/

structure RegisteredCollection where
  physicalName : String
  fields : Entries FieldSpec

structure Registry where
  collections : Entries RegisteredCollection

inductive CollectionRef where
  | named (name : String)
  | resolved (collection : Collection)
  deriving DecidableEq

inductive Unknown where
  | field (owner path : String)
  | collection (name : String)
  deriving DecidableEq

def Unknown.key : Unknown → String
  | .field owner path => owner ++ "." ++ path
  | .collection name => name

namespace Registry

def parents (path : String) : List String :=
  ((Path.prefixes (Path.segments path)).dropLast).map Path.join

def addParents (fields : Entries FieldSpec) (path : String) : Entries FieldSpec :=
  (parents path).foldl (fun known parent => known.putNew parent .plain) fields

def expandFields (declared : Entries FieldSpec) : Entries FieldSpec :=
  declared.toList.foldl
    (fun known entry => (addParents known entry.1).put entry.1 entry.2) Entries.empty

/-- A missing or empty storage name is the schema name. -/
def register (name : String) (schema : CollectionSchema) : RegisteredCollection where
  physicalName :=
    match schema.storedAs with
    | none => name
    | some stored => if stored = "" then name else stored
  fields := expandFields schema.fields

def ofSchemas (schemas : Entries CollectionSchema) : Registry where
  collections := schemas.mapValues register

/-- Reads the declarations in order and stops at the first malformed one.  Nobody
can ask for a collection whose name is no string. -/
def ofDeclarations (declarations : List (RawText × Declaration)) :
    Except Malformed Registry := do
  let schemas ← declarations.mapM fun (name, declaration) => do
    let schema ← CollectionSchema.ofDeclaration declaration
    return (name, schema)
  return ofSchemas (Entries.ofList (schemas.filterMap fun (name, schema) =>
    name.text?.map (·, schema)))

def ofPairs (declarations : List (String × Value)) : Except Malformed Registry :=
  ofDeclarations (Declaration.ofPairs declarations)

def field? (registry : Registry) (collection path : String) : Option FieldSpec := do
  let registered ← registry.collections.get? collection
  registered.fields.get? path

def hasField (registry : Registry) (collection path : String) : Bool :=
  (registry.field? collection path).isSome

def fieldKind (registry : Registry) (collection path : String) :
    Except Unknown FieldKind :=
  match registry.field? collection path with
  | some spec => .ok spec.kind
  | none => .error (.field collection path)

def target? (registry : Registry) (collection path : String) : Option String := do
  let spec ← registry.field? collection path
  spec.target?

def physicalName (registry : Registry) (name : String) : Except Unknown String :=
  match registry.collections.get? name with
  | some registered => .ok registered.physicalName
  | none => .error (.collection name)

def collection? (registry : Registry) (name : String) : Option Collection :=
  (registry.collections.get? name).map fun registered =>
    ⟨name, registered.physicalName⟩

def names (registry : Registry) : List String :=
  registry.collections.keys

end Registry

end QueryPipeline
