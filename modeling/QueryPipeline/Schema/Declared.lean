import QueryPipeline.Declaration
import QueryPipeline.Path

namespace QueryPipeline

/-- Only a reference names a target collection, and it may leave it open. -/
inductive FieldSpec where
  | plain
  | reference (target : Option String)
  deriving DecidableEq

inductive FieldKind where
  | plain
  | reference
  deriving DecidableEq

def FieldKind.name : FieldKind → String
  | .plain => "plain"
  | .reference => "reference"

namespace FieldSpec

def kind : FieldSpec → FieldKind
  | .plain => .plain
  | .reference _ => .reference

def target? : FieldSpec → Option String
  | .plain => none
  | .reference target => target

def kindNamed (name : String) : Checked FieldKind :=
  if name = FieldKind.plain.name then .ok .plain
  else if name = FieldKind.reference.name then .ok .reference
  else Checked.fail .unknownKind

def checkKind : Option Declaration → Checked FieldKind
  | none => .ok .plain
  | some (.text raw) =>
      match raw.text? with
      | some name => kindNamed name
      | none => Checked.fail .notUnicode
  | some _ => Checked.fail .unknownKind

def ofParts : FieldKind × Option String → Checked FieldSpec
  | (.plain, none) => .ok .plain
  | (.plain, some _) => Checked.fail .strayTarget
  | (.reference, target) => .ok (.reference target)

def check : Declaration → Checked FieldSpec
  | .document entries => do
      let kind := (checkKind (Declaration.find? entries "type")).under "type"
      let target :=
        ((Declaration.find? entries "ref").getD .null).checkOptionalText.under "ref"
      let parts ← Checked.both kind target
      ofParts parts
  | _ => Checked.fail (.notModel "FieldSpec")

end FieldSpec

structure CollectionSchema where
  storedAs : Option String
  fields : Entries FieldSpec

namespace CollectionSchema

def parent? (path : RawText) : Option String :=
  match (Path.segments path.intact).dropLast with
  | [] => none
  | segments => some (Path.join segments)

/-- Nobody can ask for a path that is no string, only for those above it. -/
def addField (fields : Entries FieldSpec) (path : RawText) (spec : FieldSpec) :
    Entries FieldSpec :=
  match path.text? with
  | some text => fields.put text spec
  | none => (parent? path).elim fields (fields.putNew · .plain)

def ofFields (fields : List (RawText × FieldSpec)) : Entries FieldSpec :=
  fields.foldl (fun known field => addField known field.1 field.2) Entries.empty

def checkFields : Option Declaration → Checked (Entries FieldSpec)
  | none => .ok Entries.empty
  | some (.document entries) =>
      (Checked.each (fun (path, spec) =>
        ((FieldSpec.check spec).under path.shown).map fun field => (path, field))
        entries).map ofFields
  | some _ => Checked.fail .notDictionary

def check : Declaration → Checked CollectionSchema
  | .document entries =>
      let storedAs := ((Declaration.find? entries "collection").getD
        .null).checkOptionalText.under "collection"
      let fields := (checkFields (Declaration.find? entries "fields")).under "fields"
      (Checked.both storedAs fields).map fun (storedAs, fields) => ⟨storedAs, fields⟩
  | _ => Checked.fail (.notModel "CollectionSchema")

def ofDeclaration (declaration : Declaration) : Except Malformed CollectionSchema :=
  (check declaration).asModel "CollectionSchema"

theorem ofFields_ofString (fields : List (String × FieldSpec)) :
    ofFields (fields.map fun field => (.ofString field.1, field.2)) =
      Entries.ofList fields := by
  simp [ofFields, Entries.ofList, addField, List.foldl_map]

end CollectionSchema

end QueryPipeline
