import QueryPipeline.Declaration

namespace QueryPipeline

/-- The owner field is the one that holds the owner's identifier in a linking row. -/
structure Link where
  linkingCollection : String
  fieldStoringChild : String
  childAlias : Option String
  ownerField : Option String
  deriving DecidableEq

namespace Link

def given (text : Option String) : Option String :=
  text.filter (· != "")

def childField (link : Link) : String :=
  (given link.childAlias).getD link.fieldStoringChild

def read (entries : List (RawText × Declaration)) (key other : String) :
    String × Option Declaration :=
  match Declaration.find? entries key, Declaration.find? entries other with
  | some found, _ => (key, some found)
  | none, some found => (other, some found)
  | none, none => (key, none)

def required : String × Option Declaration → Checked String
  | (key, some found) => found.checkText.under key
  | (key, none) => (Checked.fail .missing).under key

def optional : String × Option Declaration → Checked (Option String)
  | (key, some found) => found.checkOptionalText.under key
  | (_, none) => .ok none

def check : Declaration → Checked Link
  | .document entries =>
      let linking := required (read entries "linkingCollection" "linking_collection")
      let child := required (read entries "fieldStoringChild" "field_storing_child")
      let childAlias := optional (read entries "alias" "child_alias")
      let owner := optional (read entries "ownerField" "owner_field")
      ((linking.both child).both (childAlias.both owner)).map
        fun ((linking, child), (childAlias, owner)) =>
          ⟨linking, child, childAlias, owner⟩
  | _ => Checked.fail (.notModel "AssociationLink")

def ofValue (value : Value) : Except Malformed Link :=
  (check (.ofValue value)).asModel "AssociationLink"

end Link

inductive LinkRef where
  | declared (declaration : Value)
  | checked (link : Link)

def LinkRef.resolve : LinkRef → Except Malformed Link
  | .declared declaration => Link.ofValue declaration
  | .checked link => .ok link

end QueryPipeline
