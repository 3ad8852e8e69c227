import QueryPipeline.Value.Basic

namespace QueryPipeline

def idField : String := "_id"

def contentFacet : String := "content"

def totalFacet : String := "totalCount"

def countField : String := "count"

/-- Matches each row's `localField` with the `foreignField` of the stored documents
of `source`, and puts the matches into `target`. -/
structure Join where
  source : String
  localField : String
  foreignField : String
  target : String
  deriving DecidableEq

namespace Join

/-- An empty target means the local field itself. -/
def into (source localField foreignField : String) (target : Option String) : Join where
  source := source
  localField := localField
  foreignField := foreignField
  target := (target.filter (· != "")).getD localField

/-- The documents a reference field holds the identifiers of, put in its place. -/
def byId (source path : String) : Join := ⟨source, path, idField, path⟩

end Join

inductive Direction where
  | ascending
  | descending
  deriving DecidableEq

def Direction.sign : Direction → Int
  | .ascending => 1
  | .descending => -1

inductive PageStage where
  | skip (amount : Value)
  | limit (amount : Value)
  | regroup (field : String)

/-- `setFirst` replaces the array at each path by its first element, and leaves the
field missing where nothing was joined. -/
inductive Stage where
  | lookup (join : Join)
  | setFirst (paths : List String)
  | sort (criteria : Entries Direction)
  | filter (equalities : Entries Value)
  | unwind (path : String)
  | facet (page : List PageStage)

abbrev Pipeline := List Stage

def fieldReference (path : String) : String := "$" ++ path

/-- A dangling reference joins to no rows, and then this yields no value. -/
def firstElement (path : String) : Value :=
  .document [("$arrayElemAt", .list [.text (fieldReference path), .int 0])]

/-- The rows under `content`, and how many rows there were before any paging. -/
def facetDocument (content : Value) : Value :=
  .document [("$facet", .document [
    (contentFacet, content),
    (totalFacet, .list [.document [("$count", .text countField)]])])]

def lookupDocument (source localField foreignField target : Value) : Value :=
  .document [("$lookup", .document [
    ("from", source),
    ("localField", localField),
    ("foreignField", foreignField),
    ("as", target)])]

def Join.toValue (join : Join) : Value :=
  lookupDocument (.text join.source) (.text join.localField) (.text join.foreignField)
    (.text join.target)

namespace PageStage

/-- Rows fall together again by identifier; a field of that name takes its place. -/
def regroupFields (field : String) : Entries Value :=
  Entries.ofList [
    (idField, .text (fieldReference idField)),
    (field, .document [("$push", .text (fieldReference field))])]

def toValue : PageStage → Value
  | .skip amount => .document [("$skip", amount)]
  | .limit amount => .document [("$limit", amount)]
  | .regroup field => .document [("$group", .ofEntries (regroupFields field))]

end PageStage

namespace Stage

def toValue : Stage → Value
  | .lookup join => join.toValue
  | .setFirst paths =>
      .document [("$set", .document (paths.map fun path => (path, firstElement path)))]
  | .sort criteria =>
      .document [("$sort", .ofEntries (criteria.mapValues fun _ way => .int way.sign))]
  | .filter equalities => .document [("$match", .ofEntries equalities)]
  | .unwind path =>
      .document [("$unwind", .document [("path", .text (fieldReference path))])]
  | .facet page => facetDocument (.list (page.map PageStage.toValue))

end Stage

def Pipeline.toValue (pipeline : Pipeline) : Value :=
  .list (pipeline.map Stage.toValue)

end QueryPipeline
