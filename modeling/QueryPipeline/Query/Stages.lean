import QueryPipeline.Embed.Joins
import QueryPipeline.Query.Basic

namespace QueryPipeline.Query

def embedStages (query : Query) (registry : Registry) (root : Collection)
    (base : Option String) (materialized : List String) : Except Fault (List Stage) := do
  let paths ← query.embedPaths.mapError .misuse
  (Embed.compile registry root base materialized paths).mapError .embed

def filterStages (query : Query) (base : Option String) : List Stage :=
  if query.filters.isEmpty then []
  else [.filter (query.filters.mapKeys fun key => Path.qualify key base)]

/-- One leading minus sign turns the order of a field around. -/
def criterion (text : String) : String × Direction :=
  match text.toList with
  | '-' :: field => (String.ofList field, .descending)
  | _ => (text, .ascending)

/-- A field keeps its first place, and its last direction counts. -/
def sortFields (criteria : List String) (base : Option String) : Entries Direction :=
  Entries.ofList (criteria.map fun text =>
    (Path.qualify (criterion text).1 base, (criterion text).2))

def sortStages (query : Query) (base : Option String) : Except Misuse (List Stage) := do
  let criteria ← query.sortCriteria
  return if criteria.isEmpty then [] else [.sort (sortFields criteria base)]

def skipStages (query : Query) : List PageStage :=
  match query.value skipKey with
  | .null => []
  | amount => [.skip amount]

def limitStages (query : Query) : List PageStage :=
  match query.value limitKey with
  | .null => []
  | amount => [.limit amount]

def pageStages (query : Query) : List PageStage :=
  query.skipStages ++ query.limitStages

end QueryPipeline.Query
