import QueryPipeline.Query.Normalize
import QueryPipeline.Query.Stages

namespace QueryPipeline

def Registry.locate (registry : Registry) : CollectionRef → Except Fault Collection
  | .resolved collection => .ok collection
  | .named name =>
      match registry.collection? name with
      | some collection => .ok collection
      | none => .error (.unregistered name)

namespace Query

/-- Filter and sort paths may lead across references without being joined, so of
these only one that is requested as an embed has to lead anywhere. -/
def checkPaths (query : Query) (registry : Registry) (root : Collection) :
    Except Fault Unit := do
  let requested ← query.embedPaths.mapError .misuse
  let criteria ← query.sortCriteria.mapError .misuse
  let paths := query.filters.keys ++ criteria.map fun text => (criterion text).1
  (paths.forM fun path =>
    discard (Embed.resolveRequested registry root requested path)).mapError .embed

end Query

/-- Embeds come first, so sorting and filters can address embedded fields. -/
def listing (registry : Registry) (collection : CollectionRef) (query : Query) :
    Except Fault Pipeline := do
  let query ← (query.normalize Query.defaultMaxDepth).mapError .rejected
  let root ← registry.locate collection
  query.checkPaths registry root
  let embeds ← query.embedStages registry root none []
  let sorting ← (query.sortStages none).mapError .misuse
  return embeds ++ sorting ++ query.filterStages none ++ [.facet query.pageStages]

end QueryPipeline
