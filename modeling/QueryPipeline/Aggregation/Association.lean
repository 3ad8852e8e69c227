import QueryPipeline.Aggregation.Link
import QueryPipeline.Aggregation.Listing

namespace QueryPipeline

structure Association where
  link : LinkRef
  name : String
  owner : CollectionRef
  ownerId : Value
  child : CollectionRef

namespace Association

def ownerKey : String := "ownerId"

def identifier : Value → Except ObjectId.Malformed ObjectId
  | .objectId id => .ok id
  | .text s => ObjectId.ofText s
  | _ => .error .notText

def checkOwnerId (value : Value) : Except Rejection ObjectId :=
  (identifier value).mapError fun cause => ⟨ownerKey, .notIdentifier cause, value⟩

def opening (name : String) (id : ObjectId) (linking child : Collection)
    (ownerField childPath : String) : List Stage := [
  .filter (Entries.ofList [(idField, .objectId id)]),
  .lookup (Join.into linking.physicalName idField ownerField (some name)),
  .unwind name,
  .lookup (Join.byId child.physicalName childPath),
  .setFirst [childPath]]

/-- An owner without linking rows gives no row at all. -/
def pipeline (association : Association) (registry : Registry) (query : Query) :
    Except Fault Pipeline := do
  let query ← (query.normalize Query.defaultMaxDepth).mapError .rejected
  let link ← association.link.resolve.mapError .malformed
  let owner ← registry.locate association.owner
  let child ← registry.locate association.child
  let linking ← registry.locate (.named link.linkingCollection)
  let id ← (checkOwnerId association.ownerId).mapError .rejected
  let base := some association.name
  let ownerField := (Link.given link.ownerField).getD owner.physicalName
  let childPath := Path.qualify link.childField base
  query.checkPaths registry linking
  let embeds ← query.embedStages registry linking base [link.childField]
  let sorting ← (query.sortStages base).mapError .misuse
  return opening association.name id linking child ownerField childPath ++
    embeds ++ sorting ++ query.filterStages base ++
    [.facet (query.pageStages ++ [.regroup association.name])]

end Association

end QueryPipeline
