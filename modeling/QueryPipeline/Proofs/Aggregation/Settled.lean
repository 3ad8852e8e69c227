import QueryPipeline.Proofs.Aggregation.Checked
import QueryPipeline.Proofs.Embed.Answered
import QueryPipeline.Proofs.Query.Keys

namespace QueryPipeline

def Settled : Except Fault α → Prop
  | .ok _ => True
  | .error fault => fault.isBadRequest = true

theorem Settled.bind {first : Except Fault α} {next : α → Except Fault β}
    (hfirst : Settled first) (hnext : ∀ value, first = .ok value → Settled (next value)) :
    Settled (first >>= next) := by
  cases first with
  | ok value => exact hnext value rfl
  | error fault => exact hfirst

theorem settled_mapError {convert : ε → Fault} (h : ∀ cause, (convert cause).isBadRequest = true)
    (outcome : Except ε α) : Settled (outcome.mapError convert) := by
  cases outcome with
  | ok value => trivial
  | error cause => exact h cause

theorem settled_locate (registry : Registry) (ref : CollectionRef) :
    Settled (registry.locate ref) := by
  cases ref with
  | resolved collection => trivial
  | named name =>
      rw [Registry.locate]
      cases registry.collection? name <;> trivial

namespace Query

variable {query normal : Query} {registry : Registry} {root : Collection} {base : Option String}
  {materialized : List String} {maxDepth : Int}

theorem settled_checkPaths (h : query.normalize maxDepth = .ok normal) :
    Settled (normal.checkPaths registry root) := by
  obtain ⟨requested, hrequested, _⟩ := exists_embedPaths_of_normalize h
  obtain ⟨criteria, hcriteria⟩ := (normal_of_normalize h).exists_sortCriteria
  rw [checkPaths_eq ⟨registry, root, none, requested, []⟩ hrequested hcriteria]
  exact settled_mapError (fun _ => rfl) _

theorem settled_embedStages (h : query.normalize maxDepth = .ok normal) :
    Settled (normal.embedStages registry root base materialized) := by
  obtain ⟨requested, hrequested, _⟩ := exists_embedPaths_of_normalize h
  rw [embedStages_of_embedPaths hrequested]
  exact settled_mapError (fun _ => rfl) _

theorem settled_sortStages (h : query.normalize maxDepth = .ok normal) :
    Settled ((normal.sortStages base).mapError .misuse) := by
  obtain ⟨criteria, hcriteria⟩ := (normal_of_normalize h).exists_sortCriteria
  rw [sortStages, hcriteria]
  trivial

end Query

theorem settled_listing (registry : Registry) (collection : CollectionRef) (query : Query) :
    Settled (listing registry collection query) := by
  rw [listing]
  refine (settled_mapError (fun _ => rfl) _).bind fun normal hnormal => ?_
  rw [mapError_eq_ok_iff] at hnormal
  refine (settled_locate registry collection).bind fun root _ => ?_
  refine (Query.settled_checkPaths hnormal).bind fun _ _ => ?_
  refine (Query.settled_embedStages hnormal).bind fun embeds _ => ?_
  exact (Query.settled_sortStages hnormal).bind fun _ _ => trivial

theorem settled_pipeline {association : Association} {link : Link}
    (hlink : association.link.resolve = .ok link) (registry : Registry) (query : Query) :
    Settled (association.pipeline registry query) := by
  rw [Association.pipeline, hlink]
  refine (settled_mapError (fun _ => rfl) _).bind fun normal hnormal => ?_
  rw [mapError_eq_ok_iff] at hnormal
  refine (show Settled (.ok link) from trivial).bind fun link _ => ?_
  refine (settled_locate registry association.owner).bind fun owner _ => ?_
  refine (settled_locate registry association.child).bind fun child _ => ?_
  refine (settled_locate registry _).bind fun linking _ => ?_
  refine (settled_mapError (fun _ => rfl) _).bind fun id _ => ?_
  refine (Query.settled_checkPaths hnormal).bind fun _ _ => ?_
  refine (Query.settled_embedStages hnormal).bind fun embeds _ => ?_
  exact (Query.settled_sortStages hnormal).bind fun _ _ => trivial

theorem pipelines_settled (query : Query) (registry : Registry) :
    (∀ collection, Settled (listing registry collection query)) ∧
    (∀ (association : Association) (link : Link),
      Settled ({ association with link := .checked link }.pipeline registry query)) ∧
    (∀ root path, Embed.askResolve registry root path = .ok (Embed.resolve registry root path)) ∧
    ∀ paths, Embed.indexedLevels paths = .ok (Embed.levels paths) := by
  refine ⟨?_, ?_, ?_, ?_⟩
  · exact fun collection => settled_listing registry collection query
  · exact fun association link => settled_pipeline rfl registry query
  · exact Embed.askResolve_eq registry
  · exact Embed.indexedLevels_eq

end QueryPipeline
