import QueryPipeline.Proofs.Aggregation.Parts
import QueryPipeline.Proofs.Query.Keys

namespace QueryPipeline

/-! A pipeline comes after the check of the filter and sort paths.  Both stop at a
request that leads nowhere, so the check is as one more level before the others. -/

namespace Embed

variable {scope : Scope} {path : String} {failure : Failure}

/-- A failure tells what would be told if its path were the only request. -/
theorem failure?_eq_some_iff :
    scope.failure? path = some failure ↔
      path ∈ scope.requested ∧ failure.path = path ∧
        resolveRequested scope.registry scope.root [path] path = .error failure := by
  rw [Scope.failure?, resolveRequested]
  cases resolve scope.registry scope.root path with
  | ok target => simp
  | error obstacle =>
      by_cases hrequested : path ∈ scope.requested
      · simp only [hrequested, if_true, Option.some.injEq, List.mem_singleton, Except.error.injEq,
          true_and]
        exact ⟨fun h => ⟨h ▸ rfl, h⟩, And.right⟩
      · simp [hrequested]

theorem exists_of_firstFailure? {levels : List Level}
    (h : scope.firstFailure? levels = some failure) :
    failure.path ∈ scope.requested ∧
      resolveRequested scope.registry scope.root [failure.path] failure.path =
        .error failure := by
  obtain ⟨level, _, hlevel⟩ := List.exists_of_findSome?_eq_some h
  obtain ⟨path, _, hpath⟩ := List.exists_of_findSome?_eq_some hlevel
  obtain ⟨hrequested, rfl, hfailure⟩ := failure?_eq_some_iff.mp hpath
  exact ⟨hrequested, hfailure⟩

theorem firstFailure?_cons_eq_none_iff (others : List String) :
    scope.firstFailure? (others :: levels scope.requested) = none ↔
      ∀ path ∈ scope.requested,
        ∃ target, resolve scope.registry scope.root path = .ok target := by
  have hcons : scope.firstFailure? (others :: levels scope.requested) = none ↔
      (∀ path ∈ others, scope.failure? path = none) ∧
        scope.firstFailure? (levels scope.requested) = none := by
    simp only [Scope.firstFailure?, List.findSome?_eq_none_iff, List.forall_mem_cons]
  rw [hcons, firstFailure?_eq_none_iff]
  exact and_iff_right_of_imp fun h path _ => failure?_eq_none_iff.mpr (h path)

def Scope.stages (scope : Scope) : List Stage :=
  (scope.batches (levels scope.requested)).flatMap (batchStages scope.base)

theorem compile_scope_eq (scope : Scope) :
    compile scope.registry scope.root scope.base scope.materialized scope.requested =
      unlessFailed (scope.firstFailure? (levels scope.requested)) scope.stages :=
  compile_eq

end Embed

namespace Query

def mentioned (query : Query) (criteria : List String) : List String :=
  query.filters.keys ++ criteria.map fun text => (criterion text).1

def sortingOf (criteria : List String) (base : Option String) : List Stage :=
  if criteria.isEmpty then [] else [.sort (sortFields criteria base)]

def tailStages (query : Query) (criteria : List String) (base : Option String)
    (page : List PageStage) : List Stage :=
  sortingOf criteria base ++ query.filterStages base ++ [.facet page]

def checkedBody (query : Query) (registry : Registry) (root : Collection)
    (base : Option String) (materialized : List String) (page : List PageStage) :
    Except Fault Pipeline := do
  query.checkPaths registry root
  query.bodyStages registry root base materialized page

section

variable {query : Query} {criteria : List String} (scope : Embed.Scope)
  (hpaths : query.embedPaths = .ok scope.requested)
  (hcriteria : query.sortCriteria = .ok criteria)

include hpaths hcriteria

theorem checkPaths_eq :
    query.checkPaths scope.registry scope.root =
      (unlessFailed ((query.mentioned criteria).findSome? scope.failure?) ()).mapError
        .embed := by
  have hstep : ∀ path ∈ query.mentioned criteria,
      discard (Embed.resolveRequested scope.registry scope.root scope.requested path) =
        unlessFailed (scope.failure? path) () := by
    intro path _
    rw [Embed.Scope.resolveRequested_eq]
    exact map_unlessFailed _ _ _
  rw [checkPaths, hpaths, hcriteria, ← forM_eq_unlessFailed hstep]
  rfl

theorem bodyStages_eq (page : List PageStage) :
    query.bodyStages scope.registry scope.root scope.base scope.materialized page =
      (unlessFailed (scope.firstFailure? (Embed.levels scope.requested))
        (scope.stages ++ query.tailStages criteria scope.base page)).mapError .embed := by
  rw [bodyStages, embedStages_of_embedPaths hpaths, Embed.compile_scope_eq, sortStages, hcriteria]
  cases scope.firstFailure? (Embed.levels scope.requested) with
  | some failure => rfl
  | none =>
      simp only [unlessFailed_none, mapError_ok, bind, Except.bind, pure, Except.pure, tailStages,
        sortingOf, List.append_assoc]

theorem checkedBody_eq (page : List PageStage) :
    query.checkedBody scope.registry scope.root scope.base scope.materialized page =
      (unlessFailed
        (scope.firstFailure? (query.mentioned criteria :: Embed.levels scope.requested))
        (scope.stages ++ query.tailStages criteria scope.base page)).mapError .embed := by
  rw [checkedBody, checkPaths_eq scope hpaths hcriteria, bodyStages_eq scope hpaths hcriteria]
  simp only [Embed.Scope.firstFailure?, List.findSome?_cons]
  cases (query.mentioned criteria).findSome? scope.failure? <;> rfl

end

structure AgreeButEmbeds (left right : Query) : Prop where
  sort_eq : left.value sortKey = right.value sortKey
  filters_eq : left.filters = right.filters

structure Agree (left right : Query) : Prop extends AgreeButEmbeds left right where
  embed_eq : left.value embedKey = right.value embedKey

namespace AgreeButEmbeds

variable {left right : Query}

theorem sortCriteria_eq (h : left.AgreeButEmbeds right) :
    left.sortCriteria = right.sortCriteria := by
  rw [sortCriteria, h.sort_eq, sortCriteria]

theorem sortStages_eq (h : left.AgreeButEmbeds right) (base : Option String) :
    left.sortStages base = right.sortStages base := by
  rw [sortStages, h.sortCriteria_eq, sortStages]

theorem filterStages_eq (h : left.AgreeButEmbeds right) (base : Option String) :
    left.filterStages base = right.filterStages base := by
  rw [filterStages, h.filters_eq, filterStages]

end AgreeButEmbeds

namespace Agree

variable {left middle right : Query}

theorem symm (h : left.Agree right) : right.Agree left :=
  ⟨⟨h.sort_eq.symm, h.filters_eq.symm⟩, h.embed_eq.symm⟩

theorem trans (h : left.Agree middle) (hnext : middle.Agree right) : left.Agree right :=
  ⟨⟨h.sort_eq.trans hnext.sort_eq, h.filters_eq.trans hnext.filters_eq⟩,
    h.embed_eq.trans hnext.embed_eq⟩

theorem embedPaths_eq (h : left.Agree right) : left.embedPaths = right.embedPaths := by
  rw [embedPaths, embeds, h.embed_eq, embedPaths, embeds]

theorem checkPaths_eq (h : left.Agree right) (registry : Registry) (root : Collection) :
    left.checkPaths registry root = right.checkPaths registry root := by
  rw [checkPaths, h.embedPaths_eq, h.sortCriteria_eq, h.filters_eq, checkPaths]

theorem embedStages_eq (h : left.Agree right) (registry : Registry) (root : Collection)
    (base : Option String) (materialized : List String) :
    left.embedStages registry root base materialized =
      right.embedStages registry root base materialized := by
  rw [embedStages, h.embedPaths_eq, embedStages]

end Agree

theorem agree_filterKeys (query : Query) {keep : String → Bool} (hembed : keep embedKey = true)
    (hsort : keep sortKey = true) (hfilters : ∀ key, isReserved key = false → keep key = true) :
    Agree (query.filterKeys keep) query where
  embed_eq := query.value_filterKeys_of_pos hembed
  sort_eq := query.value_filterKeys_of_pos hsort
  filters_eq := query.filters_filterKeys hfilters

theorem Normal.exists_sortCriteria {query : Query} {maxDepth : Int} (h : query.Normal maxDepth) :
    ∃ criteria, query.sortCriteria = .ok criteria := by
  rcases h.sort with hnull | ⟨criteria, hcriteria⟩
  · exact ⟨[], by rw [sortCriteria, hnull]; rfl⟩
  · refine ⟨criteria, ?_⟩
    rw [sortCriteria, hcriteria]
    exact Value.allTexts_texts criteria

theorem checkedBody_ne_rejected {query normal : Query} {maxDepth : Int}
    (h : query.normalize maxDepth = .ok normal) (registry : Registry) (root : Collection)
    (base : Option String) (materialized : List String) (page : List PageStage)
    (rejection : Rejection) :
    normal.checkedBody registry root base materialized page ≠ .error (.rejected rejection) := by
  obtain ⟨requested, hrequested, _⟩ := exists_embedPaths_of_normalize h
  obtain ⟨criteria, hcriteria⟩ := (normal_of_normalize h).exists_sortCriteria
  intro hrejected
  rw [checkedBody_eq ⟨registry, root, base, requested, materialized⟩ hrequested hcriteria,
    mapError_eq_error_iff] at hrejected
  obtain ⟨_, _, hfault⟩ := hrejected
  cases hfault

end Query

variable {registry : Registry} {query normal : Query}

theorem listing_eq {collection : CollectionRef} {root : Collection}
    (hnormal : query.normalize Query.defaultMaxDepth = .ok normal)
    (hroot : registry.locate collection = .ok root) :
    listing registry collection query =
      normal.checkedBody registry root none [] normal.pageStages := by
  rw [listing, hnormal, hroot]
  rfl

theorem Association.pipeline_eq {association : Association} {link : Link}
    {owner child linking : Collection} {id : ObjectId}
    (hnormal : query.normalize Query.defaultMaxDepth = .ok normal)
    (hlink : association.link.resolve = .ok link)
    (howner : registry.locate association.owner = .ok owner)
    (hchild : registry.locate association.child = .ok child)
    (hlinking : registry.locate (.named link.linkingCollection) = .ok linking)
    (hid : checkOwnerId association.ownerId = .ok id) :
    association.pipeline registry query =
      (normal.checkedBody registry linking (some association.name) [link.childField]
        (normal.pageStages ++ [.regroup association.name])).map
          (association.openingFor link id owner linking child ++ ·) := by
  rw [pipeline, hnormal, hlink, howner, hchild]
  simp only [mapError_ok, bind, Except.bind, hlinking, hid, Query.checkedBody, Query.bodyStages]
  cases normal.checkPaths registry linking with
  | error fault => rfl
  | ok checked =>
      cases normal.embedStages registry linking (some association.name) [link.childField] with
      | error fault => rfl
      | ok embeds =>
          cases normal.sortStages (some association.name) with
          | error misuse => rfl
          | ok sorting => simp [Except.map, pure, Except.pure, openingFor]

end QueryPipeline
