import QueryPipeline.Aggregation.Association
import QueryPipeline.Proofs.Query.Requested

namespace QueryPipeline

variable {registry : Registry} {root : Collection} {base : Option String}
  {materialized : List String} {query : Query} {pipeline : Pipeline}

theorem Query.sortStages_cases {sorting : List Stage}
    (h : query.sortStages base = .ok sorting) :
    sorting = [] ∨ ∃ criteria, sorting = [.sort criteria] ∧ criteria.isEmpty = false := by
  obtain ⟨criteria, _, h⟩ := bind_eq_ok_iff.mp h
  cases h
  split
  · exact .inl rfl
  · rename_i hne
    refine .inr ⟨_, rfl, ?_⟩
    rw [sortFields, Entries.isEmpty_ofList, List.isEmpty_map]
    simpa using hne

theorem Query.filterStages_cases (query : Query) (base : Option String) :
    query.filterStages base = [] ∨ ∃ equalities,
      query.filterStages base = [.filter equalities] ∧ equalities.isEmpty = false := by
  rw [filterStages]
  split
  · exact .inl rfl
  · rename_i hne
    refine .inr ⟨_, rfl, ?_⟩
    rw [Entries.mapKeys, Entries.isEmpty_ofList, List.isEmpty_map]
    simpa [Entries.isEmpty] using hne

def Query.bodyStages (query : Query) (registry : Registry) (root : Collection)
    (base : Option String) (materialized : List String) (page : List PageStage) :
    Except Fault Pipeline := do
  let embeds ← query.embedStages registry root base materialized
  let sorting ← (query.sortStages base).mapError .misuse
  return embeds ++ sorting ++ query.filterStages base ++ [.facet page]

theorem Query.bodyStages_eq_ok_iff {page : List PageStage} :
    query.bodyStages registry root base materialized page = .ok pipeline ↔
      ∃ embeds sorting, query.embedStages registry root base materialized = .ok embeds ∧
        query.sortStages base = .ok sorting ∧
        embeds ++ sorting ++ query.filterStages base ++ [.facet page] = pipeline := by
  simp only [bodyStages, bind_eq_ok_iff, mapError_eq_ok_iff, pure, Except.pure,
    Except.ok.injEq, exists_and_left]

theorem listing_eq_ok_iff {collection : CollectionRef} :
    listing registry collection query = .ok pipeline ↔
      ∃ normal root, query.normalize Query.defaultMaxDepth = .ok normal ∧
        registry.locate collection = .ok root ∧ normal.checkPaths registry root = .ok () ∧
        normal.bodyStages registry root none [] normal.pageStages = .ok pipeline := by
  simp only [listing, Query.bodyStages, bind_eq_ok_iff, mapError_eq_ok_iff, exists_and_left]
  constructor
  · rintro ⟨normal, hnormal, root, hroot, ⟨⟩, hcheck, h⟩
    exact ⟨normal, hnormal, root, hroot, hcheck, h⟩
  · rintro ⟨normal, hnormal, root, hroot, hcheck, h⟩
    exact ⟨normal, hnormal, root, hroot, (), hcheck, h⟩

namespace Association

variable {association : Association}

def openingFor (association : Association) (link : Link) (id : ObjectId)
    (owner linking child : Collection) : List Stage :=
  opening association.name id linking child
    ((Link.given link.ownerField).getD owner.physicalName)
    (Path.qualify link.childField (some association.name))

theorem pipeline_eq_ok_iff :
    association.pipeline registry query = .ok pipeline ↔
      ∃ normal link owner child linking id body,
        query.normalize Query.defaultMaxDepth = .ok normal ∧
        association.link.resolve = .ok link ∧
        registry.locate association.owner = .ok owner ∧
        registry.locate association.child = .ok child ∧
        registry.locate (.named link.linkingCollection) = .ok linking ∧
        checkOwnerId association.ownerId = .ok id ∧
        normal.checkPaths registry linking = .ok () ∧
        normal.bodyStages registry linking (some association.name) [link.childField]
          (normal.pageStages ++ [.regroup association.name]) = .ok body ∧
        association.openingFor link id owner linking child ++ body = pipeline := by
  simp only [Association.pipeline, Query.bodyStages, bind_eq_ok_iff, mapError_eq_ok_iff,
    pure, Except.pure, Except.ok.injEq]
  constructor
  · rintro ⟨normal, hnormal, link, hlink, owner, howner, child, hchild, linking, hlinking, id,
      hid, ⟨⟩, hcheck, embeds, hembeds, sorting, hsorting, rfl⟩
    refine ⟨normal, link, owner, child, linking, id, _, hnormal, hlink, howner, hchild,
      hlinking, hid, hcheck, ⟨embeds, hembeds, sorting, hsorting, rfl⟩, ?_⟩
    simp only [openingFor, List.append_assoc]
  · rintro ⟨normal, link, owner, child, linking, id, body, hnormal, hlink, howner, hchild,
      hlinking, hid, hcheck, ⟨embeds, hembeds, sorting, hsorting, rfl⟩, rfl⟩
    refine ⟨normal, hnormal, link, hlink, owner, howner, child, hchild, linking, hlinking, id,
      hid, (), hcheck, embeds, hembeds, sorting, hsorting, ?_⟩
    simp only [openingFor, List.append_assoc]

def courses : Association where
  link := .checked ⟨"Enrollment", "course", none, some "student"⟩
  name := "rows"
  owner := .named "Student"
  ownerId := .text "507f1f77bcf86cd799439011"
  child := .named "Course"

end Association

end QueryPipeline
