import QueryPipeline.Proofs.Aggregation.Checked
import QueryPipeline.Proofs.Query.Keys

namespace QueryPipeline

def Stage.isEmbed : Stage → Bool
  | .lookup _ => true
  | .setFirst _ => true
  | _ => false

/-- An outcome fails exactly where one of the paths leads nowhere, with what is told
about that path alone.  Otherwise its embed stages are the given ones, after the opening. -/
structure DecidedByEmbeds (registry : Registry) (root : Collection) (paths : List String)
    (embeds : Except Fault (List Stage)) (opening : List Stage)
    (outcome : Except Fault Pipeline) : Prop where
  fails_iff : (∃ failure, outcome = .error (.embed failure)) ↔
    ∃ path ∈ paths, ∀ target, Embed.resolve registry root path ≠ .ok target
  failure_alone : ∀ failure, outcome = .error (.embed failure) → failure.path ∈ paths ∧
    Embed.resolveRequested registry root [failure.path] failure.path = .error failure
  embeds_eq : (∀ failure, outcome ≠ .error (.embed failure)) →
    ∃ body, outcome = .ok (opening ++ body) ∧ embeds = .ok (body.takeWhile Stage.isEmbed)

namespace Embed

theorem isEmbed_of_mem_stages {scope : Scope} {stage : Stage} (h : stage ∈ scope.stages) :
    stage.isEmbed = true := by
  obtain ⟨batch, _, hbatch⟩ := List.mem_flatMap.mp h
  rcases mem_batchStages_iff.mp hbatch with ⟨_, _, rfl⟩ | ⟨_, rfl⟩ <;> rfl

end Embed

namespace Query

variable {query : Query} {criteria : List String}

theorem takeWhile_tailStages (query : Query) (criteria : List String) (base : Option String)
    (page : List PageStage) :
    (query.tailStages criteria base page).takeWhile Stage.isEmbed = [] := by
  rw [tailStages, sortingOf, filterStages]
  cases criteria.isEmpty <;> cases query.filters.isEmpty <;> rfl

theorem embedStages_embedsOnly (query : Query) (registry : Registry) (root : Collection)
    (base : Option String) (materialized : List String) :
    query.embedsOnly.embedStages registry root base materialized =
      query.embedStages registry root base materialized := by
  rw [embedStages, embedStages, embedPaths, embedPaths, embeds, embeds, value_embedsOnly]

theorem checkedBody_decided (scope : Embed.Scope)
    (hpaths : query.embedPaths = .ok scope.requested)
    (hcriteria : query.sortCriteria = .ok criteria) (page : List PageStage)
    (opening : List Stage) {paths : List String}
    (hrequested : ∀ path, path ∈ scope.requested ↔ path ∈ paths) :
    DecidedByEmbeds scope.registry scope.root paths
      (query.embedsOnly.embedStages scope.registry scope.root scope.base scope.materialized)
      opening
      ((query.checkedBody scope.registry scope.root scope.base scope.materialized page).map
        (opening ++ ·)) := by
  rw [embedStages_embedsOnly, embedStages_of_embedPaths hpaths, Embed.compile_scope_eq,
    checkedBody_eq scope hpaths hcriteria]
  have hnone := @Embed.firstFailure?_cons_eq_none_iff scope (query.mentioned criteria)
  simp only [hrequested] at hnone
  cases hfirst : scope.firstFailure? (query.mentioned criteria :: Embed.levels scope.requested) with
  | some failure =>
      obtain ⟨hmem, halone⟩ := Embed.exists_of_firstFailure? hfirst
      have hsome : ∃ path ∈ paths, ∀ target,
          Embed.resolve scope.registry scope.root path ≠ .ok target := by
        simpa [hfirst] using hnone
      refine ⟨⟨fun _ => hsome, fun _ => ⟨failure, rfl⟩⟩, ?_, ?_⟩
      · intro other hother
        cases hother
        exact ⟨(hrequested _).mp hmem, halone⟩
      · intro hother
        exact absurd rfl (hother failure)
  | none =>
      have hall := hnone.mp hfirst
      have hlevels : scope.firstFailure? (Embed.levels scope.requested) = none := by
        rw [Embed.firstFailure?_eq_none_iff]
        exact fun path hpath => hall path ((hrequested path).mp hpath)
      refine ⟨⟨nofun, ?_⟩, nofun, fun _ => ⟨_, rfl, ?_⟩⟩
      · rintro ⟨path, hpath, hunresolved⟩
        obtain ⟨target, htarget⟩ := hall path hpath
        exact absurd htarget (hunresolved target)
      · rw [hlevels, List.takeWhile_append_of_pos fun _ => Embed.isEmbed_of_mem_stages,
          takeWhile_tailStages, List.append_nil]
        rfl

end Query

theorem embeds_alone_decide {query normal : Query}
    (hnormal : query.normalize Query.defaultMaxDepth = .ok normal) (registry : Registry) :
    ∃ paths : List String, (normal.value Query.embedKey).asList = paths.map .text ∧
      (∀ collection root, registry.locate collection = .ok root →
        DecidedByEmbeds registry root paths
          (normal.embedsOnly.embedStages registry root none []) []
          (listing registry collection query)) ∧
      ∀ (association : Association) link owner child linking id,
        association.link.resolve = .ok link →
        registry.locate association.owner = .ok owner →
        registry.locate association.child = .ok child →
        registry.locate (.named link.linkingCollection) = .ok linking →
        Association.checkOwnerId association.ownerId = .ok id →
        DecidedByEmbeds registry linking paths
          (normal.embedsOnly.embedStages registry linking (some association.name)
            [link.childField])
          (association.openingFor link id owner linking child)
          (association.pipeline registry query) := by
  obtain ⟨requested, hrequested, hmem⟩ := Query.exists_embedPaths_of_normalize hnormal
  obtain ⟨criteria, hcriteria⟩ := (Query.normal_of_normalize hnormal).exists_sortCriteria
  have hpaths : ∀ path, path ∈ requested ↔ path ∈ query.requests.eraseDups :=
    fun path => (hmem path).trans List.mem_eraseDups.symm
  refine ⟨query.requests.eraseDups, Query.embed_of_normalize hnormal, ?_, ?_⟩
  · intro collection root hroot
    have h := Query.checkedBody_decided ⟨registry, root, none, requested, []⟩
      hrequested hcriteria normal.pageStages [] hpaths
    have hopening : (normal.checkedBody registry root none [] normal.pageStages).map ([] ++ ·) =
        normal.checkedBody registry root none [] normal.pageStages := by
      cases normal.checkedBody registry root none [] normal.pageStages <;> rfl
    rw [listing_eq hnormal hroot, ← hopening]
    exact h
  · intro association link owner child linking id hlink howner hchild hlinking hid
    rw [Association.pipeline_eq hnormal hlink howner hchild hlinking hid]
    exact Query.checkedBody_decided
      ⟨registry, linking, some association.name, requested, [link.childField]⟩
      hrequested hcriteria _ _ hpaths

/-- The sort path is a request as well, and fails before the shallower request does. -/
def Query.lecturers : Query :=
  Entries.ofList [
    (embedKey, Value.texts [" course.lecturer", "grade", "student"]),
    (sortKey, .text "-course.lecturer"), ("student", .text "Ada")]

theorem embeds_alone_decide_lecturers :
    ∃ normal, Query.lecturers.normalize Query.defaultMaxDepth = .ok normal ∧
      ∃ paths : List String, (normal.value Query.embedKey).asList = paths.map .text ∧
        DecidedByEmbeds .school .enrollment paths
          (normal.embedsOnly.embedStages .school .enrollment none []) []
          (listing .school (.named "Enrollment") .lecturers) ∧
        ∃ opening, DecidedByEmbeds .school .enrollment paths
          (normal.embedsOnly.embedStages .school .enrollment (some "rows") ["course"]) opening
          (Association.courses.pipeline .school .lecturers) := by
  obtain ⟨normal, hnormal⟩ :
      ∃ normal, Query.lecturers.normalize Query.defaultMaxDepth = .ok normal := ⟨_, rfl⟩
  obtain ⟨paths, hpaths, hlisting, hassociation⟩ := embeds_alone_decide hnormal .school
  obtain ⟨id, hid⟩ : ∃ id, Association.checkOwnerId Association.courses.ownerId = .ok id :=
    ⟨_, rfl⟩
  have hlink : Association.courses.link.resolve =
      .ok ⟨"Enrollment", "course", none, some "student"⟩ := rfl
  have howner : Registry.school.locate Association.courses.owner =
      .ok ⟨"Student", "Student"⟩ := rfl
  have hchild : Registry.school.locate Association.courses.child =
      .ok ⟨"Course", "courses"⟩ := rfl
  have hlinking : Registry.school.locate (.named "Enrollment") = .ok .enrollment := rfl
  have hdecided := hassociation Association.courses _ _ _ _ _ hlink howner hchild hlinking hid
  exact ⟨normal, hnormal, paths, hpaths, hlisting _ _ hlinking, _, hdecided⟩

example : listing .school (.named "Enrollment") .lecturers =
    .error (.embed ⟨"course.lecturer", "course.lecturer", .notFound⟩) := by
  rfl

end QueryPipeline
