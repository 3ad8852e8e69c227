import QueryPipeline.Proofs.Aggregation.Checked
import QueryPipeline.Proofs.Embed.Reordered
import QueryPipeline.Proofs.Query.Keys

namespace QueryPipeline

namespace Query

/-- The two queries ask for the same set of embeds, and agree in all other keys. -/
structure Alike (left right : Query) : Prop where
  rest_eq : left.without embedKey = right.without embedKey
  mem_iff : ∀ path, path ∈ left.requests ↔ path ∈ right.requests

variable {left right normalLeft normalRight : Query} {key omitted : String} {maxDepth : Int}
  {requestedLeft requestedRight criteria : List String}

theorem value_eq_of_without (h : left.without omitted = right.without omitted)
    (hkey : key ≠ omitted) : left.value key = right.value key := by
  rw [← value_without_of_ne left hkey, h, value_without_of_ne right hkey]

theorem agreeButEmbeds_of_without (h : left.without embedKey = right.without embedKey) :
    left.AgreeButEmbeds right where
  sort_eq := value_eq_of_without h (by decide)
  filters_eq := by
    have hreserved : isReserved embedKey = true := by decide
    rw [← filters_without left hreserved, h, filters_without right hreserved]

theorem without_normal_eq (h : left.without embedKey = right.without embedKey)
    (hleft : left.normalize maxDepth = .ok normalLeft)
    (hright : right.normalize maxDepth = .ok normalRight) :
    normalLeft.without embedKey = normalRight.without embedKey := by
  have hnormalLeft := normalize_without_embeds hleft
  rw [h, normalize_without_embeds hright] at hnormalLeft
  exact (Except.ok.inj hnormalLeft).symm

section

variable (h : left.without embedKey = right.without embedKey)

include h

theorem sortStages_congr (base : Option String) :
    left.sortStages base = right.sortStages base :=
  (agreeButEmbeds_of_without h).sortStages_eq base

theorem filterStages_congr (base : Option String) :
    left.filterStages base = right.filterStages base :=
  (agreeButEmbeds_of_without h).filterStages_eq base

theorem pageStages_congr : left.pageStages = right.pageStages := by
  rw [pageStages, pageStages, skipStages, skipStages, limitStages, limitStages,
    value_eq_of_without h (by decide : skipKey ≠ embedKey),
    value_eq_of_without h (by decide : limitKey ≠ embedKey)]

variable (hleft : left.embedPaths = .ok requestedLeft)
  (hright : right.embedPaths = .ok requestedRight)
  (hmem : ∀ path, path ∈ requestedLeft ↔ path ∈ requestedRight)

include hleft hright hmem

theorem checkPaths_congr (hcriteria : left.sortCriteria = .ok criteria) (registry : Registry)
    (root : Collection) : left.checkPaths registry root = right.checkPaths registry root := by
  have hcheckLeft := checkPaths_eq ⟨registry, root, none, requestedLeft, []⟩ hleft hcriteria
  have hagree := agreeButEmbeds_of_without h
  have hcheckRight := checkPaths_eq ⟨registry, root, none, requestedRight, []⟩ hright
    (hagree.sortCriteria_eq ▸ hcriteria)
  rw [hcheckLeft, hcheckRight, mentioned, mentioned, hagree.filters_eq,
    Embed.failure?_congr hmem]

omit h in
theorem embedStages_congr (registry : Registry) (root : Collection) (base : Option String)
    (materialized : List String) :
    left.embedStages registry root base materialized =
      right.embedStages registry root base materialized := by
  rw [embedStages_of_embedPaths hleft, embedStages_of_embedPaths hright,
    Embed.compile_congr hmem]

end

end Query

theorem embeds_as_set {left right normalLeft normalRight : Query}
    (hleft : left.normalize Query.defaultMaxDepth = .ok normalLeft)
    (hright : right.normalize Query.defaultMaxDepth = .ok normalRight)
    (halike : left.Alike right) (registry : Registry) :
    (∀ collection, listing registry collection left = listing registry collection right) ∧
      ∀ association : Association,
        association.pipeline registry left = association.pipeline registry right := by
  have hrest := Query.without_normal_eq halike.rest_eq hleft hright
  obtain ⟨requestedLeft, hpathsLeft, hmemLeft⟩ := Query.exists_embedPaths_of_normalize hleft
  obtain ⟨requestedRight, hpathsRight, hmemRight⟩ := Query.exists_embedPaths_of_normalize hright
  obtain ⟨criteria, hcriteria⟩ := (Query.normal_of_normalize hleft).exists_sortCriteria
  have hmem : ∀ path, path ∈ requestedLeft ↔ path ∈ requestedRight := fun path =>
    (hmemLeft path).trans ((halike.mem_iff path).trans (hmemRight path).symm)
  have hcheck := Query.checkPaths_congr hrest hpathsLeft hpathsRight hmem hcriteria
  have hembeds := Query.embedStages_congr hpathsLeft hpathsRight hmem
  constructor
  · intro collection
    rw [listing, listing, hleft, hright]
    simp only [mapError_ok, bind, Except.bind, hcheck, hembeds, Query.sortStages_congr hrest,
      Query.filterStages_congr hrest, Query.pageStages_congr hrest]
  · intro association
    rw [Association.pipeline, Association.pipeline, hleft, hright]
    simp only [mapError_ok, bind, Except.bind, hcheck, hembeds, Query.sortStages_congr hrest,
      Query.filterStages_congr hrest, Query.pageStages_congr hrest]

def Query.tidy : Query :=
  Entries.ofList [
    (embedKey, Value.texts ["student", "course.staff.teacher"]),
    (sortKey, .text "-grade"), ("grade", .text "A")]

def Query.untidy : Query :=
  Entries.ofList [
    (embedKey, .tuple [.text " course.staff.teacher", .text "student\t",
      .text "course.staff.teacher"]),
    (sortKey, .text "-grade"), ("grade", .text "A")]

theorem embeds_as_set_untidy :
    ∃ normalLeft normalRight,
      Query.tidy.normalize Query.defaultMaxDepth = .ok normalLeft ∧
      Query.untidy.normalize Query.defaultMaxDepth = .ok normalRight ∧
      Query.tidy.Alike .untidy ∧
      listing .school (.named "Enrollment") .tidy =
        listing .school (.named "Enrollment") .untidy ∧
      Association.courses.pipeline .school .tidy =
        Association.courses.pipeline .school .untidy := by
  obtain ⟨normalLeft, hleft⟩ :
      ∃ normal, Query.tidy.normalize Query.defaultMaxDepth = .ok normal := ⟨_, rfl⟩
  obtain ⟨normalRight, hright⟩ :
      ∃ normal, Query.untidy.normalize Query.defaultMaxDepth = .ok normal := ⟨_, rfl⟩
  have hrequestsLeft : Query.tidy.requests = ["student", "course.staff.teacher"] := rfl
  have hrequestsRight : Query.untidy.requests =
      ["course.staff.teacher", "student", "course.staff.teacher"] := rfl
  have halike : Query.tidy.Alike .untidy := by
    refine ⟨rfl, fun path => ?_⟩
    rw [hrequestsLeft, hrequestsRight]
    simp only [List.mem_cons, List.not_mem_nil, or_false]
    tauto
  obtain ⟨hlisting, hassociation⟩ := embeds_as_set hleft hright halike .school
  exact ⟨normalLeft, normalRight, hleft, hright, halike, hlisting _, hassociation _⟩

end QueryPipeline
