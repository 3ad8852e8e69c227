import QueryPipeline.Proofs.Aggregation.Body
import QueryPipeline.Proofs.Aggregation.Checked
import QueryPipeline.Proofs.Query.Keys
import QueryPipeline.Proofs.Rebase

namespace QueryPipeline

/-! Reserved keys never act as filters: those that mean nothing change nothing, and a list
query matches its rows by all other keys, as they stand. -/

variable {registry : Registry} {root : Collection} {base : Option String}
  {query left right normalLeft normalRight : Query} {pipeline : Pipeline}

theorem outcome_congr (hleft : left.normalize Query.defaultMaxDepth = .ok normalLeft)
    (hright : right.normalize Query.defaultMaxDepth = .ok normalRight)
    (hagree : normalLeft.Agree normalRight)
    (hpage : normalLeft.pageStages = normalRight.pageStages) (registry : Registry) :
    (∀ collection, listing registry collection left = listing registry collection right) ∧
      ∀ association : Association,
        association.pipeline registry left = association.pipeline registry right := by
  constructor
  · intro collection
    rw [listing, listing, hleft, hright]
    simp only [mapError_ok, bind, Except.bind, hagree.checkPaths_eq, hagree.embedStages_eq,
      hagree.sortStages_eq, hagree.filterStages_eq, hpage]
  · intro association
    rw [Association.pipeline, Association.pipeline, hleft, hright]
    simp only [mapError_ok, bind, Except.bind, hagree.checkPaths_eq, hagree.embedStages_eq,
      hagree.sortStages_eq, hagree.filterStages_eq, hpage]

namespace Query

variable {keep : String → Bool}

theorem pageStages_filterKeys (query : Query) (hread : ∀ key ∈ readKeys, keep key = true) :
    pageStages (query.filterKeys keep) = query.pageStages := by
  have hskip := query.value_filterKeys_of_pos (hread skipKey (by simp [readKeys]))
  have hlimit := query.value_filterKeys_of_pos (hread limitKey (by simp [readKeys]))
  rw [pageStages, skipStages, limitStages, hskip, hlimit, pageStages, skipStages, limitStages]

end Query

theorem outcome_filterKeys {keep : String → Bool}
    (hread : ∀ key ∈ Query.readKeys, keep key = true)
    (hfilters : ∀ key, Query.isReserved key = false → keep key = true)
    (registry : Registry) (query : Query) :
    (∀ collection, listing registry collection (query.filterKeys keep) =
      listing registry collection query) ∧
      ∀ association : Association, association.pipeline registry (query.filterKeys keep) =
        association.pipeline registry query := by
  have hcut := @Query.normalize_filterKeys query Query.defaultMaxDepth keep hread
  cases hnormal : query.normalize Query.defaultMaxDepth with
  | ok normal =>
      rw [hnormal] at hcut
      have hagree := normal.agree_filterKeys (hread Query.embedKey (by simp [Query.readKeys]))
        (hread Query.sortKey (by simp [Query.readKeys])) hfilters
      exact outcome_congr hcut hnormal hagree (normal.pageStages_filterKeys hread) registry
  | error rejection =>
      rw [hnormal] at hcut
      constructor
      · intro collection
        rw [listing, listing, hnormal, hcut]
        rfl
      · intro association
        rw [Association.pipeline, Association.pipeline, hnormal, hcut]
        rfl

def Pipeline.matchDocuments (pipeline : Pipeline) : List Value :=
  (pipeline.map Stage.toValue).filter fun document => document.operator == "$match"

def matchedBy (entries : List (String × Value)) : List Value :=
  if entries.isEmpty then [] else [.document [("$match", .document entries)]]

theorem Pipeline.matchDocuments_append (front back : Pipeline) :
    matchDocuments (front ++ back) = matchDocuments front ++ matchDocuments back := by
  rw [matchDocuments, List.map_append, List.filter_append, matchDocuments, matchDocuments]

theorem Pipeline.matchDocuments_eq_nil
    (h : ∀ stage ∈ pipeline, stage.operator ≠ "$match") : matchDocuments pipeline = [] := by
  rw [matchDocuments, List.filter_eq_nil_iff]
  intro document hdocument
  obtain ⟨stage, hstage, rfl⟩ := List.mem_map.mp hdocument
  have hother := h stage hstage
  rw [Stage.operator] at hother
  simpa using hother

theorem matchDocuments_filterStages (query : Query) :
    Pipeline.matchDocuments (query.filterStages none) = matchedBy query.filters.toList := by
  rw [Query.filterStages, Query.mapKeys_none, matchedBy, Entries.isEmpty]
  cases query.filters.toList.isEmpty <;> rfl

theorem matchDocuments_bodyStages {body : Pipeline} {page : List PageStage} {maxDepth : Int}
    {materialized : List String} (hnormal : query.Normal maxDepth)
    (h : query.bodyStages registry root none materialized page = .ok body) :
    body.matchDocuments = matchedBy query.filters.toList := by
  obtain ⟨batches, hplan⟩ := Query.exists_bodyPlan hnormal h
  obtain ⟨sorting, hsorting, rfl⟩ := hplan.exists_sorting
  have hembeds : Pipeline.matchDocuments (batches.flatMap (Embed.batchStages none)) = [] := by
    apply Pipeline.matchDocuments_eq_nil
    intro stage hstage
    obtain ⟨batch, _, hbatch⟩ := List.mem_flatMap.mp hstage
    rcases Embed.mem_batchStages_iff.mp hbatch with ⟨_, _, rfl⟩ | ⟨_, rfl⟩
    · exact (by decide : "$lookup" ≠ "$match")
    · exact (by decide : "$set" ≠ "$match")
  have hsort : Pipeline.matchDocuments sorting = [] := by
    apply Pipeline.matchDocuments_eq_nil
    intro stage hstage
    rcases Query.sortStages_cases hsorting with rfl | ⟨criteria, rfl, _⟩
    · cases hstage
    · rw [List.mem_singleton.mp hstage]
      exact (by decide : "$sort" ≠ "$match")
  have hfacet : Pipeline.matchDocuments [.facet page] = [] := by
    apply Pipeline.matchDocuments_eq_nil
    intro stage hstage
    rw [List.mem_singleton.mp hstage]
    exact (by decide : "$facet" ≠ "$match")
  rw [Pipeline.matchDocuments_append, Pipeline.matchDocuments_append,
    Pipeline.matchDocuments_append, hembeds, hsort, hfacet, matchDocuments_filterStages,
    List.nil_append, List.nil_append, List.append_nil]

theorem reserved_keys_isolated (registry : Registry) (query : Query) :
    (∀ extra : List String,
      (∀ key ∈ extra, key.toList.head? = some '$' ∧ key ∉ Query.readKeys) →
      (∀ collection, listing registry collection (query.filterKeys (· ∉ extra)) =
        listing registry collection query) ∧
      ∀ association : Association, association.pipeline registry (query.filterKeys (· ∉ extra)) =
        association.pipeline registry query) ∧
    ∀ collection pipeline, listing registry collection query = .ok pipeline →
      pipeline.matchDocuments =
        matchedBy (query.toList.filter fun entry => entry.1.toList.head? != some '$') := by
  constructor
  · intro extra hextra
    apply outcome_filterKeys
    · intro key hkey
      rw [decide_eq_true_iff]
      exact fun hmem => (hextra key hmem).2 hkey
    · intro key hkey
      rw [decide_eq_true_iff]
      intro hmem
      rw [Query.isReserved, (hextra key hmem).1] at hkey
      cases hkey
  · intro collection pipeline h
    obtain ⟨normal, root, hnormal, _, _, hbody⟩ := listing_eq_ok_iff.mp h
    rw [matchDocuments_bodyStages (Query.normal_of_normalize hnormal) hbody,
      Query.filters_of_normalize hnormal]
    rfl

def Query.laced : Query :=
  Entries.ofList [
    ("$where", .text "this.grade"), (sortKey, .text "-grade"), ("grade", .text "A"),
    ("$or", .list [.document [("grade", .text "B")]]), ("student.name", .document [("$ne", .null)]),
    ("$", .bool true)]

theorem reserved_keys_isolated_laced :
    listing .school (.named "Enrollment") (Query.laced.filterKeys (· ∉ ["$or", "$where", "$"])) =
        listing .school (.named "Enrollment") .laced ∧
      Association.courses.pipeline .school
          (Query.laced.filterKeys (· ∉ ["$or", "$where", "$"])) =
        Association.courses.pipeline .school .laced ∧
      ∃ pipeline, listing .school (.named "Enrollment") .laced = .ok pipeline ∧
        pipeline.matchDocuments = [.document [("$match", .document [
          ("grade", .text "A"), ("student.name", .document [("$ne", .null)])])]] := by
  obtain ⟨hextra, hmatch⟩ := reserved_keys_isolated .school .laced
  obtain ⟨hlisting, hassociation⟩ := hextra ["$or", "$where", "$"] (by decide)
  obtain ⟨pipeline, hpipeline⟩ :
      ∃ pipeline, listing .school (.named "Enrollment") .laced = .ok pipeline := ⟨_, rfl⟩
  exact ⟨hlisting _, hassociation _, pipeline, hpipeline, hmatch _ pipeline hpipeline⟩

end QueryPipeline
