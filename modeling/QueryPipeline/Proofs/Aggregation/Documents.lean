import QueryPipeline.Proofs.Aggregation.Body

namespace QueryPipeline

structure DistinctFields (fields : List (String × Value)) : Prop where
  ne_nil : fields ≠ []
  nodup_keys : (fields.map Prod.fst).Nodup

theorem Entries.distinctFields {entries : Entries Value} (h : entries.isEmpty = false) :
    DistinctFields entries.toList :=
  ⟨List.isEmpty_eq_false_iff.mp h, entries.nodup_keys⟩

inductive PageDocument : Value → Prop
  | skip {n : Int} (hn : 0 ≤ n) : PageDocument (.document [("$skip", .int n)])
  | limit {n : Int} (hn : 1 ≤ n) : PageDocument (.document [("$limit", .int n)])
  | group {fields : List (String × Value)} (hfields : DistinctFields fields)
      (hid : "_id" ∈ fields.map Prod.fst) : PageDocument (.document [("$group", .document fields)])

/-- What the database takes for a stage, where `page` is the order of the stages in a facet. -/
inductive StageDocument (page : RegularExpression String) : Value → Prop
  | lookup (source localField foreignField target : String) :
      StageDocument page (.document [("$lookup", .document [
        ("from", .text source), ("localField", .text localField),
        ("foreignField", .text foreignField), ("as", .text target)])])
  | set {fields : List (String × Value)} (hfields : DistinctFields fields)
      (hapart : ∀ outer ∈ fields.map Prod.fst, ∀ inner ∈ fields.map Prod.fst,
        ¬Path.Contains outer inner) : StageDocument page (.document [("$set", .document fields)])
  | sort {fields : List (String × Value)} (hfields : DistinctFields fields)
      (hways : ∀ field ∈ fields, field.2 = .int 1 ∨ field.2 = .int (-1)) :
      StageDocument page (.document [("$sort", .document fields)])
  | filter {fields : List (String × Value)} (hfields : DistinctFields fields) :
      StageDocument page (.document [("$match", .document fields)])
  | unwind (path : String) :
      StageDocument page (.document [("$unwind", .document [("path", .text ("$" ++ path))])])
  | facet {stages : List Value} (hshape : stages.map Value.operator ∈ page.matches')
      (hstages : ∀ stage ∈ stages, PageDocument stage) :
      StageDocument page (.document [("$facet", .document [
        ("content", .list stages),
        ("totalCount", .list [.document [("$count", .text "count")]])])])

/-- The field that a `$lookup` puts its matches into. -/
def Value.joinTarget? : Value → Option String
  | .document [("$lookup", .document fields)] =>
      match fields.lookup "as" with
      | some (.text target) => some target
      | _ => none
  | _ => none

/-- What the database takes for a pipeline that joins into `targets`. -/
structure WellFormedDocuments (shape page : RegularExpression String) (targets : List String)
    (documents : List Value) : Prop where
  shape_mem : documents.map Value.operator ∈ shape.matches'
  stageDocument : ∀ document ∈ documents, StageDocument page document
  joinTargets_eq : documents.filterMap Value.joinTarget? = targets
  nodup_targets : targets.Nodup

theorem PageStage.idField_mem_keys (field : String) :
    idField ∈ (regroupFields field).keys := by
  have hkeys : (regroupFields field).keys =
      if field ∈ [idField] then [idField] else [idField] ++ [field] := Entries.keys_put _ _ _
  rw [hkeys]
  split <;> simp

theorem PageStage.Accepted.document {stage : PageStage} (h : stage.Accepted) :
    PageDocument stage.toValue := by
  cases stage with
  | skip amount =>
      obtain ⟨n, rfl, hn⟩ := h
      exact .skip hn
  | limit amount =>
      obtain ⟨n, rfl, hn⟩ := h
      exact .limit hn
  | regroup field =>
      have hempty : (regroupFields field).isEmpty = false := Entries.isEmpty_ofList _
      exact .group (Entries.distinctFields hempty) (idField_mem_keys field)

variable {shape page : RegularExpression String}

theorem Stage.Accepted.document {stage : Stage} (h : stage.Accepted)
    (hpage : ∀ stages, stage = .facet stages →
      stages.map PageStage.operator ∈ page.matches') :
    StageDocument page stage.toValue := by
  cases stage with
  | lookup join => exact .lookup join.source join.localField join.foreignField join.target
  | setFirst paths =>
      obtain ⟨hne, hnodup, hapart⟩ := h
      have hkeys : (paths.map fun path => (path, firstElement path)).map Prod.fst = paths := by
        simp [Function.comp_def]
      refine .set ⟨fun hnil => hne (List.map_eq_nil_iff.mp hnil), ?_⟩ ?_
      · rwa [hkeys]
      · rwa [hkeys]
  | sort criteria =>
      have hempty : (criteria.mapValues fun _ way => Value.int way.sign).isEmpty = false :=
        List.isEmpty_map.trans h
      refine .sort (Entries.distinctFields hempty) ?_
      intro field hfield
      obtain ⟨criterion, _, rfl⟩ := List.mem_map.mp hfield
      cases criterion.2 with
      | ascending => exact .inl rfl
      | descending => exact .inr rfl
  | filter equalities => exact .filter (Entries.distinctFields h)
  | unwind path => exact .unwind path
  | facet stages =>
      refine .facet ?_ ?_
      · rw [List.map_map]
        exact hpage stages rfl
      · intro document hdocument
        obtain ⟨stage, hstage, rfl⟩ := List.mem_map.mp hdocument
        exact (h stage hstage).document

theorem Stage.joinTarget?_toValue (stage : Stage) :
    stage.toValue.joinTarget? = stage.join?.map Join.target := by
  cases stage <;> rfl

namespace Pipeline

theorem filterMap_joinTarget? (pipeline : Pipeline) :
    (pipeline.map Stage.toValue).filterMap Value.joinTarget? =
      (joins pipeline).map Join.target := by
  rw [joins, List.filterMap_map, List.map_filterMap]
  exact List.filterMap_congr fun stage _ => stage.joinTarget?_toValue

theorem WellFormed.documents {pipeline : Pipeline} (h : pipeline.WellFormed shape page) :
    WellFormedDocuments shape page ((joins pipeline).map Join.target)
      (pipeline.map Stage.toValue) where
  shape_mem := by
    rw [List.map_map]
    exact h.shape_mem
  stageDocument := by
    intro document hdocument
    obtain ⟨stage, hstage, rfl⟩ := List.mem_map.mp hdocument
    exact (h.accepted stage hstage).document fun stages heq => h.page_mem stages (heq ▸ hstage)
  joinTargets_eq := filterMap_joinTarget? pipeline
  nodup_targets := h.nodup_targets

end Pipeline

end QueryPipeline
