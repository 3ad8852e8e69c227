import QueryPipeline.Proofs.Aggregation.Parts
import QueryPipeline.Proofs.Aggregation.Shape

namespace QueryPipeline

def PageStage.Accepted : PageStage → Prop
  | .skip amount => ∃ n : Int, amount = .int n ∧ 0 ≤ n
  | .limit amount => ∃ n : Int, amount = .int n ∧ 1 ≤ n
  | .regroup _ => True

/-- Fields that are set at once may not lie within one another. -/
def Stage.Accepted : Stage → Prop
  | .lookup _ => True
  | .setFirst paths =>
      paths ≠ [] ∧ paths.Nodup ∧
        ∀ outer ∈ paths, ∀ inner ∈ paths, ¬Path.Contains outer inner
  | .sort criteria => criteria.isEmpty = false
  | .filter equalities => equalities.isEmpty = false
  | .unwind _ => True
  | .facet page => ∀ stage ∈ page, stage.Accepted

structure Pipeline.WellFormed (shape page : RegularExpression String)
    (pipeline : Pipeline) : Prop where
  shape_mem : pipeline.map Stage.operator ∈ shape.matches'
  page_mem : ∀ stages, .facet stages ∈ pipeline →
    stages.map PageStage.operator ∈ page.matches'
  accepted : ∀ stage ∈ pipeline, stage.Accepted
  nodup_targets : ((Pipeline.joins pipeline).map Join.target).Nodup

theorem accepted_setFirst_singleton (path : String) : (Stage.setFirst [path]).Accepted := by
  refine ⟨List.cons_ne_nil _ _, List.nodup_singleton path, ?_⟩
  intro outer houter inner hinner
  rw [List.mem_singleton.mp houter, List.mem_singleton.mp hinner]
  exact Path.not_contains_self path

variable {registry : Registry} {root : Collection} {base : Option String}
  {materialized requested : List String} {batches : List Embed.Batch} {query : Query}
  {maxDepth : Int} {page : List PageStage}

theorem Embed.IsBatch.accepted {depth : Nat} {batch : Embed.Batch}
    (h : IsBatch registry root materialized requested depth batch) :
    ∀ stage ∈ batchStages base batch, stage.Accepted := by
  intro stage hstage
  rcases mem_batchStages_iff.mp hstage with ⟨entry, _, rfl⟩ | ⟨hne, rfl⟩
  · trivial
  · refine ⟨fun hnil => hne (List.map_eq_nil_iff.mp hnil), nodup_qualified base h.nodup, ?_⟩
    intro outer houter inner hinner hcontains
    obtain ⟨shallow, hshallow, rfl⟩ := List.mem_map.mp houter
    obtain ⟨deep, hdeep, rfl⟩ := List.mem_map.mp hinner
    -- Both paths have the depth of the batch, but a path is deeper than what contains it.
    have hlt := hcontains.of_qualify.depth_lt
    rw [h.depth_eq (List.mem_map_of_mem hshallow),
      h.depth_eq (List.mem_map_of_mem hdeep)] at hlt
    exact Nat.lt_irrefl _ hlt

theorem Embed.IsPlan.accepted (h : IsPlan registry root materialized requested batches) :
    ∀ stage ∈ batches.flatMap (batchStages base), stage.Accepted := by
  intro stage hstage
  obtain ⟨batch, hbatch, hstage⟩ := List.mem_flatMap.mp hstage
  obtain ⟨index, hindex⟩ := List.mem_iff_getElem?.mp hbatch
  exact (h.isBatch index batch hindex).accepted stage hstage

theorem Query.Normal.accepted (h : query.Normal maxDepth) :
    ∀ stage ∈ query.pageStages, stage.Accepted := by
  intro stage hstage
  rw [pageStages, List.mem_append] at hstage
  cases hstage with
  | inl hskip =>
      rcases h.skipStages with hnone | ⟨n, hstages, hle⟩
      · simp [hnone] at hskip
      · rw [hstages, List.mem_singleton] at hskip
        rw [hskip]
        exact ⟨n, rfl, hle⟩
  | inr hlimit =>
      rcases h.limitStages with hnone | ⟨n, hstages, hle⟩
      · simp [hnone] at hlimit
      · rw [hstages, List.mem_singleton] at hlimit
        rw [hlimit]
        exact ⟨n, rfl, hle⟩

theorem Query.facet_not_mem (query : Query) {sorting : List Stage}
    (hsorting : query.sortStages base = .ok sorting) (batches : List Embed.Batch)
    (stages : List PageStage) :
    .facet stages ∉
      batches.flatMap (Embed.batchStages base) ++ sorting ++ query.filterStages base := by
  rw [List.mem_append, List.mem_append]
  rintro ((hplanned | hsort) | hfilter)
  · obtain ⟨batch, _, hbatch⟩ := List.mem_flatMap.mp hplanned
    rcases Embed.mem_batchStages_iff.mp hbatch with ⟨_, _, heq⟩ | ⟨_, heq⟩ <;> cases heq
  · rcases sortStages_cases hsorting with rfl | ⟨_, rfl, _⟩
    · cases hsort
    · cases List.mem_singleton.mp hsort
  · rcases query.filterStages_cases base with hnone | ⟨_, hstages, _⟩
    · simp [hnone] at hfilter
    · rw [hstages] at hfilter
      cases List.mem_singleton.mp hfilter

structure Query.BodyPlan (query : Query) (registry : Registry) (root : Collection)
    (base : Option String) (materialized : List String) (maxDepth : Int)
    (page : List PageStage) (batches : List Embed.Batch) (body : Pipeline) : Prop where
  exists_plan : ∃ requested, (∀ path ∈ requested, Path.depth path ≤ maxDepth) ∧
    Embed.IsPlan registry root materialized requested batches
  exists_sorting : ∃ sorting, query.sortStages base = .ok sorting ∧
    body = batches.flatMap (Embed.batchStages base) ++ sorting ++ query.filterStages base ++
      [.facet page]

theorem Query.exists_bodyPlan {body : Pipeline} (hnormal : query.Normal maxDepth)
    (h : query.bodyStages registry root base materialized page = .ok body) :
    ∃ batches,
      query.BodyPlan registry root base materialized maxDepth page batches body := by
  obtain ⟨embeds, sorting, hembeds, hsorting, rfl⟩ := bodyStages_eq_ok_iff.mp h
  obtain ⟨requested, hrequested, hcompile⟩ := embedStages_eq_ok_iff.mp hembeds
  obtain ⟨_, batches, hplan, rfl⟩ := Embed.compile_eq_ok_iff.mp hcompile
  exact ⟨batches, ⟨requested, hnormal.depth_le hrequested, hplan⟩, sorting, hsorting, rfl⟩

namespace Query.BodyPlan

variable {body : Pipeline}

theorem exists_tail
    (h : query.BodyPlan registry root base materialized maxDepth page batches body) :
    ∃ tail, body = batches.flatMap (Embed.batchStages base) ++ tail ∧ ∀ stage ∈ tail,
      (∃ criteria, stage = .sort criteria ∧ criteria.isEmpty = false) ∨
        (∃ equalities, stage = .filter equalities ∧ equalities.isEmpty = false) ∨
        stage = .facet page := by
  obtain ⟨sorting, hsorting, rfl⟩ := h.exists_sorting
  refine ⟨sorting ++ (query.filterStages base ++ [.facet page]),
    by simp only [List.append_assoc], ?_⟩
  intro stage hstage
  rw [List.mem_append, List.mem_append] at hstage
  rcases hstage with hsort | hfilter | hfacet
  · rcases sortStages_cases hsorting with rfl | ⟨criteria, rfl, hne⟩
    · cases hsort
    · exact .inl ⟨criteria, List.mem_singleton.mp hsort, hne⟩
  · rcases query.filterStages_cases base with hnone | ⟨equalities, hstages, hne⟩
    · simp [hnone] at hfilter
    · rw [hstages] at hfilter
      exact .inr (.inl ⟨equalities, List.mem_singleton.mp hfilter, hne⟩)
  · exact .inr (.inr (List.mem_singleton.mp hfacet))

theorem joins_eq
    (h : query.BodyPlan registry root base materialized maxDepth page batches body) :
    Pipeline.joins body = batches.flatten.map (Embed.entryJoin base) := by
  obtain ⟨tail, rfl, htail⟩ := h.exists_tail
  have hnone : Pipeline.joins tail = [] := by
    apply List.filterMap_eq_nil_iff.mpr
    intro stage hstage
    rcases htail stage hstage with ⟨_, rfl, _⟩ | ⟨_, rfl, _⟩ | rfl <;> rfl
  rw [Pipeline.joins_append, hnone, List.append_nil, Embed.joins_plan]

theorem shape_mem
    (h : query.BodyPlan registry root base materialized maxDepth page batches body) :
    body.map Stage.operator ∈ Shape.body.matches' := by
  obtain ⟨sorting, hsorting, rfl⟩ := h.exists_sorting
  rw [List.map_append, List.map_append, List.map_append]
  apply Shape.append_mem
  · apply Shape.append_mem
    · exact Shape.append_mem (Shape.plan_mem batches) (Shape.sortStages_mem hsorting)
    · exact Shape.filterStages_mem query
  · exact Shape.mem_char "$facet"

theorem page_eq {stages : List PageStage}
    (h : query.BodyPlan registry root base materialized maxDepth page batches body)
    (hstages : .facet stages ∈ body) : stages = page := by
  obtain ⟨sorting, hsorting, rfl⟩ := h.exists_sorting
  cases List.mem_append.mp hstages with
  | inl hearlier => exact absurd hearlier (query.facet_not_mem hsorting batches stages)
  | inr hlast => exact Stage.facet.inj (List.mem_singleton.mp hlast)

theorem accepted
    (h : query.BodyPlan registry root base materialized maxDepth page batches body)
    (hpage : ∀ stage ∈ page, stage.Accepted) : ∀ stage ∈ body, stage.Accepted := by
  obtain ⟨requested, _, hplan⟩ := h.exists_plan
  obtain ⟨tail, rfl, htail⟩ := h.exists_tail
  intro stage hstage
  cases List.mem_append.mp hstage with
  | inl hplanned => exact hplan.accepted stage hplanned
  | inr hlater =>
      rcases htail stage hlater with ⟨_, rfl, hne⟩ | ⟨_, rfl, hne⟩ | rfl
      · exact hne
      · exact hne
      · exact hpage

theorem nodup_targets
    (h : query.BodyPlan registry root base materialized maxDepth page batches body) :
    ((Pipeline.joins body).map Join.target).Nodup := by
  obtain ⟨requested, _, hplan⟩ := h.exists_plan
  rw [h.joins_eq, Embed.map_target_entryJoin]
  exact Embed.nodup_qualified base hplan.nodup_paths

theorem wellFormed {shape : RegularExpression String}
    (h : query.BodyPlan registry root base materialized maxDepth page batches body)
    (hshape : page.map PageStage.operator ∈ shape.matches')
    (hpage : ∀ stage ∈ page, stage.Accepted) : body.WellFormed Shape.body shape where
  shape_mem := h.shape_mem
  page_mem := fun _ hstages => by rw [h.page_eq hstages]; exact hshape
  accepted := h.accepted hpage
  nodup_targets := h.nodup_targets

theorem exists_of_mem_joins {join : Join}
    (h : query.BodyPlan registry root base materialized maxDepth page batches body)
    (hjoin : join ∈ Pipeline.joins body) :
    ∃ path, join.target = Path.qualify path base ∧ path ∉ materialized ∧
      Path.depth path ≤ maxDepth := by
  obtain ⟨requested, hdepth, hplan⟩ := h.exists_plan
  rw [h.joins_eq, List.mem_map] at hjoin
  obtain ⟨entry, hentry, rfl⟩ := hjoin
  obtain ⟨⟨source, hsource, hbegins⟩, _, hmaterialized⟩ := hplan.mem_flatten_iff.mp hentry
  have hle := hbegins.depth_le
  have hcap := hdepth source hsource
  exact ⟨entry.1, rfl, hmaterialized, by omega⟩

theorem length_batches_le
    (h : query.BodyPlan registry root base materialized maxDepth page batches body)
    (hcap : 0 ≤ maxDepth) : batches.length ≤ maxDepth := by
  obtain ⟨requested, hdepth, hplan⟩ := h.exists_plan
  have hdeepest : Path.deepest requested ≤ maxDepth.toNat := by
    apply Nat.le_of_not_lt
    intro hlt
    obtain ⟨path, hpath, hdeep⟩ := Path.lt_deepest_iff.mp hlt
    have hcap := hdepth path hpath
    omega
  rw [hplan.length_eq]
  omega

theorem count_set_le
    (h : query.BodyPlan registry root base materialized maxDepth page batches body) :
    (body.map Stage.operator).count "$set" ≤ batches.length := by
  obtain ⟨tail, rfl, htail⟩ := h.exists_tail
  have hnone : (tail.map Stage.operator).count "$set" = 0 := by
    rw [List.count_eq_zero, List.mem_map]
    rintro ⟨stage, hstage, hset⟩
    rcases htail stage hstage with ⟨_, rfl, _⟩ | ⟨_, rfl, _⟩ | rfl
    · exact absurd hset (by decide : "$sort" ≠ "$set")
    · exact absurd hset (by decide : "$match" ≠ "$set")
    · exact absurd hset (by decide : "$facet" ≠ "$set")
  rw [List.map_append, List.count_append, hnone, Nat.add_zero]
  exact Shape.count_set_plan batches

end Query.BodyPlan

end QueryPipeline
