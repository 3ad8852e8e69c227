import QueryPipeline.Proofs.Aggregation.Documents

namespace QueryPipeline

variable {registry : Registry} {query : Query} {maxDepth : Int} {page : List PageStage}

namespace Association

variable {association : Association} {link : Link} {id : ObjectId}
  {owner linking child : Collection} {body : Pipeline}

def childPath (association : Association) (link : Link) : String :=
  Path.qualify link.childField (some association.name)

theorem opening_mem :
    (association.openingFor link id owner linking child).map Stage.operator ∈
      Shape.opening.matches' := by
  have h := Shape.append_mem (Shape.append_mem (Shape.append_mem (Shape.append_mem
    (Shape.mem_char "$match") (Shape.mem_char "$lookup")) (Shape.mem_char "$unwind"))
    (Shape.mem_char "$lookup")) (Shape.mem_char "$set")
  exact h

theorem opening_accepted :
    ∀ stage ∈ association.openingFor link id owner linking child, stage.Accepted := by
  intro stage hstage
  simp only [openingFor, opening, List.mem_cons, List.not_mem_nil, or_false] at hstage
  rcases hstage with rfl | rfl | rfl | rfl | rfl
  · rfl
  · trivial
  · trivial
  · trivial
  · exact accepted_setFirst_singleton _

theorem targets_opening (hname : association.name ≠ "") :
    (Pipeline.joins (association.openingFor link id owner linking child)).map Join.target =
      [association.name, association.childPath link] := by
  have hinto : (Join.into linking.physicalName idField
      ((Link.given link.ownerField).getD owner.physicalName) (some association.name)).target =
        association.name := by
    simp [Join.into, Option.filter_some, hname]
  have htargets : (Pipeline.joins
      (association.openingFor link id owner linking child)).map Join.target =
        [(Join.into linking.physicalName idField
          ((Link.given link.ownerField).getD owner.physicalName)
          (some association.name)).target, association.childPath link] := rfl
  rw [htargets, hinto]

theorem cases_of_mem_joins {join : Join} (hname : association.name ≠ "")
    (hjoin : join ∈
      Pipeline.joins (association.openingFor link id owner linking child ++ body)) :
    join.target = association.name ∨ join.target = association.childPath link ∨
      join ∈ Pipeline.joins body := by
  rw [Pipeline.joins_append, List.mem_append] at hjoin
  cases hjoin with
  | inl hfixed =>
      have htarget : join.target ∈ [association.name, association.childPath link] := by
        rw [← targets_opening hname]
        exact List.mem_map_of_mem hfixed
      exact (List.mem_pair.mp htarget).imp_right .inl
  | inr hembed => exact .inr (.inr hembed)

theorem page_mem (h : query.Normal maxDepth) (name : String) :
    (query.pageStages ++ [PageStage.regroup name]).map PageStage.operator ∈
      (Shape.page * .char "$group").matches' := by
  rw [List.map_append]
  exact Shape.append_mem (Shape.pageStages_mem h) (Shape.mem_char "$group")

theorem page_accepted (h : query.Normal maxDepth) (name : String) :
    ∀ stage ∈ query.pageStages ++ [PageStage.regroup name], stage.Accepted := by
  intro stage hstage
  cases List.mem_append.mp hstage with
  | inl hpage => exact h.accepted stage hpage
  | inr hgroup =>
      rw [List.mem_singleton.mp hgroup]
      trivial

section

variable {batches : List Embed.Batch}
  (hplan : query.BodyPlan registry linking (some association.name) [link.childField] maxDepth
    page batches body)

include hplan

theorem count_set_le :
    ((association.openingFor link id owner linking child ++ body).map
      Stage.operator).count "$set" ≤ 1 + batches.length := by
  have hopening : ((association.openingFor link id owner linking child).map
      Stage.operator).count "$set" = 1 := rfl
  rw [List.map_append, List.count_append, hopening]
  exact Nat.add_le_add_left hplan.count_set_le 1

variable (hname : association.name ≠ "")

include hname

theorem nodup_targets :
    ((Pipeline.joins (association.openingFor link id owner linking child ++ body)).map
      Join.target).Nodup := by
  rw [Pipeline.joins_append, List.map_append, targets_opening hname, List.nodup_append]
  refine ⟨?_, hplan.nodup_targets, ?_⟩
  · rw [List.nodup_cons, List.mem_singleton]
    exact ⟨(Path.qualify_ne_base hname link.childField).symm, List.nodup_singleton _⟩
  · intro fixed hfixed target htarget heq
    obtain ⟨join, hjoin, rfl⟩ := List.mem_map.mp htarget
    obtain ⟨path, hpath, hmaterialized, _⟩ := hplan.exists_of_mem_joins hjoin
    rw [hpath] at heq
    -- An embed leads below the base, and the child's field is in place already.
    rcases List.mem_cons.mp hfixed with rfl | hchild
    · exact Path.qualify_ne_base hname path heq.symm
    · rw [List.mem_singleton.mp hchild] at heq
      exact hmaterialized (List.mem_singleton.mpr (Path.qualify_inj heq).symm)

theorem wellFormed {shape : RegularExpression String}
    (hshape : page.map PageStage.operator ∈ shape.matches')
    (hpage : ∀ stage ∈ page, stage.Accepted) :
    Pipeline.WellFormed (Shape.opening * Shape.body) shape
      (association.openingFor link id owner linking child ++ body) where
  shape_mem := by
    rw [List.map_append]
    exact Shape.append_mem opening_mem hplan.shape_mem
  page_mem := by
    intro stages hstages
    cases List.mem_append.mp hstages with
    | inl hopening =>
        simp [openingFor, opening] at hopening
    | inr hbody =>
        rw [hplan.page_eq hbody]
        exact hshape
  accepted := by
    intro stage hstage
    cases List.mem_append.mp hstage with
    | inl hopening => exact opening_accepted stage hopening
    | inr hbody => exact hplan.accepted hpage stage hbody
  nodup_targets := nodup_targets hplan hname

theorem count_eq_one {path : String}
    (hpath : path ∈ [association.name, association.childPath link]) :
    ((Pipeline.joins (association.openingFor link id owner linking child ++ body)).map
      Join.target).count path = 1 := by
  apply List.count_eq_one_of_mem (nodup_targets hplan hname)
  rw [Pipeline.joins_append, List.map_append, targets_opening hname]
  exact List.mem_append_left _ hpath

/-- Apart from the child, whose field is given by the link, no target is too deep. -/
theorem depth_target_le {join : Join} (hcap : 0 ≤ maxDepth)
    (hjoin : join ∈ Pipeline.joins (association.openingFor link id owner linking child ++ body))
    (hother : join.target ≠ association.childPath link) :
    Path.depth join.target ≤ Path.depth association.name + maxDepth := by
  rcases cases_of_mem_joins hname hjoin with hself | hchild | hembed
  · rw [hself]
    omega
  · exact absurd hchild hother
  · obtain ⟨path, hpath, _, hdepth⟩ := hplan.exists_of_mem_joins hembed
    rw [hpath, Path.qualify_some hname, Path.depth_append_dot]
    omega

end

end Association

theorem pipelines_wellFormed (query : Query) (registry : Registry) :
    (∀ collection pipeline, listing registry collection query = .ok pipeline →
      pipeline.WellFormed Shape.body Shape.page ∧
        (pipeline.map Stage.operator).count "$set" ≤ 16 ∧
        (∀ join ∈ Pipeline.joins pipeline, Path.depth join.target ≤ 16) ∧
        WellFormedDocuments Shape.body Shape.page ((Pipeline.joins pipeline).map Join.target)
          (pipeline.map Stage.toValue)) ∧
    ∀ (association : Association) link pipeline, association.name ≠ "" →
      association.link.resolve = .ok link →
      association.pipeline registry query = .ok pipeline →
      pipeline.WellFormed (Shape.opening * Shape.body) (Shape.page * .char "$group") ∧
        ((Pipeline.joins pipeline).map Join.target).count association.name = 1 ∧
        ((Pipeline.joins pipeline).map Join.target).count (association.childPath link) = 1 ∧
        (pipeline.map Stage.operator).count "$set" ≤ 17 ∧
        (∀ join ∈ Pipeline.joins pipeline, join.target ≠ association.childPath link →
          Path.depth join.target ≤ Path.depth association.name + 16) ∧
        WellFormedDocuments (Shape.opening * Shape.body) (Shape.page * .char "$group")
          ((Pipeline.joins pipeline).map Join.target) (pipeline.map Stage.toValue) := by
  refine ⟨?_, ?_⟩
  · intro collection pipeline h
    obtain ⟨normal, root, hnormalize, _, _, hbody⟩ := listing_eq_ok_iff.mp h
    have hnormal := Query.normal_of_normalize hnormalize
    obtain ⟨batches, hplan⟩ := Query.exists_bodyPlan hnormal hbody
    have hcount := hplan.count_set_le
    have hlength : batches.length ≤ (16 : Int) := hplan.length_batches_le (by decide)
    have hwellFormed := hplan.wellFormed (Shape.pageStages_mem hnormal) hnormal.accepted
    refine ⟨hwellFormed, by omega, ?_, hwellFormed.documents⟩
    intro join hjoin
    obtain ⟨path, hpath, _, hdepth⟩ := hplan.exists_of_mem_joins hjoin
    have hcap : Path.depth path ≤ (16 : Int) := hdepth
    rw [hpath, Path.qualify_none]
    omega
  · intro association link pipeline hname hlink h
    obtain ⟨normal, known, owner, child, linking, id, body, hnormalize, hknown, _, _, _, _, _,
      hbody, rfl⟩ := Association.pipeline_eq_ok_iff.mp h
    obtain rfl : known = link := Except.ok.inj (hknown.symm.trans hlink)
    have hnormal := Query.normal_of_normalize hnormalize
    obtain ⟨batches, hplan⟩ := Query.exists_bodyPlan hnormal hbody
    have hlength : batches.length ≤ (16 : Int) := hplan.length_batches_le (by decide)
    have hwellFormed : Pipeline.WellFormed (Shape.opening * Shape.body)
        (Shape.page * .char "$group")
        (association.openingFor known id owner linking child ++ body) :=
      Association.wellFormed hplan hname (Association.page_mem hnormal _)
        (Association.page_accepted hnormal _)
    refine ⟨hwellFormed, ?_, ?_, ?_, ?_, hwellFormed.documents⟩
    · exact Association.count_eq_one hplan hname (by simp)
    · exact Association.count_eq_one hplan hname (by simp)
    · exact Nat.le_trans (Association.count_set_le hplan) (by omega)
    · intro join hjoin hother
      have hdepth : (_ : Int) ≤ _ + 16 :=
        Association.depth_target_le hplan hname (by decide) hjoin hother
      omega

def Query.graded : Query :=
  Entries.ofList [
    (embedKey, Value.texts ["course", "course.staff.teacher", "student"]),
    (sortKey, .text "-grade"), (skipKey, .text "5"), (limitKey, .int 10),
    ("grade", .text "A")]

/-- The course is requested as well as linked, and joined once. -/
theorem pipelines_wellFormed_courses :
    (∃ pipeline, listing .school (.named "Enrollment") .graded = .ok pipeline ∧
      pipeline.WellFormed Shape.body Shape.page ∧
      WellFormedDocuments Shape.body Shape.page
        ["course", "student", "course.staff.teacher"] (pipeline.map Stage.toValue)) ∧
    ∃ pipeline link, Association.courses.name ≠ "" ∧
      Association.courses.link.resolve = .ok link ∧
      Association.courses.pipeline .school .graded = .ok pipeline ∧
      pipeline.WellFormed (Shape.opening * Shape.body) (Shape.page * .char "$group") ∧
      ((Pipeline.joins pipeline).map Join.target).count
        (Association.courses.childPath link) = 1 ∧
      WellFormedDocuments (Shape.opening * Shape.body) (Shape.page * .char "$group")
        ["rows", "rows.course", "rows.student", "rows.course.staff.teacher"]
        (pipeline.map Stage.toValue) := by
  obtain ⟨listed, hlisted, hlistedTargets⟩ :
      ∃ pipeline, listing .school (.named "Enrollment") .graded = .ok pipeline ∧
        (Pipeline.joins pipeline).map Join.target =
          ["course", "student", "course.staff.teacher"] := ⟨_, rfl, rfl⟩
  obtain ⟨linked, hlinked, hlinkedTargets⟩ :
      ∃ pipeline, Association.courses.pipeline .school .graded = .ok pipeline ∧
        (Pipeline.joins pipeline).map Join.target =
          ["rows", "rows.course", "rows.student", "rows.course.staff.teacher"] := ⟨_, rfl, rfl⟩
  have hname : Association.courses.name ≠ "" := by decide
  obtain ⟨hlisting, _, _, hlistedDocuments⟩ :=
    (pipelines_wellFormed .graded .school).1 _ listed hlisted
  obtain ⟨hwellFormed, _, hchild, _, _, hlinkedDocuments⟩ :=
    (pipelines_wellFormed .graded .school).2 Association.courses _ linked hname rfl hlinked
  rw [hlistedTargets] at hlistedDocuments
  rw [hlinkedTargets] at hlinkedDocuments
  exact ⟨⟨listed, hlisted, hlisting, hlistedDocuments⟩,
    linked, _, hname, rfl, hlinked, hwellFormed, hchild, hlinkedDocuments⟩

end QueryPipeline
