import QueryPipeline.Proofs.Aggregation.WellFormed
import QueryPipeline.Proofs.Embed.FieldsRead
import QueryPipeline.Proofs.Query.Keys

namespace QueryPipeline

/-! Whose documents an association puts in the child's place.  The join of the children
reads the collection that is given, and the joins below it are resolved through the linking
collection's own reference; nothing makes the two agree. -/

namespace Embed

variable {registry : Registry} {root reached target : Collection} {path boundary : String}

theorem Boundary.exists_rest (h : Boundary registry root path boundary reached)
    (hproper : boundary ≠ path) (hresolve : resolve registry root path = .ok target) :
    ∃ rest, path = boundary ++ "." ++ rest ∧ resolve registry reached rest = .ok target := by
  obtain ⟨left, hpassed⟩ := h
  have hleft : left ≠ [] := by
    rintro rfl
    have hdone := hpassed.done_append
    rw [List.append_nil] at hdone
    exact hproper (Path.segments_inj hdone)
  have hsegments := hpassed.segments_join hleft
  refine ⟨Path.join left, ?_, ?_⟩
  · apply Path.segments_inj
    rw [Path.segments_append_dot, hsegments, hpassed.done_append]
  · rw [resolve, hpassed.walkFrom_eq] at hresolve
    apply resolve_eq_ok_iff.mpr
    rw [hsegments]
    exact passes_of_walkFrom_ok .start hresolve

theorem Boundary.collection?_eq (h : Boundary registry root path boundary reached) :
    registry.collection? reached.name = some reached := by
  obtain ⟨_, hpassed⟩ := h
  generalize hdone : Path.segments boundary = done at hpassed
  cases hpassed with
  | start => exact absurd hdone (Path.segments_ne_nil boundary)
  | hop _ next =>
      obtain ⟨name, _, _, hname⟩ := follow_eq_ok_iff.mp next.follows
      obtain ⟨registered, _, heq⟩ := Option.map_eq_some_iff.mp hname
      rw [← heq] at hname ⊢
      exact hname

end Embed

namespace Association

variable {association : Association} {registry : Registry} {query normal : Query} {link : Link}
  {owner child linking reached : Collection} {id : ObjectId} {pipeline body : Pipeline}
  {page : List PageStage} {batches : List Embed.Batch} {path below : String} {join : Join}
  {maxDepth : Int}

theorem exists_plan_of_pipeline (hlink : association.link.resolve = .ok link)
    (hlinking : registry.locate (.named link.linkingCollection) = .ok linking)
    (h : association.pipeline registry query = .ok pipeline) :
    ∃ (normal : Query) (owner child : Collection) (id : ObjectId) (page : List PageStage)
      (batches : List Embed.Batch) (body : Pipeline),
      registry.locate association.child = .ok child ∧
      pipeline = association.openingFor link id owner linking child ++ body ∧
      normal.BodyPlan registry linking (some association.name) [link.childField]
        Query.defaultMaxDepth page batches body ∧
      Embed.IsPlan registry linking [link.childField] query.requests batches ∧
      ∀ path ∈ query.requests, ∃ target, Embed.resolve registry linking path = .ok target := by
  obtain ⟨normal, known, owner, child, root, id, body, hnormal, hknown, _, hchild, hroot, _, _,
    hbody, rfl⟩ := pipeline_eq_ok_iff.mp h
  obtain rfl := Except.ok.inj (hknown.symm.trans hlink)
  obtain rfl := Except.ok.inj (hroot.symm.trans hlinking)
  obtain ⟨embeds, sorting, hembeds, hsorting, rfl⟩ := Query.bodyStages_eq_ok_iff.mp hbody
  obtain ⟨paths, hpaths, hcompile⟩ := Query.embedStages_eq_ok_iff.mp hembeds
  obtain ⟨hresolves, batches, hplan, rfl⟩ := Embed.compile_eq_ok_iff.mp hcompile
  obtain ⟨requested, hrequested, hmem⟩ := Query.exists_embedPaths_of_normalize hnormal
  obtain rfl := Except.ok.inj (hrequested.symm.trans hpaths)
  have hdepth := (Query.normal_of_normalize hnormal).depth_le hrequested
  exact ⟨normal, owner, child, id, _, batches, _, hchild, rfl,
    ⟨⟨requested, hdepth, hplan⟩, sorting, hsorting, rfl⟩, hplan.congr hmem,
    fun path hpath => hresolves path ((hmem path).mpr hpath)⟩

theorem child_eq_of_given (hregistered : registry.collection? reached.name = some reached)
    (hgiven : association.child = .named reached.name ∨ association.child = .resolved reached)
    (hchild : registry.locate association.child = .ok child) : child = reached := by
  rcases hgiven with hnamed | hresolved
  · rw [hnamed, Registry.locate, hregistered] at hchild
    exact (Except.ok.inj hchild).symm
  · rw [hresolved] at hchild
    exact (Except.ok.inj hchild).symm

section

variable (hbody : normal.BodyPlan registry linking (some association.name) [link.childField]
    maxDepth page batches body)

include hbody

theorem mem_joins_childPath_iff (hname : association.name ≠ "") :
    (join ∈ Pipeline.joins (association.openingFor link id owner linking child ++ body) ∧
      join.target = association.childPath link) ↔
        join = Join.byId child.physicalName (association.childPath link) := by
  have hplaced : Join.byId child.physicalName (association.childPath link) ∈
      Pipeline.joins (association.openingFor link id owner linking child ++ body) := by
    rw [Pipeline.joins_append]
    exact List.mem_append_left _ (.tail _ (.head _))
  constructor
  · rintro ⟨hjoin, htarget⟩
    exact List.inj_on_of_nodup_map (nodup_targets hbody hname) hjoin hplaced htarget
  · rintro rfl
    exact ⟨hplaced, rfl⟩

theorem mem_joins_body (hplan : Embed.IsPlan registry linking [link.childField] query.requests
      batches) (hpath : path ∈ query.requests) (hproper : link.childField ≠ path)
    (hresolve : Embed.resolve registry linking path = .ok reached) :
    Join.byId reached.physicalName (Path.qualify path (some association.name)) ∈
      Pipeline.joins body := by
  rw [hbody.joins_eq]
  refine List.mem_map.mpr ⟨(path, reached), hplan.mem_flatten_iff.mpr ⟨?_, hresolve, ?_⟩, rfl⟩
  · exact ⟨path, hpath, Path.Begins.refl path⟩
  · rw [List.mem_singleton]
    exact hproper.symm

theorem exists_of_mem_joins_below (hname : association.name ≠ "")
    (hplan : Embed.IsPlan registry linking [link.childField] query.requests batches)
    (hjoin : join ∈ Pipeline.joins (association.openingFor link id owner linking child ++ body))
    (htarget : join.target = Path.qualify below (some association.name))
    (hbelow : link.childField ≠ below) :
    ∃ target, Embed.resolve registry linking below = .ok target ∧
      join = Join.byId target.physicalName (Path.qualify below (some association.name)) ∧
      [.lookup (Join.byId child.physicalName (association.childPath link)),
        .setFirst [association.childPath link], .lookup join].Sublist
          (association.openingFor link id owner linking child ++ body) := by
  have hembed : join ∈ Pipeline.joins body := by
    rcases cases_of_mem_joins hname hjoin with hself | hchild | hembed
    · exact absurd (htarget.symm.trans hself) (Path.qualify_ne_base hname below)
    · exact absurd (Path.qualify_inj (hchild.symm.trans htarget)) hbelow
    · exact hembed
  have hplaced : [.lookup (Join.byId child.physicalName (association.childPath link)),
      .setFirst [association.childPath link]].Sublist
        (association.openingFor link id owner linking child) :=
    .cons _ (.cons _ (.cons _ (.refl _)))
  have hsublist := hplaced.append (List.singleton_sublist.mpr (Pipeline.mem_joins.mp hembed))
  rw [hbody.joins_eq, List.mem_map] at hembed
  obtain ⟨⟨known, target⟩, hknown, rfl⟩ := hembed
  have hpath : Path.qualify known (some association.name) =
      Path.qualify below (some association.name) := htarget
  obtain rfl := Path.qualify_inj hpath
  exact ⟨target, (hplan.mem_flatten_iff.mp hknown).2.1, rfl, hsublist⟩

end

end Association

theorem child_join_agrees_iff (association : Association) (registry : Registry) (query : Query)
    (link : Link) (linking : Collection) (pipeline : Pipeline)
    (hname : association.name ≠ "") (hlink : association.link.resolve = .ok link)
    (hlinking : registry.locate (.named link.linkingCollection) = .ok linking)
    (h : association.pipeline registry query = .ok pipeline) :
    ∃ child, registry.locate association.child = .ok child ∧
      ((Pipeline.joins pipeline).map Join.target).count (association.childPath link) = 1 ∧
      (∀ join, (join ∈ Pipeline.joins pipeline ∧ join.target = association.childPath link) ↔
        join = Join.byId child.physicalName (association.childPath link)) ∧
      ∀ path ∈ query.requests, ∀ reached,
        Embed.Boundary registry linking path link.childField reached → link.childField ≠ path →
        Embed.resolve registry linking link.childField = .ok reached ∧
        ((∃ join ∈ Pipeline.joins pipeline, join.target = association.childPath link ∧
          join.source = reached.physicalName) ↔ child.physicalName = reached.physicalName) ∧
        (association.child = .named reached.name ∨ association.child = .resolved reached →
          child = reached) ∧
        (∃ join ∈ Pipeline.joins pipeline,
          join.target = Path.qualify path (some association.name)) ∧
        ∀ join ∈ Pipeline.joins pipeline, ∀ below,
          join.target = Path.qualify below (some association.name) →
          Embed.Boundary registry linking below link.childField reached →
          link.childField ≠ below →
          ∃ rest target, below = link.childField ++ "." ++ rest ∧
            Embed.resolve registry reached rest = .ok target ∧
            join = Join.byId target.physicalName (Path.qualify below (some association.name)) ∧
            [.lookup (Join.byId child.physicalName (association.childPath link)),
              .setFirst [association.childPath link], .lookup join].Sublist pipeline := by
  obtain ⟨normal, owner, child, id, page, batches, body, hchild, rfl, hbody, hplan, hresolves⟩ :=
    Association.exists_plan_of_pipeline hlink hlinking h
  have hplaced : ∀ join, (join ∈ Pipeline.joins
      (association.openingFor link id owner linking child ++ body) ∧
        join.target = association.childPath link) ↔
          join = Join.byId child.physicalName (association.childPath link) :=
    fun join => Association.mem_joins_childPath_iff hbody hname
  refine ⟨child, hchild, Association.count_eq_one hbody hname (by simp), hplaced, ?_⟩
  intro path hpath reached hboundary hproper
  refine ⟨hboundary.resolve_eq, ?_, fun hgiven =>
    Association.child_eq_of_given hboundary.collection?_eq hgiven hchild, ?_, ?_⟩
  · constructor
    · rintro ⟨join, hjoin, htarget, hsource⟩
      rw [(hplaced join).mp ⟨hjoin, htarget⟩] at hsource
      exact hsource
    · intro hagree
      obtain ⟨hjoin, htarget⟩ := (hplaced _).mpr rfl
      exact ⟨_, hjoin, htarget, hagree⟩
  · obtain ⟨target, htarget⟩ := hresolves path hpath
    refine ⟨Join.byId target.physicalName _, ?_, rfl⟩
    rw [Pipeline.joins_append]
    exact List.mem_append_right _
      (Association.mem_joins_body hbody hplan hpath hproper htarget)
  · intro join hjoin below htarget hcrosses hbelow
    obtain ⟨target, hresolve, heq, hsublist⟩ :=
      Association.exists_of_mem_joins_below hbody hname hplan hjoin htarget hbelow
    obtain ⟨rest, hrest, hleads⟩ := hcrosses.exists_rest hbelow hresolve
    exact ⟨rest, target, hrest, hleads, heq, hsublist⟩

def Query.staffed : Query :=
  .ofEmbeds ["course.staff.teacher"]

theorem child_join_agrees_iff_courses :
    ∃ pipeline, Association.courses.pipeline .school .staffed = .ok pipeline ∧
      (∀ join, (join ∈ Pipeline.joins pipeline ∧ join.target = "rows.course") ↔
        join = Join.byId "courses" "rows.course") ∧
      [.lookup (Join.byId "courses" "rows.course"), .setFirst ["rows.course"],
        .lookup (Join.byId "teachers" "rows.course.staff.teacher")].Sublist pipeline := by
  obtain ⟨pipeline, hpipeline⟩ :
      ∃ pipeline, Association.courses.pipeline .school .staffed = .ok pipeline := ⟨_, rfl⟩
  obtain ⟨child, hchild, _, hplaced, hjoined⟩ := child_join_agrees_iff .courses .school .staffed _
    .enrollment pipeline (by decide) rfl rfl hpipeline
  cases hchild
  obtain ⟨_, _, _, ⟨join, hjoin, htarget⟩, hbelow⟩ :=
    hjoined "course.staff.teacher" (.head _) _ Embed.boundary_course (by decide)
  obtain ⟨rest, target, hrest, hleads, rfl, hsublist⟩ :=
    hbelow join hjoin _ htarget Embed.boundary_course (by decide)
  have hsplit : "course." ++ "staff.teacher" = "course." ++ rest := hrest
  obtain rfl := (String.append_right_inj "course.").mp hsplit
  cases hleads
  exact ⟨pipeline, hpipeline, hplaced, hsublist⟩

def Association.misplaced : Association :=
  { Association.courses with child := .named "Student" }

theorem child_join_reads_students :
    ∃ link pipeline, Association.misplaced.name ≠ "" ∧
      Association.misplaced.link.resolve = .ok link ∧
      Registry.school.locate (.named link.linkingCollection) = .ok .enrollment ∧
      Association.misplaced.pipeline .school .staffed = .ok pipeline ∧
      ¬∀ path ∈ Query.staffed.requests, ∀ reached,
        Embed.Boundary .school .enrollment path link.childField reached →
        link.childField ≠ path →
        ∀ join ∈ Pipeline.joins pipeline, join.target = Association.misplaced.childPath link →
          join.source = reached.physicalName := by
  refine ⟨_, _, by decide, rfl, rfl, rfl, ?_⟩
  intro hagrees
  have hsource := hagrees "course.staff.teacher" (.head _) _ Embed.boundary_course (by decide)
    (Join.byId "Student" "rows.course") (.tail _ (.head _)) rfl
  exact absurd hsource (by decide)

end QueryPipeline
