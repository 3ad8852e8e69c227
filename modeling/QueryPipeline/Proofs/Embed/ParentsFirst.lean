import QueryPipeline.Proofs.Embed.Hops
import QueryPipeline.Proofs.Query.Requested

namespace QueryPipeline.Embed

variable {registry : Registry} {root : Collection} {base : Option String}
  {materialized requested : List String} {batches : List Batch}

theorem sublist_flatMap_of_lt {items : List α} {give : α → List β} {left right : Nat}
    {first second : α} {front back : List β} (hlt : left < right)
    (hleft : items[left]? = some first) (hright : items[right]? = some second)
    (hfront : front.Sublist (give first)) (hback : back.Sublist (give second)) :
    (front ++ back).Sublist (items.flatMap give) := by
  have hsplit : items.flatMap give =
      (items.take right).flatMap give ++ (items.drop right).flatMap give := by
    rw [← List.flatMap_append, List.take_append_drop]
  have hfirst : first ∈ items.take right :=
    List.mem_of_getElem? (i := left) (by rw [List.getElem?_take_of_lt hlt, hleft])
  have hsecond : second ∈ items.drop right :=
    List.mem_of_getElem? (i := 0) (by rw [List.getElem?_drop, Nat.add_zero, hright])
  rw [hsplit, List.flatMap_def, List.flatMap_def]
  apply List.Sublist.append
  · exact hfront.trans (List.sublist_flatten_of_mem (List.mem_map_of_mem hfirst))
  · exact hback.trans (List.sublist_flatten_of_mem (List.mem_map_of_mem hsecond))

theorem sublist_batchStages {batch : Batch} {path : String} {target : Collection}
    (h : (path, target) ∈ batch) :
    [Stage.lookup (entryJoin base (path, target)),
      .setFirst (batch.map fun entry => Path.qualify entry.1 base)].Sublist
        (batchStages base batch) := by
  have hne : batch.isEmpty = false := by
    cases batch with
    | nil => simp at h
    | cons _ _ => rfl
  rw [batchStages, hne]
  have hjoin : [Stage.lookup (entryJoin base (path, target))].Sublist
      (batch.map fun entry => Stage.lookup (entryJoin base entry)) := by
    rw [List.singleton_sublist]
    exact List.mem_map_of_mem h
  exact hjoin.append (List.Sublist.refl [_])

theorem IsPlan.boundary_mem (h : IsPlan registry root materialized requested batches)
    {path boundary : String} {target reached : Collection}
    (hpath : (path, target) ∈ batches.flatten)
    (hboundary : Boundary registry root path boundary reached)
    (hmaterialized : boundary ∉ materialized) :
    (boundary, reached) ∈ batches.flatten := by
  obtain ⟨⟨source, hsource, hbegins⟩, _⟩ := h.mem_flatten_iff.mp hpath
  exact h.mem_flatten_iff.mpr
    ⟨⟨source, hsource, hboundary.begins.trans hbegins⟩, hboundary.resolve_eq, hmaterialized⟩

theorem IsPlan.shallower_before (base : Option String)
    (h : IsPlan registry root materialized requested batches)
    {shallow deep : String × Collection} (hshallow : shallow ∈ batches.flatten)
    (hdeep : deep ∈ batches.flatten) (hdepth : Path.depth shallow.1 < Path.depth deep.1) :
    ∃ firsts, Path.qualify shallow.1 base ∈ firsts ∧
      [Stage.lookup (entryJoin base shallow), .setFirst firsts,
        .lookup (entryJoin base deep)].Sublist (batches.flatMap (batchStages base)) := by
  obtain ⟨batch, hbatch, hmem⟩ := h.exists_batch hshallow
  obtain ⟨deeper, hdeeper, hdeep⟩ := h.exists_batch hdeep
  have hlt : Path.depth shallow.1 - 1 < Path.depth deep.1 - 1 := by
    have hpos := Path.depth_pos shallow.1
    omega
  refine ⟨batch.map fun entry => Path.qualify entry.1 base,
    List.mem_map.mpr ⟨_, hmem, rfl⟩, ?_⟩
  apply sublist_flatMap_of_lt hlt hbatch hdeeper (sublist_batchStages hmem)
  exact (List.sublist_append_left [_] [_]).trans (sublist_batchStages hdeep)

theorem IsPlan.join_before (base : Option String)
    (h : IsPlan registry root materialized requested batches)
    {path boundary : String} {target reached : Collection}
    (hpath : (path, target) ∈ batches.flatten)
    (hboundary : Boundary registry root path boundary reached) (hproper : boundary ≠ path)
    (hmaterialized : boundary ∉ materialized) :
    ∃ firsts, Path.qualify boundary base ∈ firsts ∧
      [Stage.lookup (entryJoin base (boundary, reached)), .setFirst firsts,
        .lookup (entryJoin base (path, target))].Sublist
          (batches.flatMap (batchStages base)) :=
  h.shallower_before base (h.boundary_mem hpath hboundary hmaterialized) hpath
    (hboundary.begins.depth_lt hproper)

theorem boundary_course :
    Boundary .school .enrollment "course.staff.teacher" "course" ⟨"Course", "courses"⟩ := by
  have hhop : Hop .school .enrollment ["course"] ["staff", "teacher"] ⟨"Course", "courses"⟩ := by
    refine ⟨⟨?_, ?_⟩, by simp, rfl⟩
    · intro initial hne hinitial
      have hsingle : initial <+: [] ++ ["course"] := hinitial
      rcases List.prefix_concat_iff.mp hsingle with rfl | hinitial
      · rfl
      · exact absurd (List.prefix_nil.mp hinitial) hne
    · intro next hnext
      cases hnext
      rfl
  exact ⟨["staff", "teacher"], .hop .start hhop⟩

theorem parents_joined_first (registry : Registry) (root : Collection) :
    (∀ path target, resolve registry root path = .ok target ↔
      Boundary registry root path path target) ∧
    (∀ path boundary reached, Boundary registry root path boundary reached →
      resolve registry root boundary = .ok reached) ∧
    ∀ (query : Query) (base : Option String) (materialized : List String)
      (stages : List Stage),
      query.embedStages registry root base materialized = .ok stages →
      ∀ path join, join.target = Path.qualify path base → .lookup join ∈ stages →
      ∀ boundary reached, Boundary registry root path boundary reached →
        boundary ≠ path → boundary ∉ materialized →
        ((Pipeline.joins stages).map Join.target).count (Path.qualify boundary base) = 1 ∧
          (Pipeline.firsts stages).count (Path.qualify boundary base) = 1 ∧
          ∃ firsts, Path.qualify boundary base ∈ firsts ∧
            [.lookup (Join.byId reached.physicalName (Path.qualify boundary base)),
              .setFirst firsts, .lookup join].Sublist stages := by
  refine ⟨fun path target => boundary_self_iff.symm,
    fun path boundary reached h => h.resolve_eq, ?_⟩
  intro query base materialized stages hstages path join htarget hjoin boundary reached
    hboundary hproper hmaterialized
  obtain ⟨requested, _, hcompile⟩ := Query.embedStages_eq_ok_iff.mp hstages
  obtain ⟨_, batches, hplan, rfl⟩ := compile_eq_ok_iff.mp hcompile
  rw [← Pipeline.mem_joins, joins_plan, List.mem_map] at hjoin
  obtain ⟨⟨known, target⟩, hknown, rfl⟩ := hjoin
  obtain rfl : known = path := Path.qualify_inj htarget
  obtain ⟨firsts, hfirsts, hsublist⟩ :=
    hplan.join_before base hknown hboundary hproper hmaterialized
  have hnodup := nodup_qualified base hplan.nodup_paths
  have hmem : Path.qualify boundary base ∈
      batches.flatten.map fun entry => Path.qualify entry.1 base :=
    List.mem_map.mpr ⟨_, hplan.boundary_mem hknown hboundary hmaterialized, rfl⟩
  refine ⟨?_, ?_, firsts, hfirsts, hsublist⟩
  · rw [joins_plan, map_target_entryJoin]
    exact List.count_eq_one_of_mem hnodup hmem
  · rw [firsts_plan]
    exact List.count_eq_one_of_mem hnodup hmem

theorem parents_joined_first_course :
    Boundary .school .enrollment "course.staff.teacher" "course" ⟨"Course", "courses"⟩ ∧
    ∃ stages firsts, (Query.ofEmbeds ["course.staff.teacher"]).embedStages .school .enrollment
        (some "rows") [] = .ok stages ∧
      ((Pipeline.joins stages).map Join.target).count "rows.course" = 1 ∧
      (Pipeline.firsts stages).count "rows.course" = 1 ∧
      "rows.course" ∈ firsts ∧
      [.lookup (Join.byId "courses" "rows.course"), .setFirst firsts,
        .lookup (Join.byId "teachers" "rows.course.staff.teacher")].Sublist stages := by
  obtain ⟨htargets, hfirsts, firsts, hmem, hsublist⟩ :=
    (parents_joined_first .school .enrollment).2.2 (Query.ofEmbeds ["course.staff.teacher"])
      (some "rows") [] _ rfl "course.staff.teacher"
      (Join.byId "teachers" "rows.course.staff.teacher") rfl
      (.tail _ (.tail _ (.head _))) "course" _ boundary_course (by decide) (by simp)
  exact ⟨boundary_course, _, firsts, rfl, htargets, hfirsts, hmem, hsublist⟩

end QueryPipeline.Embed
