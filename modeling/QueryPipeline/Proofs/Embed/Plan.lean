import Mathlib.Data.List.Nodup
import QueryPipeline.Embed.Walk
import QueryPipeline.Proofs.Path
import QueryPipeline.Stage

namespace QueryPipeline

def Stage.join? : Stage → Option Join
  | .lookup join => some join
  | _ => none

def Stage.firsts : Stage → List String
  | .setFirst paths => paths
  | _ => []

def Pipeline.joins (stages : List Stage) : List Join :=
  stages.filterMap Stage.join?

def Pipeline.firsts (stages : List Stage) : List String :=
  stages.flatMap Stage.firsts

theorem Pipeline.joins_append (front back : List Stage) :
    joins (front ++ back) = joins front ++ joins back :=
  List.filterMap_append

theorem Pipeline.firsts_append (front back : List Stage) :
    firsts (front ++ back) = firsts front ++ firsts back :=
  List.flatMap_append

theorem Pipeline.mem_joins {stages : List Stage} {join : Join} :
    join ∈ joins stages ↔ .lookup join ∈ stages := by
  rw [joins, List.mem_filterMap]
  constructor
  · rintro ⟨stage, hstage, hjoin⟩
    cases stage <;> cases hjoin
    exact hstage
  · intro h
    exact ⟨_, h, rfl⟩

namespace Embed

/-! The joins of all levels, as batches: the paths of one depth that are to be joined,
each with the collection it leads to. -/

abbrev Batch := List (String × Collection)

/-- A batch is determined by the set of its paths, because their order is fixed. -/
structure IsBatch (registry : Registry) (root : Collection)
    (materialized requested : List String) (depth : Nat) (batch : Batch) : Prop where
  ordered : (batch.map Prod.fst).Pairwise (· < ·)
  mem_iff : ∀ path target, (path, target) ∈ batch ↔
    (∃ source ∈ requested, Path.Begins path source) ∧ Path.depth path = depth ∧
      resolve registry root path = .ok target ∧ path ∉ materialized

/-- One batch for every depth, down to that of the deepest request. -/
structure IsPlan (registry : Registry) (root : Collection)
    (materialized requested : List String) (batches : List Batch) : Prop where
  length_eq : batches.length = Path.deepest requested
  isBatch : ∀ index batch, batches[index]? = some batch →
    IsBatch registry root materialized requested (index + 1) batch

def entryJoin (base : Option String) (entry : String × Collection) : Join :=
  Join.byId entry.2.physicalName (Path.qualify entry.1 base)

def batchStages (base : Option String) (batch : Batch) : List Stage :=
  batch.map (fun entry => .lookup (entryJoin base entry)) ++
    if batch.isEmpty then []
    else [.setFirst (batch.map fun entry => Path.qualify entry.1 base)]

variable {registry : Registry} {root : Collection} {base : Option String}
  {materialized requested : List String} {depth : Nat} {batch : Batch} {batches : List Batch}

theorem IsBatch.congr {left right : List String}
    (hpaths : ∀ path, path ∈ left ↔ path ∈ right)
    (h : IsBatch registry root materialized left depth batch) :
    IsBatch registry root materialized right depth batch where
  ordered := h.ordered
  mem_iff := by simpa only [hpaths] using h.mem_iff

theorem IsPlan.congr {left right : List String}
    (hpaths : ∀ path, path ∈ left ↔ path ∈ right)
    (h : IsPlan registry root materialized left batches) :
    IsPlan registry root materialized right batches where
  length_eq := h.length_eq.trans (Path.deepest_congr hpaths)
  isBatch := fun index batch hbatch => (h.isBatch index batch hbatch).congr hpaths

theorem IsBatch.nodup
    (h : IsBatch registry root materialized requested depth batch) :
    (batch.map Prod.fst).Nodup :=
  nodup_of_ascending h.ordered

theorem eq_of_ascending (key : α → String) {left right : List α}
    (hleft : (left.map key).Pairwise (· < ·)) (hright : (right.map key).Pairwise (· < ·))
    (h : ∀ item, item ∈ left ↔ item ∈ right) : left = right := by
  have hperm : left.Perm right :=
    (List.perm_ext_iff_of_nodup (nodup_of_ascending hleft).of_map
      (nodup_of_ascending hright).of_map).mpr h
  apply List.Perm.eq_of_pairwise _ (List.pairwise_map.mp hleft)
    (List.pairwise_map.mp hright) hperm
  intro first second _ _ hfirst hsecond
  exact absurd hsecond (String.lt_asymm hfirst)

theorem disjoint_of_depth (key : α → String) {rows : List (List α)}
    (h : ∀ index row, rows[index]? = some row → ∀ item ∈ row,
      Path.depth (key item) = index + 1) :
    rows.Pairwise fun upper lower => (upper.map key).Disjoint (lower.map key) := by
  rw [List.pairwise_iff_getElem]
  intro upper lower hupper hlower hlt path hpathUpper hpathLower
  obtain ⟨above, habove, rfl⟩ := List.mem_map.mp hpathUpper
  obtain ⟨below, hbelow, heq⟩ := List.mem_map.mp hpathLower
  have hdepthAbove := h upper _ (List.getElem?_eq_getElem hupper) above habove
  have hdepthBelow := h lower _ (List.getElem?_eq_getElem hlower) below hbelow
  rw [heq] at hdepthBelow
  omega

theorem IsBatch.unique {left right : Batch}
    (hleft : IsBatch registry root materialized requested depth left)
    (hright : IsBatch registry root materialized requested depth right) : left = right := by
  apply eq_of_ascending Prod.fst hleft.ordered hright.ordered
  intro entry
  exact (hleft.mem_iff entry.1 entry.2).trans (hright.mem_iff entry.1 entry.2).symm

theorem IsBatch.depth_eq {path : String}
    (h : IsBatch registry root materialized requested depth batch)
    (hpath : path ∈ batch.map Prod.fst) : Path.depth path = depth := by
  obtain ⟨entry, hentry, rfl⟩ := List.mem_map.mp hpath
  exact ((h.mem_iff entry.1 entry.2).mp hentry).2.1

theorem IsPlan.unique {left right : List Batch}
    (hleft : IsPlan registry root materialized requested left)
    (hright : IsPlan registry root materialized requested right) : left = right := by
  apply List.ext_getElem (hleft.length_eq.trans hright.length_eq.symm)
  intro index hindexLeft hindexRight
  exact (hleft.isBatch index _ (List.getElem?_eq_getElem hindexLeft)).unique
    (hright.isBatch index _ (List.getElem?_eq_getElem hindexRight))

theorem IsPlan.exists_batch (h : IsPlan registry root materialized requested batches)
    {entry : String × Collection} (hentry : entry ∈ batches.flatten) :
    ∃ batch, batches[Path.depth entry.1 - 1]? = some batch ∧ entry ∈ batch := by
  obtain ⟨batch, hbatch, hmem⟩ := List.mem_flatten.mp hentry
  obtain ⟨index, hindex⟩ := List.mem_iff_getElem?.mp hbatch
  have hdepth := (h.isBatch index batch hindex).depth_eq (List.mem_map_of_mem hmem)
  exact ⟨batch, by rw [hdepth, Nat.add_sub_cancel, hindex], hmem⟩

theorem IsPlan.mem_flatten_iff (h : IsPlan registry root materialized requested batches)
    {path : String} {target : Collection} :
    (path, target) ∈ batches.flatten ↔
      (∃ source ∈ requested, Path.Begins path source) ∧
        resolve registry root path = .ok target ∧ path ∉ materialized := by
  constructor
  · intro hmem
    obtain ⟨batch, hbatch, hentry⟩ := h.exists_batch hmem
    obtain ⟨hsource, _, hresolve⟩ := ((h.isBatch _ batch hbatch).mem_iff path target).mp hentry
    exact ⟨hsource, hresolve⟩
  · rintro ⟨⟨source, hrequested, hbegins⟩, hresolve⟩
    have hdepth := Path.depth_pos path
    have hindex : Path.depth path - 1 < batches.length := by
      rw [h.length_eq, Path.lt_deepest_iff]
      have hle := hbegins.depth_le
      exact ⟨source, hrequested, by omega⟩
    have hbatch := h.isBatch _ _ (List.getElem?_eq_getElem hindex)
    apply List.mem_flatten.mpr
    refine ⟨_, List.getElem_mem hindex, (hbatch.mem_iff path target).mpr ?_⟩
    exact ⟨⟨source, hrequested, hbegins⟩, by omega, hresolve⟩

theorem IsPlan.nodup_paths
    (h : IsPlan registry root materialized requested batches) :
    (batches.flatten.map Prod.fst).Nodup := by
  rw [List.map_flatten, List.nodup_flatten]
  constructor
  · intro paths hpaths
    obtain ⟨batch, hbatch, rfl⟩ := List.mem_map.mp hpaths
    obtain ⟨index, hindex⟩ := List.mem_iff_getElem?.mp hbatch
    exact (h.isBatch index batch hindex).nodup
  · rw [List.pairwise_map]
    exact disjoint_of_depth Prod.fst fun index batch hbatch _ hentry =>
      (h.isBatch index batch hbatch).depth_eq (List.mem_map_of_mem hentry)

theorem nodup_qualified {batch : Batch} (base : Option String)
    (h : (batch.map Prod.fst).Nodup) :
    (batch.map fun entry => Path.qualify entry.1 base).Nodup := by
  rw [List.nodup_map_iff_inj_on h.of_map]
  intro first hfirst second hsecond heq
  exact List.inj_on_of_nodup_map h hfirst hsecond (Path.qualify_inj heq)

theorem mem_batchStages_iff {base : Option String} {batch : Batch} {stage : Stage} :
    stage ∈ batchStages base batch ↔
      (∃ entry ∈ batch, stage = .lookup (entryJoin base entry)) ∨
        (batch ≠ [] ∧ stage = .setFirst (batch.map fun entry => Path.qualify entry.1 base)) := by
  rw [batchStages, List.mem_append, List.mem_map]
  apply or_congr
  · simp only [eq_comm]
  · cases batch <;> simp

theorem map_target_entryJoin (base : Option String) (batch : Batch) :
    (batch.map (entryJoin base)).map Join.target =
      batch.map fun entry => Path.qualify entry.1 base := by
  rw [List.map_map]
  rfl

theorem joins_batchStages (base : Option String) (batch : Batch) :
    Pipeline.joins (batchStages base batch) = batch.map (entryJoin base) := by
  have hsome : Stage.join? ∘ (fun entry => Stage.lookup (entryJoin base entry)) =
      some ∘ entryJoin base := rfl
  rw [Pipeline.joins, batchStages, List.filterMap_append, List.filterMap_map, hsome,
    List.filterMap_eq_map]
  cases batch with
  | nil => rfl
  | cons entry rest => simp [Stage.join?]

theorem view_plan {view : List Stage → List β} {ofEntry : String × Collection → β}
    (hnil : view [] = []) (happend : ∀ front back, view (front ++ back) = view front ++ view back)
    (hbatch : ∀ batch, view (batchStages base batch) = batch.map ofEntry) (batches : List Batch) :
    view (batches.flatMap (batchStages base)) = batches.flatten.map ofEntry := by
  induction batches with
  | nil => exact hnil
  | cons batch rest ih =>
      rw [List.flatMap_cons, List.flatten_cons, List.map_append, ← ih, happend, hbatch]

theorem joins_plan (base : Option String) (batches : List Batch) :
    Pipeline.joins (batches.flatMap (batchStages base)) =
      batches.flatten.map (entryJoin base) :=
  view_plan rfl Pipeline.joins_append (joins_batchStages base) batches

theorem firsts_batchStages (base : Option String) (batch : Batch) :
    Pipeline.firsts (batchStages base batch) =
      batch.map fun entry => Path.qualify entry.1 base := by
  have hjoins : (batch.map fun entry => Stage.lookup (entryJoin base entry)).flatMap
      Stage.firsts = [] := by
    rw [List.flatMap_map]
    exact List.flatMap_eq_nil_iff.mpr fun _ _ => rfl
  rw [Pipeline.firsts, batchStages, List.flatMap_append, hjoins, List.nil_append]
  cases batch with
  | nil => rfl
  | cons entry rest => simp [Stage.firsts]

theorem firsts_plan (base : Option String) (batches : List Batch) :
    Pipeline.firsts (batches.flatMap (batchStages base)) =
      batches.flatten.map fun entry => Path.qualify entry.1 base :=
  view_plan rfl Pipeline.firsts_append (firsts_batchStages base) batches

end Embed

end QueryPipeline
