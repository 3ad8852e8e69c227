import Mathlib.Logic.Function.Basic
import QueryPipeline.Proofs.Query.Requested

namespace QueryPipeline

/-! Stages as seen from outside a base.  A base changes no choice that the compilers
make, so their stages can as well be moved below it afterwards. -/

namespace Path

def under (base path : String) : String :=
  base ++ "." ++ path

theorem under_injective (base : String) : Function.Injective (under base) :=
  fun _ _ h => String.append_right_inj (base ++ ".") |>.mp h

theorem qualify_eq_under {base : String} (h : base ≠ "") (path : String) :
    qualify path (some base) = under base path :=
  qualify_some h path

end Path

namespace Entries

variable {rename : String → String}

def renameKeys (rename : String → String) (hrename : Function.Injective rename)
    (entries : Entries α) : Entries α where
  toList := entries.toList.map fun entry => (rename entry.1, entry.2)
  nodup_keys := by
    have hkeys : (entries.toList.map fun entry => (rename entry.1, entry.2)).map Prod.fst =
        entries.keys.map rename := by
      rw [keys, List.map_map, List.map_map]
      rfl
    rw [hkeys]
    exact List.Pairwise.map rename (fun _ _ hne heq => hne (hrename heq)) entries.nodup_keys

theorem putInto_rename (hrename : Function.Injective rename) (key : String) (value : α)
    (entries : List (String × α)) :
    putInto (rename key) value (entries.map fun entry => (rename entry.1, entry.2)) =
      (putInto key value entries).map fun entry => (rename entry.1, entry.2) := by
  induction entries with
  | nil => rfl
  | cons entry rest ih =>
      obtain ⟨known, old⟩ := entry
      by_cases hknown : known = key
      · simp [putInto, hknown]
      · have hne : rename known ≠ rename key := fun heq => hknown (hrename heq)
        simp [putInto, hknown, hne, ih]

theorem put_renameKeys (hrename : Function.Injective rename) (entries : Entries α)
    (key : String) (value : α) :
    (entries.renameKeys rename hrename).put (rename key) value =
      (entries.put key value).renameKeys rename hrename :=
  Entries.ext (putInto_rename hrename key value entries.toList)

theorem ofList_rename (hrename : Function.Injective rename) (pairs : List (String × α)) :
    ofList (pairs.map fun pair => (rename pair.1, pair.2)) =
      (ofList pairs).renameKeys rename hrename := by
  have hfold : ∀ known : Entries α,
      (pairs.map fun pair => (rename pair.1, pair.2)).foldl
          (fun entries pair => entries.put pair.1 pair.2) (known.renameKeys rename hrename) =
        (pairs.foldl (fun entries pair => entries.put pair.1 pair.2) known).renameKeys
          rename hrename := by
    induction pairs with
    | nil => exact fun _ => rfl
    | cons pair rest ih =>
        intro known
        rw [List.map_cons, List.foldl_cons, List.foldl_cons, put_renameKeys, ih]
  exact hfold empty

end Entries

def Join.under (base : String) (join : Join) : Join :=
  { join with
    localField := Path.under base join.localField
    target := Path.under base join.target }

namespace Stage

def under (base : String) : Stage → Stage
  | .lookup join => .lookup (join.under base)
  | .setFirst paths => .setFirst (paths.map (Path.under base))
  | .sort criteria => .sort (criteria.renameKeys _ (Path.under_injective base))
  | .filter equalities => .filter (equalities.renameKeys _ (Path.under_injective base))
  | stage => stage

/-- A stage without its part in the materialized paths, unless nothing is left of it. -/
def without (materialized : List String) : Stage → Option Stage
  | .lookup join => if join.target ∈ materialized then none else some (.lookup join)
  | .setFirst paths =>
      let kept := paths.filter (· ∉ materialized)
      if kept.isEmpty then none else some (.setFirst kept)
  | stage => some stage

end Stage

namespace Embed

variable {registry : Registry} {root : Collection} {base : String}
  {materialized requested : List String}

theorem batch_materialized (level : Level) :
    Scope.batch ⟨registry, root, some base, requested, materialized⟩ level =
      (Scope.batch ⟨registry, root, none, requested, []⟩ level).filter
        (·.1 ∉ materialized) := by
  rw [Scope.batch, Scope.batch, List.filter_filterMap]
  apply List.filterMap_congr
  intro path _
  by_cases hpath : path ∈ materialized
  · cases hresolve : resolve registry root path <;>
      simp [Scope.entry?, Scope.found?, hpath, hresolve, Except.toOption, Option.filter_some]
  · cases hresolve : resolve registry root path <;>
      simp [Scope.entry?, Scope.found?, hpath, hresolve, Except.toOption, Option.filter_some]

theorem filterMap_without_lookups (batch : Batch) :
    (batch.map fun entry => Stage.lookup (entryJoin none entry)).filterMap
        (Stage.without materialized) =
      (batch.filter (·.1 ∉ materialized)).map
        fun entry => Stage.lookup (entryJoin none entry) := by
  induction batch with
  | nil => rfl
  | cons entry rest ih =>
      have hwithout : Stage.without materialized (.lookup (entryJoin none entry)) =
          if entry.1 ∈ materialized then none else some (.lookup (entryJoin none entry)) := rfl
      rw [List.map_cons, List.filterMap_cons, hwithout]
      by_cases hentry : entry.1 ∈ materialized
      · rw [if_pos hentry, List.filter_cons_of_neg (by simpa using hentry), ih]
      · rw [if_neg hentry, List.filter_cons_of_pos (by simpa using hentry), List.map_cons, ih]

theorem filterMap_without_firsts (materialized : List String) (batch : Batch) :
    (if batch.isEmpty then [] else [Stage.setFirst (batch.map Prod.fst)]).filterMap
        (Stage.without materialized) =
      if (batch.filter (·.1 ∉ materialized)).isEmpty then []
      else [.setFirst ((batch.filter (·.1 ∉ materialized)).map Prod.fst)] := by
  have hkept : (batch.map Prod.fst).filter (· ∉ materialized) =
      (batch.filter (·.1 ∉ materialized)).map Prod.fst := List.filter_map
  cases batch with
  | nil => rfl
  | cons entry rest =>
      rw [List.isEmpty_cons, if_neg Bool.false_ne_true, List.filterMap_cons, Stage.without,
        hkept, List.isEmpty_map]
      cases ((entry :: rest).filter (·.1 ∉ materialized)).isEmpty <;> rfl

theorem under_lookup (hbase : base ≠ "") (entry : String × Collection) :
    Stage.under base (.lookup (entryJoin none entry)) =
      .lookup (entryJoin (some base) entry) := by
  rw [entryJoin, entryJoin, Path.qualify_eq_under hbase]
  rfl

theorem under_setFirst (hbase : base ≠ "") (batch : Batch) :
    Stage.under base (.setFirst (batch.map Prod.fst)) =
      .setFirst (batch.map fun entry => Path.qualify entry.1 (some base)) := by
  simp only [Path.qualify_eq_under hbase, Stage.under, List.map_map, Function.comp_def]

theorem batchStages_under (hbase : base ≠ "") (batch : Batch) :
    batchStages (some base) (batch.filter (·.1 ∉ materialized)) =
      ((batchStages none batch).filterMap (Stage.without materialized)).map
        (Stage.under base) := by
  have hfirsts := filterMap_without_firsts materialized batch
  simp only [batchStages, List.filterMap_append, filterMap_without_lookups, List.map_append,
    List.map_map, Function.comp_def, under_lookup hbase, Path.qualify_none]
  rw [hfirsts]
  cases (batch.filter (·.1 ∉ materialized)).isEmpty with
  | true => rfl
  | false => simp [under_setFirst hbase]

theorem compile_under (hbase : base ≠ "") :
    compile registry root (some base) materialized requested =
      (compile registry root none [] requested).map fun stages =>
        (stages.filterMap (Stage.without materialized)).map (Stage.under base) := by
  have hbatches : ∀ levels : List Level,
      (Scope.batches ⟨registry, root, some base, requested, materialized⟩ levels).flatMap
          (batchStages (some base)) =
        (((Scope.batches ⟨registry, root, none, requested, []⟩ levels).flatMap
          (batchStages none)).filterMap (Stage.without materialized)).map
            (Stage.under base) := by
    intro levels
    induction levels with
    | nil => rfl
    | cons level rest ih =>
        rw [Scope.batches, Scope.batches] at ih ⊢
        rw [List.map_cons, List.map_cons, List.flatMap_cons, List.flatMap_cons, ih,
          List.filterMap_append, List.map_append, batch_materialized,
          batchStages_under hbase]
  rw [compile_eq, compile_eq, map_unlessFailed, hbatches]
  rfl

end Embed

namespace Query

theorem sortFields_under {base : String} (hbase : base ≠ "") (criteria : List String) :
    sortFields criteria (some base) =
      (sortFields criteria none).renameKeys _ (Path.under_injective base) := by
  rw [sortFields, sortFields, ← Entries.ofList_rename, List.map_map]
  simp only [Function.comp_def, Path.qualify_eq_under hbase, Path.qualify_none]

theorem mapKeys_under {base : String} (hbase : base ≠ "") (filters : Entries Value) :
    filters.mapKeys (fun key => Path.qualify key (some base)) =
      filters.renameKeys _ (Path.under_injective base) := by
  simp only [Entries.mapKeys, Path.qualify_eq_under hbase]
  rw [Entries.ofList_rename (Path.under_injective base), Entries.ofList_toList]

theorem mapKeys_none (filters : Entries Value) :
    filters.mapKeys (fun key => Path.qualify key none) = filters := by
  simp [Entries.mapKeys]

theorem stages_under_base (query : Query) (registry : Registry) (root : Collection) (base : String)
    (materialized : List String) (hbase : base ≠ "") :
    query.embedStages registry root (some base) materialized =
        (query.embedStages registry root none []).map (fun stages =>
          (stages.filterMap (Stage.without materialized)).map (Stage.under base)) ∧
      query.sortStages (some base) =
        (query.sortStages none).map (List.map (Stage.under base)) ∧
      query.filterStages (some base) = (query.filterStages none).map (Stage.under base) := by
  refine ⟨?_, ?_, ?_⟩
  · cases hpaths : query.embedPaths with
    | error misuse => simp [embedStages, hpaths, bind, Except.bind, Except.map]
    | ok paths =>
        rw [embedStages_of_embedPaths hpaths, embedStages_of_embedPaths hpaths,
          Embed.compile_under hbase]
        cases Embed.compile registry root none [] paths <;> rfl
  · cases hcriteria : query.sortCriteria with
    | error misuse => simp [sortStages, hcriteria, bind, Except.bind, Except.map]
    | ok criteria =>
        simp only [sortStages, hcriteria, bind, Except.bind, pure, Except.pure, Except.map,
          sortFields_under hbase]
        cases criteria <;> rfl
  · rw [filterStages, filterStages, mapKeys_under hbase, mapKeys_none]
    cases query.filters.isEmpty <;> rfl

def byGrade : Query :=
  Entries.ofList [
    (embedKey, Value.texts ["course.staff.teacher", "student"]),
    (sortKey, Value.texts ["-grade", "student.name"]), ("grade", .text "A")]

/-- The course is left out where it is in place already. -/
theorem stages_under_base_rows :
    "rows" ≠ "" ∧
      byGrade.embedStages .school .enrollment (some "rows") ["course"] =
        (byGrade.embedStages .school .enrollment none []).map (fun stages =>
          (stages.filterMap (Stage.without ["course"])).map (Stage.under "rows")) ∧
      byGrade.sortStages (some "rows") =
        (byGrade.sortStages none).map (List.map (Stage.under "rows")) ∧
      byGrade.filterStages (some "rows") =
        (byGrade.filterStages none).map (Stage.under "rows") ∧
      byGrade.embedStages .school .enrollment (some "rows") ["course"] = .ok [
        .lookup ⟨"Student", "rows.student", "_id", "rows.student"⟩,
        .setFirst ["rows.student"],
        .lookup ⟨"teachers", "rows.course.staff.teacher", "_id", "rows.course.staff.teacher"⟩,
        .setFirst ["rows.course.staff.teacher"]] ∧
      byGrade.sortStages (some "rows") = .ok [.sort (Entries.ofList [
        ("rows.grade", .descending), ("rows.student.name", .ascending)])] ∧
      byGrade.filterStages (some "rows") =
        [.filter (Entries.ofList [("rows.grade", .text "A")])] := by
  have hbase : "rows" ≠ "" := by decide
  obtain ⟨hembed, hsort, hfilter⟩ :=
    stages_under_base byGrade .school .enrollment "rows" ["course"] hbase
  exact ⟨hbase, hembed, hsort, hfilter, rfl, rfl, rfl⟩

end Query

end QueryPipeline
