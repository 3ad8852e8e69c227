import QueryPipeline.Embed.Joins
import QueryPipeline.Proofs.Embed.Leveled
import QueryPipeline.Proofs.Outcome

namespace QueryPipeline.Embed

namespace Scope

def failure? (scope : Scope) (path : String) : Option Failure :=
  match resolve scope.registry scope.root path with
  | .ok _ => none
  | .error obstacle =>
      if path ∈ scope.requested then
        some ⟨path, Path.join obstacle.segments, obstacle.reason⟩
      else none

def found? (scope : Scope) (path : String) : Option Collection :=
  if path ∈ scope.materialized then none
  else (resolve scope.registry scope.root path).toOption

def entry? (scope : Scope) (path : String) : Option (String × Collection) :=
  (scope.found? path).map fun target => (path, target)

def batch (scope : Scope) (level : Level) : Batch :=
  level.filterMap scope.entry?

def batches (scope : Scope) (levels : List Level) : List Batch :=
  levels.map scope.batch

def firstFailure? (scope : Scope) (levels : List Level) : Option Failure :=
  levels.findSome? fun level => level.findSome? scope.failure?

theorem resolveRequested_eq (scope : Scope) (path : String) :
    resolveRequested scope.registry scope.root scope.requested path =
      unlessFailed (scope.failure? path)
        (resolve scope.registry scope.root path).toOption := by
  rw [resolveRequested, failure?]
  cases resolve scope.registry scope.root path with
  | ok target => rfl
  | error obstacle =>
      by_cases hrequested : path ∈ scope.requested <;> simp [hrequested, Except.toOption]

theorem target?_eq (scope : Scope) (path : String) :
    scope.target? path = unlessFailed (scope.failure? path) (scope.found? path) := by
  rw [target?, resolveRequested_eq, bind_pure_unlessFailed, found?]

theorem joins_eq (scope : Scope) (paths : List String) :
    scope.joins paths = unlessFailed (paths.findSome? scope.failure?)
      ((scope.batch paths).map (entryJoin scope.base)) := by
  have hstep : ∀ path ∈ paths,
      (do let target ← scope.target? path
          return target.map fun collection =>
            Join.byId collection.physicalName (Path.qualify path scope.base)) =
        unlessFailed (scope.failure? path)
          ((scope.entry? path).map (entryJoin scope.base)) := by
    intro path _
    rw [target?_eq, bind_pure_unlessFailed, entry?, Option.map_map]
    rfl
  rw [joins, mapM_eq_unlessFailed hstep, bind_pure_unlessFailed, batch, List.filterMap_map,
    List.map_filterMap]
  rfl

theorem eraseDups_of_nodup {items : List String} (h : items.Nodup) :
    items.eraseDups = items := by
  induction items with
  | nil => rfl
  | cons first rest ih =>
      rw [List.nodup_cons] at h
      have hfilter : (rest.filter fun item => !item == first) = rest := by
        rw [List.filter_eq_self]
        intro item hitem
        have hne : item ≠ first := fun heq => h.1 (heq ▸ hitem)
        simpa using hne
      rw [List.eraseDups_cons, hfilter, ih h.2]

theorem sublist_batch (scope : Scope) (level : Level) :
    ((scope.batch level).map Prod.fst).Sublist level := by
  induction level with
  | nil => exact List.Sublist.refl _
  | cons path rest ih =>
      rw [batch, List.filterMap_cons, entry?]
      cases scope.found? path with
      | none => exact ih.cons path
      | some target => exact ih.cons_cons path

theorem ordered_batch (scope : Scope) {level : Level} (h : level.Pairwise (· < ·)) :
    ((scope.batch level).map Prod.fst).Pairwise (· < ·) :=
  h.sublist (scope.sublist_batch level)

theorem compileLevel_eq (scope : Scope) {level : Level} (h : level.Pairwise (· < ·)) :
    scope.compileLevel level = unlessFailed (level.findSome? scope.failure?)
      ⟨(scope.batch level).map (entryJoin scope.base),
        (scope.batch level).map fun entry => Path.qualify entry.1 scope.base⟩ := by
  have hsorted : sorted level = level :=
    sorted_eq_self (h.imp fun hlt => Std.le_of_lt hlt)
  have hnodup : ((scope.batch level).map Prod.fst).Nodup :=
    nodup_of_ascending (scope.ordered_batch h)
  rw [compileLevel, hsorted, joins_eq, bind_pure_unlessFailed, map_target_entryJoin,
    eraseDups_of_nodup (nodup_qualified scope.base hnodup)]

theorem toStages_batch (base : Option String) (batch : Batch) :
    LevelStages.toStages ⟨batch.map (entryJoin base),
      batch.map fun entry => Path.qualify entry.1 base⟩ = batchStages base batch := by
  rw [LevelStages.toStages, batchStages, List.map_map, List.isEmpty_map]
  rfl

theorem compileLevels_eq (scope : Scope) {levels : List Level}
    (h : ∀ level ∈ levels, level.Pairwise (· < ·)) :
    scope.compileLevels levels = unlessFailed (scope.firstFailure? levels)
      ((scope.batches levels).flatMap (batchStages scope.base)) := by
  rw [compileLevels, mapM_eq_unlessFailed fun level hlevel =>
    scope.compileLevel_eq (h level hlevel), bind_pure_unlessFailed, List.flatMap_map,
    batches, List.flatMap_map]
  simp only [toStages_batch]
  rfl

end Scope

theorem mem_batch {scope : Scope} {level : Level} {path : String} {target : Collection} :
    (path, target) ∈ scope.batch level ↔
      path ∈ level ∧ resolve scope.registry scope.root path = .ok target ∧
        path ∉ scope.materialized := by
  have hfound : ∀ known, scope.found? known = some target ↔
      resolve scope.registry scope.root known = .ok target ∧ known ∉ scope.materialized := by
    intro known
    rw [Scope.found?]
    by_cases hmaterialized : known ∈ scope.materialized
    · simp [hmaterialized]
    · cases resolve scope.registry scope.root known <;> simp [hmaterialized, Except.toOption]
  simp only [Scope.batch, List.mem_filterMap, Scope.entry?, Option.map_eq_some_iff,
    Prod.mk.injEq]
  constructor
  · rintro ⟨known, hknown, other, hother, rfl, rfl⟩
    exact ⟨hknown, (hfound known).mp hother⟩
  · rintro ⟨hpath, hresolve⟩
    exact ⟨path, hpath, target, (hfound path).mpr hresolve, rfl, rfl⟩

theorem isPlan_batches (scope : Scope) :
    IsPlan scope.registry scope.root scope.materialized scope.requested
      (scope.batches (levels scope.requested)) where
  length_eq := by
    rw [Scope.batches, List.length_map, (leveled_levels scope.requested).length_eq]
  isBatch := by
    intro index batch hbatch
    rw [Scope.batches, List.getElem?_map, Option.map_eq_some_iff] at hbatch
    obtain ⟨level, hlevel, rfl⟩ := hbatch
    have hknown := (leveled_levels scope.requested).isLevel index level hlevel
    refine ⟨scope.ordered_batch hknown.ordered, ?_⟩
    intro path target
    rw [mem_batch, hknown.mem_iff, and_assoc]

theorem failure?_eq_none_iff {scope : Scope} {path : String} :
    scope.failure? path = none ↔
      (path ∈ scope.requested →
        ∃ target, resolve scope.registry scope.root path = .ok target) := by
  rw [Scope.failure?]
  cases resolve scope.registry scope.root path with
  | ok target => simp
  | error obstacle => simp

theorem firstFailure?_eq_none_iff {scope : Scope} :
    scope.firstFailure? (levels scope.requested) = none ↔
      ∀ path ∈ scope.requested,
        ∃ target, resolve scope.registry scope.root path = .ok target := by
  simp only [Scope.firstFailure?, List.findSome?_eq_none_iff, failure?_eq_none_iff]
  constructor
  · -- A request stands in the level of its own depth, so none goes unchecked.
    intro h path hpath
    obtain ⟨level, hlevel, hmem⟩ :=
      (leveled_levels scope.requested).exists_level ⟨path, hpath, .refl path⟩
    exact h level (List.mem_of_getElem? hlevel) path hmem hpath
  · intro h level _ path _ hpath
    exact h path hpath

variable {registry : Registry} {root : Collection} {base : Option String}
  {materialized requested : List String}

theorem compile_eq :
    compile registry root base materialized requested =
      unlessFailed
        (Scope.firstFailure? ⟨registry, root, base, requested, materialized⟩ (levels requested))
        ((Scope.batches ⟨registry, root, base, requested, materialized⟩
          (levels requested)).flatMap (batchStages base)) :=
  Scope.compileLevels_eq _ (leveled_levels requested).ordered

theorem compile_eq_ok_iff {stages : List Stage} :
    compile registry root base materialized requested = .ok stages ↔
      (∀ path ∈ requested, ∃ target, resolve registry root path = .ok target) ∧
        ∃ batches, IsPlan registry root materialized requested batches ∧
          stages = batches.flatMap (batchStages base) := by
  have hplan := isPlan_batches ⟨registry, root, base, requested, materialized⟩
  rw [compile_eq, unlessFailed_eq_ok_iff, firstFailure?_eq_none_iff]
  apply and_congr_right
  intro _
  constructor
  · rintro rfl
    exact ⟨_, hplan, rfl⟩
  · rintro ⟨batches, hbatches, rfl⟩
    rw [hplan.unique hbatches]

theorem exists_compile_eq_error_iff :
    (∃ failure, compile registry root base materialized requested = .error failure) ↔
      ∃ path ∈ requested, ∀ target, resolve registry root path ≠ .ok target := by
  have hnone := @firstFailure?_eq_none_iff ⟨registry, root, base, requested, materialized⟩
  simp only [compile_eq, unlessFailed_eq_error_iff]
  rw [← Option.isSome_iff_exists, Option.isSome_iff_ne_none, ne_eq, hnone]
  simp

end QueryPipeline.Embed
