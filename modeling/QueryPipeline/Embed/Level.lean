import QueryPipeline.Path
import QueryPipeline.Sorted

namespace QueryPipeline.Embed

/-! Every prefix of the embed paths, grouped by depth.  A level is sorted and holds
a path once, so it is determined by the set of its paths. -/

abbrev Level := List String

def addPrefixes : List String → List Level → List Level
  | [], levels => levels
  | path :: deeper, [] => [path] :: addPrefixes deeper []
  | path :: deeper, level :: levels => insertUnique path level :: addPrefixes deeper levels

def pathPrefixes (path : String) : List String :=
  (Path.prefixes (Path.segments path)).map Path.join

def levels (paths : List String) : List Level :=
  paths.foldl (fun known path => addPrefixes (pathPrefixes path) known) []

theorem length_addPrefixes (paths : List String) (levels : List Level) :
    (addPrefixes paths levels).length = max paths.length levels.length := by
  induction paths generalizing levels with
  | nil => simp [addPrefixes]
  | cons path deeper ih =>
      cases levels with
      | nil => simp [addPrefixes, ih]
      | cons level levels => simp [addPrefixes, ih, Nat.add_max_add_right]

theorem getElem?_addPrefixes (paths : List String) (levels : List Level) (index : Nat) :
    (addPrefixes paths levels)[index]? =
      match paths[index]?, levels[index]? with
      | some path, some level => some (insertUnique path level)
      | some path, none => some [path]
      | none, level => level := by
  induction paths generalizing levels index with
  | nil => simp [addPrefixes]
  | cons path deeper ih =>
      cases levels with
      | nil =>
          cases index with
          | zero => rfl
          | succ index => simpa [addPrefixes] using ih [] index
      | cons level levels =>
          cases index with
          | zero => rfl
          | succ index => simpa [addPrefixes] using ih levels index

@[simp] theorem length_pathPrefixes (path : String) :
    (pathPrefixes path).length = Path.depth path := by
  simp [pathPrefixes, Path.depth]

def levelAt (levels : List Level) (index : Nat) : Level :=
  levels[index]?.getD []

theorem mem_levelAt {levels : List Level} {index : Nat} {path : String} :
    path ∈ levelAt levels index ↔ ∃ level, levels[index]? = some level ∧ path ∈ level := by
  rw [levelAt]
  cases levels[index]? <;> simp

theorem mem_levelAt_addPrefixes {paths : List String} {levels : List Level}
    {index : Nat} {path : String} :
    path ∈ levelAt (addPrefixes paths levels) index ↔
      paths[index]? = some path ∨ path ∈ levelAt levels index := by
  rw [levelAt, levelAt, getElem?_addPrefixes]
  cases hpath : paths[index]? with
  | none => simp
  | some added =>
      cases hlevel : levels[index]? with
      | none => simp [eq_comm]
      | some level => simp [mem_insertUnique, eq_comm]

theorem pairwise_addPrefixes {paths : List String} {levels : List Level}
    (h : ∀ level ∈ levels, level.Pairwise (· < ·)) :
    ∀ level ∈ addPrefixes paths levels, level.Pairwise (· < ·) := by
  induction paths generalizing levels with
  | nil => exact h
  | cons path deeper ih =>
      cases levels with
      | nil =>
          intro level hlevel
          rcases List.mem_cons.mp hlevel with rfl | hlevel
          · exact List.pairwise_singleton _ _
          · exact ih (by simp) level hlevel
      | cons known levels =>
          intro level hlevel
          rcases List.mem_cons.mp hlevel with rfl | hlevel
          · exact pairwise_insertUnique path (h known (by simp))
          · exact ih (fun other hother => h other (by simp [hother])) level hlevel

end QueryPipeline.Embed
