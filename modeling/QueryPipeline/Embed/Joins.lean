import QueryPipeline.Embed.Level
import QueryPipeline.Embed.Walk
import QueryPipeline.Stage

namespace QueryPipeline.Embed

/-! From embed paths to joins: a level's prefixes are joined in one batch, and one
stage then replaces each joined array by its element. -/

/-- What the joins of all levels share.  A materialized path is checked, but its
documents are in place already. -/
structure Scope where
  registry : Registry
  root : Collection
  base : Option String
  requested : List String
  materialized : List String

structure LevelStages where
  joins : List Join
  firsts : List String

def LevelStages.toStages (stages : LevelStages) : List Stage :=
  stages.joins.map .lookup ++
    if stages.firsts.isEmpty then [] else [.setFirst stages.firsts]

namespace Scope

def target? (scope : Scope) (path : String) : Except Failure (Option Collection) := do
  let target ← resolveRequested scope.registry scope.root scope.requested path
  return if path ∈ scope.materialized then none else target

def joins (scope : Scope) (paths : List String) : Except Failure (List Join) := do
  let found ← paths.mapM fun path => do
    let target ← scope.target? path
    return target.map fun collection =>
      Join.byId collection.physicalName (Path.qualify path scope.base)
  return found.filterMap id

def compileLevel (scope : Scope) (level : List String) :
    Except Failure LevelStages := do
  let joins ← scope.joins (sorted level)
  return ⟨joins, (joins.map Join.target).eraseDups⟩

def compileLevels (scope : Scope) (levels : List Level) :
    Except Failure (List Stage) := do
  let compiled ← levels.mapM scope.compileLevel
  return compiled.flatMap LevelStages.toStages

end Scope

def compile (registry : Registry) (root : Collection) (base : Option String)
    (materialized paths : List String) : Except Failure (List Stage) :=
  Scope.compileLevels ⟨registry, root, base, paths, materialized⟩ (levels paths)

end QueryPipeline.Embed
