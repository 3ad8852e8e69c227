import QueryPipeline.Schema.Registry

namespace QueryPipeline.Embed

/-! Walking a dotted path across reference fields.  At each collection the walk
takes the longest run of segments that is a field there, follows that field to the
collection it refers to, and goes on with the segments that remain. -/

inductive Reason where
  | notFound
  | notReference
  | noTarget
  | targetNotRegistered
  deriving DecidableEq

namespace Reason

def name : Reason → String
  | .notFound => "NOT_FOUND"
  | .notReference => "NOT_A_REFERENCE"
  | .noTarget => "NO_TARGET"
  | .targetNotRegistered => "TARGET_NOT_REGISTERED"

def message : Reason → String
  | .notFound => "cannot be found in the schema"
  | .notReference => "is not a reference field in the schema"
  | .noTarget => "is a reference field that does not declare any collection"
  | .targetNotRegistered => "is a reference field to a collection that cannot be found"

end Reason

structure Obstacle where
  segments : List String
  reason : Reason
  deriving DecidableEq

structure Failure where
  path : String
  subPath : String
  reason : Reason
  deriving DecidableEq

def Failure.message (failure : Failure) : String :=
  "cannot embed \"" ++ failure.path ++ "\" because \"" ++ failure.subPath ++ "\" " ++
    failure.reason.message

def follow (registry : Registry) (current : Collection) (field : String) :
    Except Reason Collection :=
  match registry.field? current.name field with
  | none => .error .notFound
  | some .plain => .error .notReference
  | some (.reference none) => .error .noTarget
  | some (.reference (some target)) =>
      if target = "" then .error .noTarget
      else
        match registry.collection? target with
        | none => .error .targetNotRegistered
        | some next => .ok next

/-- Follows the field `run` of `current`, which the walk reached by way of `done`. -/
def hop (registry : Registry) (current : Collection) (done run : List String) :
    Except Obstacle Collection :=
  (follow registry current (Path.join run)).mapError fun reason =>
    ⟨done ++ run, reason⟩

/-- Walks on from `current`, where `run` is the field read so far, or nothing. -/
def walkFrom (registry : Registry) (current : Collection) (done run : List String) :
    List String → Except Obstacle Collection
  | [] =>
      match run with
      | [] => .ok current
      | _ :: _ => hop registry current done run
  | next :: rest =>
      if registry.hasField current.name (Path.join (run ++ [next])) then
        walkFrom registry current done (run ++ [next]) rest
      else
        match run with
        | [] => .error ⟨done ++ [next], .notFound⟩
        | _ :: _ =>
            match hop registry current done run with
            | .error obstacle => .error obstacle
            | .ok target =>
                if registry.hasField target.name next then
                  walkFrom registry target (done ++ run) [next] rest
                else .error ⟨done ++ run ++ [next], .notFound⟩

def resolve (registry : Registry) (root : Collection) (path : String) :
    Except Obstacle Collection :=
  walkFrom registry root [] [] (Path.segments path)

/-- Only a requested path has to lead somewhere; any other may be a plain field. -/
def resolveRequested (registry : Registry) (root : Collection) (requested : List String)
    (path : String) : Except Failure (Option Collection) :=
  match resolve registry root path with
  | .ok target => .ok (some target)
  | .error obstacle =>
      if path ∈ requested then
        .error ⟨path, Path.join obstacle.segments, obstacle.reason⟩
      else .ok none

end QueryPipeline.Embed
