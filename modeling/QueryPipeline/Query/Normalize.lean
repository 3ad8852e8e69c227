import QueryPipeline.Path
import QueryPipeline.Query.Basic
import QueryPipeline.Text.Integer

namespace QueryPipeline.Query

/-! Checking the reserved keys, and giving their values one shape: trimmed texts for
`$embed` and `$sort`, integers for `$skip` and `$limit`. -/

def trimmedPath (key : String) : Value → Except Rejection String
  | .text s =>
      if Text.trim s = "" then .error ⟨key, .notPath, .text s⟩
      else .ok (Text.trim s)
  | entry => .error ⟨key, .notPath, entry⟩

def trimmedPaths (key : String) (value : Value) : Except Rejection (List String) :=
  value.asList.mapM (trimmedPath key)

/-- The first path that fails a later check is the one to blame. -/
def blameFirst (key : String) (complaint : Complaint) (fails : String → Bool)
    (paths : List String) : Except Rejection (List String) :=
  match paths.find? fails with
  | some path => .error ⟨key, complaint, .text path⟩
  | none => .ok paths

/-- Every hop of a walk takes a segment, so this also bounds walks round a cycle. -/
def defaultMaxDepth : Int := 16

def isTooDeep (maxDepth : Int) (path : String) : Bool :=
  maxDepth < Path.depth path

def normalEmbeds (maxDepth : Int) (value : Value) : Except Rejection Value := do
  let paths ← trimmedPaths embedKey value
  let paths ← blameFirst embedKey (.tooDeep maxDepth) (isTooDeep maxDepth) paths
  return Value.texts paths.eraseDups

def lacksField (criterion : String) : Bool :=
  criterion.toList.all (· == '-')

def normalSort (value : Value) : Except Rejection Value := do
  let criteria ← trimmedPaths sortKey value
  let criteria ← blameFirst sortKey .noField lacksField criteria
  return Value.texts criteria

def atLeast (key : String) (minimum n : Int) : Except Rejection Value :=
  if n < minimum then .error ⟨key, .below minimum, .int n⟩ else .ok (.int n)

def normalInteger (key : String) (minimum : Int) : Value → Except Rejection Value
  | .int n => atLeast key minimum n
  | .text s =>
      match Text.integer? s with
      | some n => atLeast key minimum n
      | none => .error ⟨key, .notInteger, .text s⟩
  | value => .error ⟨key, .notInteger, value⟩

/-- A null value is left as it is. -/
def revise (key : String) (convert : Value → Except Rejection Value) (query : Query) :
    Except Rejection Query :=
  match query.value key with
  | .null => .ok query
  | value => (convert value).map fun normal => query.put key normal

def minSkip : Int := 0

def minLimit : Int := 1

def normalize (maxDepth : Int) (query : Query) : Except Rejection Query := do
  let query ← query.revise embedKey (normalEmbeds maxDepth)
  let query ← query.revise sortKey normalSort
  let query ← query.revise skipKey (normalInteger skipKey minSkip)
  query.revise limitKey (normalInteger limitKey minLimit)

end QueryPipeline.Query
