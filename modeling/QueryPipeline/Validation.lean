namespace QueryPipeline

/-! What can be wrong with a declaration.  All problems of one declaration are
collected, each with the keys that lead to it. -/

inductive Problem where
  | notModel (model : String)
  | notDictionary
  | notText
  | notUnicode
  | unknownKind
  | strayTarget
  | missing
  deriving DecidableEq

namespace Problem

def code : Problem → String
  | .notModel _ => "model_type"
  | .notDictionary => "dict_type"
  | .notText => "string_type"
  | .notUnicode => "string_unicode"
  | .unknownKind => "enum"
  | .strayTarget => "value_error"
  | .missing => "missing"

def message : Problem → String
  | .notModel model => "Input should be a valid dictionary or instance of " ++ model
  | .notDictionary => "Input should be a valid dictionary"
  | .notText => "Input should be a valid string"
  | .notUnicode =>
      "Input should be a valid string, unable to parse raw data as a unicode string"
  | .unknownKind => "Input should be 'plain' or 'reference'"
  | .strayTarget => "Value error, only reference fields may declare 'ref'"
  | .missing => "Field required"

end Problem

structure Issue where
  location : List String
  problem : Problem
  deriving DecidableEq

def Issue.under (key : String) (issue : Issue) : Issue :=
  { issue with location := key :: issue.location }

structure Malformed where
  model : String
  issues : List Issue
  deriving DecidableEq

/-- Either a valid part, or every issue found in it. -/
abbrev Checked (α : Type u) := Except (List Issue) α

namespace Checked

def fail (problem : Problem) : Checked α :=
  .error [⟨[], problem⟩]

def under (key : String) : Checked α → Checked α
  | .ok part => .ok part
  | .error issues => .error (issues.map (Issue.under key))

/-- Both parts, or the issues of the first before those of the second. -/
def both : Checked α → Checked β → Checked (α × β)
  | .ok left, .ok right => .ok (left, right)
  | .ok _, .error issues => .error issues
  | .error issues, .ok _ => .error issues
  | .error first, .error second => .error (first ++ second)

def each (check : α → Checked β) : List α → Checked (List β)
  | [] => .ok []
  | item :: rest => (both (check item) (each check rest)).map fun (x, xs) => x :: xs

def asModel (model : String) : Checked α → Except Malformed α
  | .ok part => .ok part
  | .error issues => .error ⟨model, issues⟩

end Checked

end QueryPipeline
