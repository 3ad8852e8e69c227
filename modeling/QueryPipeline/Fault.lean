import QueryPipeline.Embed.Walk
import QueryPipeline.Validation

namespace QueryPipeline

/-! Why a query gives no pipeline.  The first three causes lie in the request. -/

inductive Complaint where
  | notPath
  | tooDeep (limit : Int)
  | noField
  | notInteger
  | below (minimum : Int)
  | notIdentifier (cause : ObjectId.Malformed)
  deriving DecidableEq

def Complaint.message : Complaint → String
  | .notPath => "expected a non-empty string or a list of them"
  | .tooDeep limit => "path is deeper than " ++ toString limit ++ " segments"
  | .noField => "missing field name"
  | .notInteger => "expected an integer"
  | .below minimum => "must be at least " ++ toString minimum
  | .notIdentifier cause => cause.message

structure Rejection where
  key : String
  complaint : Complaint
  value : Value

def Rejection.message (rejection : Rejection) : String :=
  "invalid \"" ++ rejection.key ++ "\": " ++ rejection.complaint.message

/-- An operation met a value of a kind it does not work on. -/
inductive Misuse where
  | notText
  | octets
  | incomparable
  | notDocument
  | notSequence
  | missingKey (key : String)
  | noElements
  deriving DecidableEq

inductive Fault where
  | embed (failure : Embed.Failure)
  | rejected (rejection : Rejection)
  | unregistered (collection : String)
  | malformed (declaration : Malformed)
  | misuse (cause : Misuse)

namespace Fault

def badRequestStatus : Nat := 400

def isBadRequest : Fault → Bool
  | .embed _ => true
  | .rejected _ => true
  | .unregistered _ => true
  | .malformed _ => false
  | .misuse _ => false

def unregisteredMessage (collection : String) : String :=
  "collection \"" ++ collection ++ "\" is not registered"

end Fault

namespace Value

def asText : Value → Except Misuse String
  | .text s => .ok s
  | .bytes _ => .error .octets
  | _ => .error .notText

def allTexts (values : List Value) : Except Misuse (List String) :=
  values.mapM asText

def elementTexts (value : Value) : Except Misuse (List String) :=
  match value.elements? with
  | some items => allTexts items
  | none => .error .notSequence

end Value

end QueryPipeline
