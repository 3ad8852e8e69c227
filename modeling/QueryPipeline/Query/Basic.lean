import QueryPipeline.Fault
import QueryPipeline.Value.Same

namespace QueryPipeline

/-! Query descriptors: reserved keys start with a dollar sign, and every other key
is a filter. -/

abbrev Query := Entries Value

namespace Query

def embedKey : String := "$embed"

def sortKey : String := "$sort"

def skipKey : String := "$skip"

def limitKey : String := "$limit"

/-- The value under a key, null where the query does not have it. -/
def value (query : Query) (key : String) : Value :=
  (query.get? key).getD .null

def isReserved (key : String) : Bool :=
  key.toList.head? == some '$'

def filters (query : Query) : Entries Value :=
  query.filterKeys fun key => !isReserved key

/-- The requested embeds, each where it first occurs. -/
def embeds (query : Query) : Except Misuse (List Value) :=
  let values := (query.value embedKey).asList
  if values.all Value.comparable then .ok (Value.distinct values)
  else .error .incomparable

def embedPaths (query : Query) : Except Misuse (List String) := do
  Value.allTexts (← query.embeds)

def sortCriteria (query : Query) : Except Misuse (List String) :=
  Value.allTexts (query.value sortKey).asList

end Query

end QueryPipeline
