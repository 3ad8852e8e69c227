import QueryPipeline.Query.Normalize

namespace QueryPipeline.Query

def collect (parameters : List (String × Value)) : Query :=
  parameters.foldl (fun known parameter =>
    match known.get? parameter.1 with
    | none => known.put parameter.1 parameter.2
    | some earlier =>
        known.put parameter.1 (.list (earlier.asList ++ parameter.2.asList)))
    Entries.empty

/-- The blanks of octets are the ASCII ones. -/
def isBlankOctet (octet : UInt8) : Bool :=
  octet == 32 || (9 ≤ octet && octet ≤ 13)

def textFragments (text : String) : List String :=
  ((Text.split ',' text).map Text.trim).filter (· != "")

def fragments : Value → Except Misuse (List Value)
  | .text s => .ok ((textFragments s).map .text)
  | .bytes octets => .ok [.bytes (Text.strip isBlankOctet octets)]
  | _ => .error .notText

/-- Every entry of a list key may itself list several paths. -/
def splitKey (key : String) (query : Query) : Except Misuse Query :=
  match query.get? key with
  | none => .ok query
  | some value => do
      let parts ← value.asList.mapM fragments
      return query.put key (.list parts.flatten)

/-- Of a repeated pagination key the last value counts. -/
def lastOf (key : String) (query : Query) : Except Misuse Query :=
  match query.get? key with
  | some (.list values) =>
      match values.getLast? with
      | some last => .ok (query.put key last)
      | none => .error .noElements
  | _ => .ok query

def arrange (query : Query) : Except Misuse Query := do
  let query ← splitKey embedKey query
  let query ← splitKey sortKey query
  let query ← lastOf skipKey query
  lastOf limitKey query

def parse (maxDepth : Int) (parameters : List (String × Value)) :
    Except Fault Query := do
  let query ← (arrange (collect parameters)).mapError .misuse
  (normalize maxDepth query).mapError .rejected

end QueryPipeline.Query
