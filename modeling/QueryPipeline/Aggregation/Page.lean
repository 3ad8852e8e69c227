import QueryPipeline.Fault
import QueryPipeline.Stage

namespace QueryPipeline

structure Page where
  content : Value
  total : Value

namespace Value

def first : Value → Except Misuse Value
  | .list (item :: _) => .ok item
  | .tuple (item :: _) => .ok item
  | .text s =>
      match s.toList with
      | c :: _ => .ok (.text (String.singleton c))
      | [] => .error .noElements
  | .bytes (octet :: _) => .ok (.int octet.toNat)
  | .document _ => .error (.missingKey "0")
  | .list [] => .error .noElements
  | .tuple [] => .error .noElements
  | .bytes [] => .error .noElements
  | _ => .error .notSequence

def member? (key : String) : Value → Except Misuse (Option Value)
  | .document entries => .ok (entries.lookup key)
  | _ => .error .notDocument

/-- An empty list stands in for a member that is missing or empty. -/
def memberOrNone (key : String) (value : Value) : Except Misuse Value := do
  let member := (← value.member? key).getD .null
  return if member.truthy then member else .list []

end Value

namespace Page

/-- Nothing is counted where no row came in, so a missing count means zero. -/
def totalOf (counts : Value) : Except Misuse Value :=
  if counts.truthy then do
    let count ← counts.first
    return (← count.member? countField).getD (.int 0)
  else .ok (.int 0)

def ofDocuments (documents : Value) : Except Misuse Page :=
  if documents.truthy then do
    let facet ← documents.first
    let content ← facet.memberOrNone contentFacet
    let counts ← facet.memberOrNone totalFacet
    return ⟨content, ← totalOf counts⟩
  else .ok ⟨.list [], .int 0⟩

end Page

end QueryPipeline
