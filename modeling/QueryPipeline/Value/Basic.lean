import QueryPipeline.Double.Basic
import QueryPipeline.Entries
import QueryPipeline.ObjectId

namespace QueryPipeline

/-- A collection by its schema name and by the name it is stored under. -/
structure Collection where
  name : String
  physicalName : String
  deriving DecidableEq

inductive Value where
  | null
  | bool (b : Bool)
  | int (n : Int)
  | float (x : Double)
  | text (s : String)
  | list (items : List Value)
  | tuple (items : List Value)
  | document (entries : List (String × Value))
  | bytes (octets : List UInt8)
  | objectId (id : ObjectId)
  | collection (handle : Collection)

namespace Value

instance : Inhabited Value := ⟨.null⟩

/-- Nothing, zero and whatever is empty count as false. -/
def truthy : Value → Bool
  | .null => false
  | .bool b => b
  | .int n => n != 0
  | .float x => !x.isZero
  | .text s => s != ""
  | .list items => !items.isEmpty
  | .tuple items => !items.isEmpty
  | .document entries => !entries.isEmpty
  | .bytes octets => !octets.isEmpty
  | .objectId _ => true
  | .collection _ => true

def asList : Value → List Value
  | .null => []
  | .list items => items
  | .tuple items => items
  | value => [value]

/-- What is met in going through a value, if it can be gone through: the characters
of a text, the keys of a document, the numbers of octets. -/
def elements? : Value → Option (List Value)
  | .list items => some items
  | .tuple items => some items
  | .text s => some (s.toList.map fun c => .text (String.singleton c))
  | .document entries => some (entries.map fun entry => .text entry.1)
  | .bytes octets => some (octets.map fun octet => .int octet.toNat)
  | _ => none

def ofEntries (entries : Entries Value) : Value :=
  .document entries.toList

def texts (items : List String) : Value :=
  .list (items.map .text)

@[simp] theorem asList_null : asList .null = [] := rfl

@[simp] theorem asList_list (items : List Value) : asList (.list items) = items := rfl

@[simp] theorem asList_tuple (items : List Value) : asList (.tuple items) = items := rfl

@[simp] theorem asList_text (s : String) : asList (.text s) = [.text s] := rfl

end Value

end QueryPipeline
