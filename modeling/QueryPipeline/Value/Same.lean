import QueryPipeline.Value.Basic

namespace QueryPipeline.Value

/-! Which values may be compared for repetition, and when two of them repeat
each other.  Numbers compare by magnitude, so one, one point zero and true agree. -/

mutual

/-- Lists and documents change, so nothing that holds one can be told apart. -/
def comparable : Value → Bool
  | .list _ => false
  | .document _ => false
  | .tuple items => allComparable items
  | _ => true

def allComparable : List Value → Bool
  | [] => true
  | item :: rest => comparable item && allComparable rest

end

def integer? : Value → Option Int
  | .bool b => some (if b then 1 else 0)
  | .int n => some n
  | .float x => x.integer?
  | _ => none

def sameAtom (left right : Value) : Bool :=
  match left.integer?, right.integer? with
  | some m, some n => m == n
  | none, none =>
      match left, right with
      | .null, .null => true
      | .float l, .float r => l.same r
      | .text l, .text r => l == r
      | .bytes l, .bytes r => l == r
      | .objectId l, .objectId r => l == r
      | .collection l, .collection r => l == r
      | _, _ => false
  | _, _ => false

mutual

def same : Value → Value → Bool
  | .tuple ls, .tuple rs => sameAll ls rs
  | left, right => sameAtom left right

def sameAll : List Value → List Value → Bool
  | [], [] => true
  | l :: ls, r :: rs => same l r && sameAll ls rs
  | _, _ => false

end

def distinct (values : List Value) : List Value :=
  values.eraseDupsBy same

end QueryPipeline.Value
