import QueryPipeline.Text.Digit
import QueryPipeline.Text.Strip

namespace QueryPipeline.Text

/-! Integer text: an optional sign, then decimal digits of any script with at
most one underscore between two of them. -/

def digits? : List Char → Option (List Nat)
  | [] => none
  | [c] => (digitValue? c).map fun digit => [digit]
  | c :: '_' :: rest => do
      let digit ← digitValue? c
      let others ← digits? rest
      some (digit :: others)
  | c :: rest => do
      let digit ← digitValue? c
      let others ← digits? rest
      some (digit :: others)

def ofDigits (digits : List Nat) : Nat :=
  digits.foldl (fun value digit => 10 * value + digit) 0

/-- Longer digit runs are refused, leading zeros counted. -/
def maxDigits : Nat := 4300

def natural? (chars : List Char) : Option Nat := do
  let digits ← digits? chars
  if digits.length ≤ maxDigits then some (ofDigits digits) else none

def signed? : List Char → Option Int
  | '+' :: rest => (natural? rest).map fun n => (n : Int)
  | '-' :: rest => (natural? rest).map fun n => -(n : Int)
  | chars => (natural? chars).map fun n => (n : Int)

def integer? (text : String) : Option Int :=
  signed? (strip isBlank text.toList)

example : integer? " +0_07\n" = some 7 ∧ integer? "1__0" = none ∧
    integer? "-" = none := by decide

end QueryPipeline.Text
