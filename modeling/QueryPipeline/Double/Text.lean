import QueryPipeline.Double.Decimal
import QueryPipeline.Text.Integer

namespace QueryPipeline

namespace Decimal

def digitsOrNone? (chars : List Char) : Option (List Nat) :=
  if chars.isEmpty then some [] else Text.digits? chars

/-- Digits on both sides of a point; either side may be missing, but not both. -/
def ofMantissa? (chars : List Char) : Option Decimal := do
  let before := chars.takeWhile (· != '.')
  let whole ← digitsOrNone? before
  let fraction ← digitsOrNone? (chars.drop (before.length + 1))
  if whole.isEmpty && fraction.isEmpty then none
  else some ⟨Text.ofDigits (whole ++ fraction), -(fraction.length : Int)⟩

def isPowerMark (c : Char) : Bool :=
  c == 'e' || c == 'E'

def power? : List Char → Option Int
  | [] => some 0
  | _ :: chars => Text.signed? chars

def ofChars? (chars : List Char) : Option Decimal := do
  let mantissa := chars.takeWhile (!isPowerMark ·)
  let decimal ← ofMantissa? mantissa
  let power ← power? (chars.drop mantissa.length)
  some { decimal with exponent := decimal.exponent + power }

end Decimal

namespace Double

def ofMagnitude? (negative : Bool) (chars : List Char) : Option Double :=
  let word := String.ofList (chars.map Char.toLower)
  if word = "inf" ∨ word = "infinity" then some (infinity negative)
  else if word = "nan" then some notANumber
  else (Decimal.ofChars? chars).map (ofDecimal negative)

def ofText? (text : String) : Option Double :=
  match Text.strip Text.isBlank text.toList with
  | '+' :: chars => ofMagnitude? false chars
  | '-' :: chars => ofMagnitude? true chars
  | chars => ofMagnitude? false chars

/-- Leading powers from `least` to `most` are written out in place; others are
written after the digits, with a sign and at least `powerDigits` digits. -/
structure Layout where
  least : Int
  most : Int
  powerDigits : Nat

/-- Floats are written out from one ten-thousandth up to sixteen digits. -/
def layout : Layout := ⟨-4, 15, 2⟩

def zeros (count : Nat) : List Char :=
  List.replicate count '0'

/-- Digits with the point where the power of the first digit puts it.  There is a
digit on each side of the point. -/
def inPlace (digits : List Char) : (leading : Int) → List Char
  | .negSucc below => '0' :: '.' :: zeros below ++ digits
  | .ofNat power =>
      let fraction := digits.drop (power + 1)
      digits.take (power + 1) ++ zeros (power + 1 - digits.length) ++ '.' ::
        (if fraction.isEmpty then ['0'] else fraction)

def powerText (width : Nat) (power : Int) : List Char :=
  let digits := Nat.toDigits 10 power.natAbs
  (if power < 0 then '-' else '+') :: zeros (width - digits.length) ++ digits

def withPower (width : Nat) (digits : List Char) (leading : Int) : List Char :=
  let fraction := digits.drop 1
  digits.take 1 ++ (if fraction.isEmpty then [] else '.' :: fraction) ++ 'e' ::
    powerText width leading

def digitsOf (decimal : Decimal) : List Char :=
  ((Nat.toDigits 10 decimal.significand).reverse.dropWhile (· == '0')).reverse

def magnitudeText (x : Double) : List Char :=
  if x.isZero then inPlace ['0'] 0
  else
    let decimal := x.shortest
    let leading := decimal.leading
    if layout.least ≤ leading ∧ leading ≤ layout.most then
      inPlace (digitsOf decimal) leading
    else withPower layout.powerDigits (digitsOf decimal) leading

def toText (x : Double) : String :=
  let sign := if x.negative then "-" else ""
  if x.isFinite then sign ++ String.ofList x.magnitudeText
  else if x.isNumber then sign ++ "inf"
  else "nan"

example : (ofText? "1.2345678901234567e+25").map toText =
    some "1.2345678901234566e+25" := by decide +kernel

end Double

end QueryPipeline
