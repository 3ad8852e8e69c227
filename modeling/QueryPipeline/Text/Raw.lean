namespace QueryPipeline

/-! Text as escapes can spell it.  A character beyond the first plane is written as
two halves, and a half that is written alone is kept although it is no character. -/

inductive Symbol where
  | char (c : Char)
  | half (unit : Nat)
  deriving DecidableEq

namespace Symbol

def char? : Symbol → Option Char
  | .char c => some c
  | .half _ => none

/-- A half has three octets, and none of them can be shown. -/
def shown : Symbol → List Char
  | .char c => [c]
  | .half _ => List.replicate 3 '\uFFFD'

end Symbol

structure RawText where
  symbols : List Symbol
  deriving DecidableEq

namespace RawText

def ofString (s : String) : RawText :=
  ⟨s.toList.map .char⟩

def text? (raw : RawText) : Option String :=
  (raw.symbols.mapM Symbol.char?).map String.ofList

def shown (raw : RawText) : String :=
  String.ofList (raw.symbols.flatMap Symbol.shown)

def intact (raw : RawText) : String :=
  String.ofList ((raw.symbols.takeWhile (·.char?.isSome)).filterMap Symbol.char?)

def isHighHalf (point : Nat) : Bool := 0xD800 ≤ point && point < 0xDC00

def isLowHalf (point : Nat) : Bool := 0xDC00 ≤ point && point < 0xE000

def symbolOf (point : Nat) : Symbol :=
  if isHighHalf point || isLowHalf point then .half point else .char (Char.ofNat point)

/-- Joins each high half with a low one right after it. -/
def joinHalves : List Nat → List Symbol
  | high :: low :: rest =>
      if isHighHalf high && isLowHalf low then
        .char (Char.ofNat (0x10000 + (high - 0xD800) * 0x400 + (low - 0xDC00))) ::
          joinHalves rest
      else symbolOf high :: joinHalves (low :: rest)
  | [point] => [symbolOf point]
  | [] => []

def ofPoints (points : List Nat) : RawText :=
  ⟨joinHalves points⟩

@[simp] theorem text?_ofString (s : String) : (ofString s).text? = some s := by
  have h (chars : List Char) : (chars.map Symbol.char).mapM Symbol.char? = some chars := by
    induction chars with
    | nil => rfl
    | cons c rest ih => simp [Symbol.char?, ih]
  simp [text?, ofString, h]

@[simp] theorem shown_ofString (s : String) : (ofString s).shown = s := by
  simp [shown, ofString, List.flatMap_map, Symbol.shown]

theorem ofString_inj {left right : String} :
    ofString left = ofString right ↔ left = right := by
  constructor
  · intro h
    simpa using congrArg text? h
  · exact congrArg ofString

end RawText

end QueryPipeline
