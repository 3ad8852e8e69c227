import QueryPipeline.Text.Quoted
import QueryPipeline.Text.Strip

namespace QueryPipeline

structure ObjectId where
  digits : List (Fin 16)
  length_digits : digits.length = 24
  deriving DecidableEq

namespace ObjectId

def hexValue? (c : Char) : Option (Fin 16) :=
  let n := c.toNat
  if 48 ≤ n ∧ n ≤ 57 then some (Fin.ofNat 16 (n - 48))
  else if 65 ≤ n ∧ n ≤ 70 then some (Fin.ofNat 16 (n - 55))
  else if 97 ≤ n ∧ n ≤ 102 then some (Fin.ofNat 16 (n - 87))
  else none

def ofHex? (chars : List Char) : Option ObjectId :=
  match chars.mapM hexValue? with
  | some digits => if h : digits.length = 24 then some ⟨digits, h⟩ else none
  | none => none

def toHex (id : ObjectId) : String :=
  String.ofList (id.digits.map fun digit => Text.hexDigit digit.val)

theorem hexValue?_hexDigit (digit : Fin 16) :
    hexValue? (Text.hexDigit digit.val) = some digit := by
  revert digit
  decide

theorem ofHex?_toHex (id : ObjectId) : ofHex? id.toHex.toList = some id := by
  have hdigits : (id.digits.map fun digit => Text.hexDigit digit.val).mapM hexValue? =
      some id.digits := by
    induction id.digits with
    | nil => rfl
    | cons digit rest ih => simp [hexValue?_hexDigit, ih]
  simp [ofHex?, toHex, hdigits, id.length_digits]

def isQuote (c : Char) : Bool := c == '"' || c == '\''

/-- The identifier text without the blanks around it, then without the quotes. -/
def bare (text : String) : List Char :=
  Text.strip isQuote (Text.strip Text.isBlank text.toList)

inductive Malformed where
  | notText
  | notHex (text : String)
  deriving DecidableEq

def Malformed.message : Malformed → String
  | .notText => "id_str must be a non-empty string"
  | .notHex text =>
      "Invalid ObjectId format '" ++ text ++ "': " ++
        Text.quoted (String.ofList (bare text)) ++
        " is not a valid ObjectId, it must be a 12-byte input or a 24-character hex string"

def ofText (text : String) : Except Malformed ObjectId :=
  if text = "" then .error .notText
  else
    match ofHex? (bare text) with
    | some id => .ok id
    | none => .error (.notHex text)

end ObjectId

end QueryPipeline
