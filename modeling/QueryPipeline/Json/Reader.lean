import QueryPipeline.Declaration

namespace QueryPipeline.Json

/-! Declarations in strict JSON text, extended by the three words for floats that are
no number.  A repeated key keeps its first place and its last value. -/

inductive Fault where
  | malformed
  | tooDeep
  | integerTooLong (digits : Nat)
  deriving DecidableEq

abbrev Step (α : Type) := Except Fault (α × List Char)

def isSpace (c : Char) : Bool :=
  c == ' ' || c == '\t' || c == '\n' || c == '\r'

def skipSpace (chars : List Char) : List Char :=
  chars.dropWhile isSpace

def codeUnit? (a b c d : Char) : Option Nat := do
  let digits ← [a, b, c, d].mapM ObjectId.hexValue?
  some (digits.foldl (fun value digit => 16 * value + digit.val) 0)

def escaped? : Char → Option Char
  | '"' => some '"'
  | '\\' => some '\\'
  | '/' => some '/'
  | 'b' => some '\x08'
  | 'f' => some '\x0c'
  | 'n' => some '\n'
  | 'r' => some '\r'
  | 't' => some '\t'
  | _ => none

def codePoints? : List Char → Option (List Nat × List Char)
  | '"' :: rest => some ([], rest)
  | '\\' :: 'u' :: a :: b :: c :: d :: rest => do
      let point ← codeUnit? a b c d
      let (points, rest) ← codePoints? rest
      some (point :: points, rest)
  | '\\' :: c :: rest => do
      let char ← escaped? c
      let (points, rest) ← codePoints? rest
      some (char.toNat :: points, rest)
  | c :: rest =>
      if c.toNat < 0x20 then none
      else (codePoints? rest).map fun (points, rest) => (c.toNat :: points, rest)
  | [] => none

/-! Lists and objects may lie within one another up to a limit.  The room is the
number of levels that are left. -/

def maxNesting : Nat := 993

/-- A fault is reported with its place, and the report takes levels of its own. -/
def reportLevels : Nat := 3

def misplaced (room : Nat) : Fault :=
  if room < reportLevels then .tooDeep else .malformed

def string (room : Nat) (chars : List Char) : Step RawText :=
  match codePoints? chars with
  | some (points, rest) => .ok (.ofPoints points, rest)
  | none => .error (misplaced room)

def word (room : Nat) (rest : List Char) : Step Declaration :=
  if room = 0 then .error .tooDeep else .ok (.other, rest)

def whole (chars : List Char) : List Char :=
  match chars with
  | '0' :: _ => ['0']
  | _ => chars.takeWhile Char.isDigit

def fraction : List Char → List Char
  | '.' :: rest =>
      let digits := rest.takeWhile Char.isDigit
      if digits.isEmpty then [] else '.' :: digits
  | _ => []

def signOf : List Char → List Char
  | '+' :: _ => ['+']
  | '-' :: _ => ['-']
  | _ => []

def exponent : List Char → List Char
  | e :: rest =>
      if e = 'e' ∨ e = 'E' then
        let sign := signOf rest
        let digits := (rest.drop sign.length).takeWhile Char.isDigit
        if digits.isEmpty then [] else e :: sign ++ digits
      else []
  | [] => []

def maxIntegerDigits : Nat := 4300

def number (chars : List Char) : Step Declaration :=
  let digits := whole chars
  let afterWhole := chars.drop digits.length
  let places := fraction afterWhole
  let afterPlaces := afterWhole.drop places.length
  let power := exponent afterPlaces
  let rest := afterPlaces.drop power.length
  if digits.isEmpty then .error .malformed
  else if places.isEmpty && power.isEmpty && maxIntegerDigits < digits.length then
    .error (.integerTooLong digits.length)
  else .ok (.other, rest)

def scalar (room : Nat) : List Char → Step Declaration
  | 'n' :: 'u' :: 'l' :: 'l' :: rest => .ok (.null, rest)
  | 't' :: 'r' :: 'u' :: 'e' :: rest => .ok (.other, rest)
  | 'f' :: 'a' :: 'l' :: 's' :: 'e' :: rest => .ok (.other, rest)
  | 'N' :: 'a' :: 'N' :: rest => word room rest
  | 'I' :: 'n' :: 'f' :: 'i' :: 'n' :: 'i' :: 't' :: 'y' :: rest => word room rest
  | '-' :: 'I' :: 'n' :: 'f' :: 'i' :: 'n' :: 'i' :: 't' :: 'y' :: rest =>
      word room rest
  | '-' :: rest => number rest
  | chars => number chars

mutual

/-- One value.  Where none begins, the fault is found before a level is taken.  Of any
two calls one reads a character, so twice the text's length is fuel enough. -/
def value : (fuel room : Nat) → List Char → Step Declaration
  | 0, _, _ => .error .malformed
  | _ + 1, room, '"' :: rest =>
      (string room rest).map fun (text, rest) => (.text text, rest)
  | _ + 1, 0, '[' :: _ => .error .tooDeep
  | _ + 1, 0, '{' :: _ => .error .tooDeep
  | fuel + 1, room + 1, '[' :: rest =>
      match skipSpace rest with
      | ']' :: rest => .ok (.other, rest)
      | rest => (elements fuel room rest).map fun rest => (.other, rest)
  | fuel + 1, room + 1, '{' :: rest =>
      match skipSpace rest with
      | '}' :: rest => .ok (.document [], rest)
      | rest => (members fuel room rest).map fun (pairs, rest) => (.ofMembers pairs, rest)
  | _ + 1, room, chars => scalar room chars

def elements : (fuel room : Nat) → List Char → Except Fault (List Char)
  | 0, _, _ => .error .malformed
  | fuel + 1, room, chars => do
      let (_, rest) ← value fuel room chars
      match skipSpace rest with
      | ',' :: rest => elements fuel room (skipSpace rest)
      | ']' :: rest => .ok rest
      | _ => .error (misplaced room)

def members : (fuel room : Nat) → List Char →
    Except Fault (List (RawText × Declaration) × List Char)
  | 0, _, _ => .error .malformed
  | fuel + 1, room, '"' :: chars => do
      let (key, rest) ← string room chars
      match skipSpace rest with
      | ':' :: rest =>
          let (item, rest) ← value fuel room (skipSpace rest)
          match skipSpace rest with
          | ',' :: rest =>
              let (pairs, rest) ← members fuel room (skipSpace rest)
              .ok ((key, item) :: pairs, rest)
          | '}' :: rest => .ok ([(key, item)], rest)
          | _ => .error (misplaced room)
      | _ => .error (misplaced room)
  | _ + 1, room, _ => .error (misplaced room)

end

def read (text : String) : Except Fault Declaration := do
  let chars := text.toList
  let (item, rest) ← value (2 * chars.length + 2) maxNesting (skipSpace chars)
  if (skipSpace rest).isEmpty then .ok item else .error .malformed

end QueryPipeline.Json
