import QueryPipeline.Entries
import QueryPipeline.Text.Raw
import QueryPipeline.Validation
import QueryPipeline.Value.Basic

namespace QueryPipeline

/-! Declarations as their checks see them.  Numbers, truth values and lists have no
place in one, so it does not matter which they are. -/

inductive Declaration where
  | null
  | text (raw : RawText)
  | undecodable
  | document (entries : List (RawText × Declaration))
  | other

namespace Declaration

instance : Inhabited Declaration := ⟨.null⟩

def ofOctets (octets : List UInt8) : Declaration :=
  match String.fromUTF8? ⟨octets.toArray⟩ with
  | some s => .text (.ofString s)
  | none => .undecodable

mutual

def ofValue : Value → Declaration
  | .null => .null
  | .text s => .text (.ofString s)
  | .bytes octets => ofOctets octets
  | .document entries => .document (ofPairs entries)
  | _ => .other

def ofPairs : List (String × Value) → List (RawText × Declaration)
  | [] => []
  | (key, value) :: rest => (.ofString key, ofValue value) :: ofPairs rest

end

/-- Each key at its first place, with its last value. -/
def ofMembers (members : List (RawText × Declaration)) : Declaration :=
  .document (members.foldl
    (fun entries member => Entries.putInto member.1 member.2 entries) [])

def find? (entries : List (RawText × Declaration)) (key : String) :
    Option Declaration :=
  entries.lookup (.ofString key)

/-- Any text will do as a name; one that is no string is known by how it is shown. -/
def checkText : Declaration → Checked String
  | .text raw => .ok raw.shown
  | .undecodable => Checked.fail .notUnicode
  | _ => Checked.fail .notText

def checkOptionalText : Declaration → Checked (Option String)
  | .null => .ok none
  | declaration => declaration.checkText.map some

theorem ofPairs_eq_map (entries : List (String × Value)) :
    ofPairs entries = entries.map fun entry => (.ofString entry.1, ofValue entry.2) := by
  induction entries with
  | nil => rfl
  | cons entry rest ih => rw [ofPairs, ih, List.map_cons]

theorem find?_ofPairs (entries : List (String × Value)) (key : String) :
    find? (ofPairs entries) key = (entries.lookup key).map ofValue := by
  induction entries with
  | nil => rfl
  | cons entry rest ih =>
      obtain ⟨known, value⟩ := entry
      rw [find?] at ih ⊢
      rw [ofPairs, List.lookup_cons, List.lookup_cons, ih]
      by_cases h : key = known
      · simp [h]
      · have hraw : (RawText.ofString key == RawText.ofString known) = false := by
          simpa [RawText.ofString_inj] using h
        have hkey : (key == known) = false := by simpa using h
        simp [hraw, hkey]

@[simp] theorem checkText_ofValue_text (s : String) :
    (ofValue (.text s)).checkText = .ok s := by
  simp [ofValue, checkText]

end Declaration

end QueryPipeline
