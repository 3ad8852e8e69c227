import QueryPipeline.Directory
import QueryPipeline.Json.Reader
import QueryPipeline.Schema.Registry

namespace QueryPipeline.Registry

inductive LoadFault where
  | noPath
  | nulInPath
  | unreadable (cause : FileFault)
  | notUnicode
  | notJson
  | tooDeep
  | integerTooLong (digits : Nat)
  | notObject (path : String)
  | malformed (declaration : Malformed)
  deriving DecidableEq

namespace LoadFault

def ofJson : Json.Fault → LoadFault
  | .malformed => .notJson
  | .tooDeep => .tooDeep
  | .integerTooLong digits => .integerTooLong digits

/-- The faults whose wording is this library's own. -/
def message? : LoadFault → Option String
  | .noPath =>
      some "No schema declaration path given and EMBEDQUERY_SCHEMA_PATH is not set"
  | .nulInPath => some "embedded null byte"
  | .integerTooLong digits =>
      some ("Exceeds the limit (" ++ toString Json.maxIntegerDigits ++
        " digits) for integer string conversion: value has " ++ toString digits ++
        " digits; use sys.set_int_max_str_digits() to increase the limit")
  | .notObject path =>
      some ("Schema declaration in " ++ path ++ " must be a JSON object")
  | _ => none

end LoadFault

/-- An empty path counts as none. -/
def chosenPath (given configured : Option String) : Option String :=
  (given.filter (· != "")).or (configured.filter (· != ""))

def ofOctets (path : String) (octets : List UInt8) : Except LoadFault Registry :=
  match String.fromUTF8? ⟨octets.toArray⟩ with
  | none => .error .notUnicode
  | some text =>
      match Json.read text with
      | .error fault => .error (.ofJson fault)
      | .ok (.document declarations) =>
          (ofDeclarations declarations).mapError .malformed
      | .ok _ => .error (.notObject path)

def load (directory : Directory) (given configured : Option String) :
    Except LoadFault Registry :=
  match chosenPath given configured with
  | none => .error .noPath
  | some path =>
      if path.contains '\x00' then .error .nulInPath
      else
        match directory.read path with
        | .error cause => .error (.unreadable cause)
        | .ok octets => ofOctets path octets

end QueryPipeline.Registry
