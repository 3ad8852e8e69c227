import QueryPipeline.Entries
import QueryPipeline.Text.Split

namespace QueryPipeline

/-! The directory where relative paths start.  It holds files only, and of the
directories above it nothing is known but that they are directories. -/

inductive FileFault where
  | missing
  | isDirectory
  | notDirectory
  | nameTooLong
  deriving DecidableEq

structure Directory where
  files : Entries (List UInt8)

namespace Directory

inductive Place where
  | here
  | above
  | file (octets : List UInt8)

def maxNameOctets : Nat := 255

def maxPathOctets : Nat := 4095

def enter (directory : Directory) (place : Place) (name : String) :
    Except FileFault Place :=
  if maxNameOctets < name.utf8ByteSize then .error .nameTooLong
  else
    match place, directory.files.get? name with
    | .here, some octets => .ok (.file octets)
    | _, _ => .error .missing

/-- No step leads on from a file, not even an empty one. -/
def step (directory : Directory) (place : Place) (name : String) :
    Except FileFault Place :=
  match place with
  | .file _ => .error .notDirectory
  | _ =>
      if name = "" ∨ name = "." then .ok place
      else if name = ".." then .ok .above
      else directory.enter place name

/-- A path that begins with a slash starts outside of the directory. -/
def start (path : String) : Place :=
  if path.toList.head? = some '/' then .above else .here

def read (directory : Directory) (path : String) : Except FileFault (List UInt8) :=
  if maxPathOctets < path.utf8ByteSize then .error .nameTooLong
  else do
    match ← (Text.split '/' path).foldlM directory.step (start path) with
    | .file octets => .ok octets
    | _ => .error .isDirectory

@[simp] theorem step_file (directory : Directory) (octets : List UInt8) (name : String) :
    directory.step (.file octets) name = .error .notDirectory := rfl

@[simp] theorem step_dot (directory : Directory) : directory.step .here "." = .ok .here :=
  rfl

end Directory

end QueryPipeline
