/-! Files, as the launcher sees them.

All it asks is whether a path is a directory and what a file holds; a path stays the
text it was given as. Reading can fail, and the failure is told in the words of the
operating system. -/
namespace Cabinet

/-- Why a file could not be read. -/
inductive ReadFailure where
  | notFound
  | isDirectory
  | notDirectory
  | nameTooLong
  /-- The path holds a character that no path can hold. -/
  | badPath
  | other (text : String)
  deriving Repr, DecidableEq

namespace ReadFailure

def message : ReadFailure → String
  | .notFound => "No such file or directory (os error 2)"
  | .isDirectory => "Is a directory (os error 21)"
  | .notDirectory => "Not a directory (os error 20)"
  | .nameTooLong => "File name too long (os error 36)"
  | .badPath => "file name contained an unexpected NUL byte"
  | .other text => text

end ReadFailure

structure Disk where
  isDirectory : String → Bool
  read : String → Except ReadFailure ByteArray

namespace Disk

/-- The path of `name` in the directory `dir`. -/
def join (dir name : String) : String :=
  if dir.isEmpty || dir.endsWith "/" then dir ++ name else dir ++ "/" ++ name

/-- A disk of which only some paths have been read: no other is there. -/
def ofReadings (readings : List (String × Except ReadFailure ByteArray)) : Disk where
  isDirectory := fun path =>
    match readings.lookup path with
    | some (.error .isDirectory) => true
    | _ => false
  read := fun path => (readings.lookup path).getD (.error .notFound)

end Disk
end Cabinet
