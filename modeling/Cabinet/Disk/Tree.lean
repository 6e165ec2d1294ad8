import Cabinet.Disk

/-! A disk given in full: a map from places to directories and files.

A place is the list of names on the way down from the root. A path is walked name by
name from the working directory, or from the root if it begins with a slash: `.` stays,
`..` goes up, any other name must be in the directory reached so far. A slash at the
end asks for a directory. -/
namespace Cabinet

inductive Entry where
  | directory
  | file (bytes : ByteArray)

/-- What is at each place. The root and the working directory are always directories;
a place that is not listed is empty. -/
structure Tree where
  workingDirectory : List String
  entries : List (List String × Entry)

namespace Tree

/-- What is at a place, latest entry first. -/
def entry? (t : Tree) (place : List String) : Option Entry :=
  if place <+: t.workingDirectory then some .directory else t.entries.lookup place

/-! ### Building -/

def insert (t : Tree) (place : List String) (e : Entry) : Tree :=
  { t with entries := (place, e) :: t.entries }

/-- Where a name leads from a place. -/
def descend (place : List String) (name : String) : List String :=
  if name = ".." then place.dropLast else place ++ [name]

/-- Put `e` where some names lead from a place, and a directory wherever they pass. -/
def addAt (t : Tree) (place : List String) (e : Entry) : List String → Tree
  | [] => t
  | [name] => t.insert (descend place name) e
  | name :: rest =>
    (t.insert (descend place name) .directory).addAt (descend place name) e rest

/-- The names in a path, empty ones and `.` left out. -/
def names (path : String) : List String :=
  (path.splitToList (· == '/')).filter fun name => !name.isEmpty && name != "."

/-- Put `e` at a path from the working directory, and on the way there the directories
it takes; one that the path leaves again by `..` is made as well. -/
def add (t : Tree) (path : String) (e : Entry) : Tree :=
  t.addAt t.workingDirectory e (names path)

/-! ### Walking -/

/-- What a walk reaches from a place, and where. -/
def walk (t : Tree) (place : List String) (here : Entry) :
    List String → Except ReadFailure (List String × Entry)
  | [] => .ok (place, here)
  | name :: rest =>
    match here with
    | .file _ => .error .notDirectory
    | .directory =>
      if name = "." then t.walk place here rest
      else if name = ".." then t.walk (descend place name) .directory rest
      else if 255 < name.utf8ByteSize then .error .nameTooLong
      else
        match t.entry? (descend place name) with
        | none => .error .notFound
        | some next => t.walk (descend place name) next rest

/-- The steps of a walk: a slash at the end is a last step that stays. -/
def stepsOf (path : String) : List String :=
  (path.splitToList (· == '/')).filter (!·.isEmpty) ++ (if path.endsWith "/" then ["."] else [])

/-- What is at the end of a path. -/
def find (t : Tree) (path : String) : Except ReadFailure Entry :=
  if path.contains '\x00' then .error .badPath
  else if path.isEmpty then .error .notFound
  else if 4096 ≤ path.utf8ByteSize then .error .nameTooLong
  else
    let start := if path.startsWith "/" then [] else t.workingDirectory
    (t.walk start .directory (stepsOf path)).map (·.2)

/-- The tree as the launcher sees it. -/
def disk (t : Tree) : Disk where
  isDirectory := fun path =>
    match t.find path with
    | .ok .directory => true
    | _ => false
  read := fun path =>
    match t.find path with
    | .ok (.file bytes) => .ok bytes
    | .ok .directory => .error .isDirectory
    | .error failure => .error failure

end Tree
end Cabinet
