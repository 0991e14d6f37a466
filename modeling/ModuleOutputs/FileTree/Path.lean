import ModuleOutputs.Text.Utf8

/-!
Paths as they are spelled: byte lists in which a slash separates names.
-/

namespace ModuleOutputs

open Text (Bytes)

/-- A path, relative unless it begins with a slash. -/
abbrev Path := Bytes

/-- The name of a directory entry. -/
abbrev Name := Bytes

namespace Path

/-- The byte that separates names. -/
def slash : UInt8 := 47

/-- The byte that separates a name from its extension. -/
def dot : UInt8 := 46

def ofText (s : String) : Path :=
  Text.utf8 s

/-- The path as text, for messages. -/
def display (p : Path) : String :=
  Text.lossy p

/-- Whether the path begins at the root. -/
def isAbsolute (p : Path) : Bool :=
  p.head? == some slash

/-- A path below a directory. An absolute path stands for itself, and the
spelling of the directory is kept. -/
def join (directory p : Path) : Path :=
  if isAbsolute p || directory.isEmpty then p
  else if directory.getLast? == some slash then directory ++ p
  else directory ++ slash :: p

/-- The pieces between slashes, the empty ones included. -/
def split : Path → List Name
  | [] => [[]]
  | b :: rest =>
    if b = slash then [] :: split rest
    else
      match split rest with
      | [] => [[b]]
      | name :: names => (b :: name) :: names

/-- The names that a path goes through. -/
def names (p : Path) : List Name :=
  (split p).filter fun n => !n.isEmpty

/-- Whether the path is spelled as that of a directory. -/
def endsInSlash (p : Path) : Bool :=
  p.getLast? == some slash

/-- Whether a name has the given extension, behind a stem that is not empty. -/
def hasExtension (extension : Bytes) (name : Name) : Bool :=
  (dot :: extension).isSuffixOf name && extension.length + 1 < name.length

end Path

end ModuleOutputs
