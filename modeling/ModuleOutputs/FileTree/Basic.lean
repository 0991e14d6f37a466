import ModuleOutputs.FileTree.Path

/-!
A file system as data: what stands at each location. A location is the list of
names from the entry up to the root, so the parent of a location is its tail.
-/

namespace ModuleOutputs

open Text (Bytes)

/-- The names from an entry up to the root. The root itself is the empty list. -/
abbrev Location := List Name

/-- What a directory entry is. -/
inductive Entry where
  | file (content : Bytes)
  /-- A regular file that cannot be read. -/
  | sealed
  /-- A device from which there is nothing to read, and which keeps nothing that is
  written to it. -/
  | sink
  | directory
  | link (target : Path)
deriving Repr, DecidableEq

namespace Entry

def isDirectory : Entry → Bool
  | .directory => true
  | _ => false

def isFile : Entry → Bool
  | .file _ | .sealed => true
  | _ => false

end Entry

/-- A file system. Of two entries at one location the first counts. -/
structure FileTree where
  entries : List (Location × Entry)
deriving Repr

namespace FileTree

/-- The file system with nothing but its root. -/
def bare : FileTree :=
  ⟨[]⟩

/-- What stands at a location. The root is always a directory. -/
def entry? (t : FileTree) : Location → Option Entry
  | [] => some .directory
  | loc => (t.entries.find? fun e => e.1 = loc).map (·.2)

/-- The names in a directory, in the order in which they are kept. -/
def listed (t : FileTree) (directory : Location) : List Name :=
  (t.entries.filterMap fun (loc, _) =>
    match loc with
    | name :: parent => if parent = directory then some name else none
    | [] => none).eraseDups

/-- Puts an entry at a location, in place of what stood there. -/
def put (t : FileTree) (loc : Location) (e : Entry) : FileTree :=
  ⟨(loc, e) :: t.entries.filter fun x => x.1 ≠ loc⟩

/-- Makes the directories on the way to a location that are not there. -/
def makeWay (t : FileTree) : Location → FileTree
  | [] => t
  | name :: parent =>
    let t := t.makeWay parent
    if (t.entry? (name :: parent)).isSome then t else t.put (name :: parent) .directory

/-- Puts an entry at a location and makes the directories on the way there. -/
def plant (t : FileTree) (loc : Location) (e : Entry) : FileTree :=
  (t.makeWay loc.tail).put loc e

/-- Takes away a location and everything below it. -/
def prune (t : FileTree) (loc : Location) : FileTree :=
  ⟨t.entries.filter fun x => !loc.isSuffixOf x.1⟩

/-- Whether nothing is at a location or below it. -/
def isClear (t : FileTree) (loc : Location) : Bool :=
  t.entries.all fun x => !loc.isSuffixOf x.1

/-- Puts what is in the root of one file system into a directory of another. -/
def graft (t : FileTree) (directory : Location) (files : FileTree) : FileTree :=
  ⟨(files.entries.filter fun x => x.1 ≠ []).map (fun x => (x.1 ++ directory, x.2)) ++ t.entries⟩

end FileTree

end ModuleOutputs
