import ModuleOutputs.Config.Basic
import ModuleOutputs.Event
import ModuleOutputs.Failure
import ModuleOutputs.FileTree.Resolve
import ModuleOutputs.Glob

/-!
Finding the source files below a directory. Links are followed; a link to a
directory that the walk is inside of ends it, as does a link that leads nowhere.
The names in a directory are visited in the order of their bytes.
-/

namespace ModuleOutputs

open Text (Bytes)

/-- The settings of a walk. -/
structure Scan where
  patterns : List Glob.Pattern
  maxDepth : Nat
deriving Repr

namespace Scan

/-- The settings that a configuration asks for. A text that is no pattern is left
out. -/
def ofConfig (c : ScanConfig) : Scan where
  patterns := c.excludePatterns.filterMap fun text => (Glob.parse text).toOption
  maxDepth := c.maxDepth

/-- A warning for every text that is no pattern. -/
def events (c : ScanConfig) : List Event :=
  c.excludePatterns.filterMap fun text =>
    match Glob.parse text with
    | .ok _ => none
    | .error f => some {
        level := .warn
        message := "Ignoring invalid exclude pattern"
        fields := [("pattern", text), ("error", f.message)] }

/-- Whether a name is passed over. A name that is not text never is. -/
def excludes (s : Scan) (name : Name) : Bool :=
  match Text.strict name with
  | some text => s.patterns.any fun p => Glob.admits p text.toList
  | none => false

end Scan

def sourceExtension : Bytes :=
  Text.utf8 "tf"

/-- A directory that the walk is inside of: where it is and how its path was
spelled on the way. -/
structure Ancestor where
  location : Location
  path : Path
deriving Repr, DecidableEq

/-- An entry whose links have been followed. -/
structure Visited where
  path : Path
  location : Location
  entry : Entry
deriving Repr, DecidableEq

namespace FileTree

/-- The order of names by their bytes. -/
def nameLe (a b : Name) : Bool :=
  !(b.lex a)

/-- The names in a directory, sorted. -/
def children (t : FileTree) (directory : Location) : List Name :=
  (t.listed directory).mergeSort nameLe

/-- The failure of an entry that cannot be looked at. -/
def unreachable (path : Path) (fault : FileFault) : Failure :=
  .walk path ("IO error for operation on " ++ Path.display path ++ ": " ++ fault.text)

/-- The failure of a link to a directory that the walk is inside of. -/
def loopFound (path : Path) (a : Ancestor) : Failure :=
  .walk path
    ("File system loop found: " ++ Path.display path ++ " points to an ancestor " ++
      Path.display a.path)

/-- Looks at an entry of a directory and follows it if it is a link. A link is
followed along the whole of its path, on which there may be links before it. -/
def visit (t : FileTree) (cwd : Location) (stack : List Ancestor) (path : Path)
    (directory : Location) (name : Name) : Except Failure Visited :=
  match t.entry? (name :: directory) with
  | none => .error (unreachable path .notFound)
  | some (.link _) =>
    match t.find cwd path with
    | .error fault => .error (unreachable path fault)
    | .ok (target, e) =>
      match e.isDirectory, stack.find? fun a => a.location = target with
      | true, some a => .error (loopFound path a)
      | _, _ => .ok ⟨path, target, e⟩
  | some e => .ok ⟨path, name :: directory, e⟩

/-- The names in a directory, which is opened by its path. -/
def namesAt (t : FileTree) (cwd : Location) (path : Path) (directory : Location) :
    Except Failure (List Name) :=
  match t.find cwd path with
  | .error fault => .error (unreachable path fault)
  | .ok _ => .ok (t.children directory)

/-- The source files below a directory, at most `depth` levels down. `stack` holds
the directories the walk is inside of, this one first. -/
def walkBelow (t : FileTree) (scan : Scan) (cwd : Location) :
    (depth : Nat) → (stack : List Ancestor) → Path → Location → Except Failure (List Path)
  | 0, _, _, _ => .ok []
  | depth + 1, stack, path, loc => do
    let names ← t.namesAt cwd path loc
    let found ← names.mapM fun name => do
      let v ← t.visit cwd stack (Path.join path name) loc name
      if scan.excludes name then .ok []
      else if v.entry.isDirectory then
        walkBelow t scan cwd depth (⟨v.location, v.path⟩ :: stack) v.path v.location
      else if v.entry.isFile && Path.hasExtension sourceExtension name then .ok [v.path]
      else .ok []
    .ok found.flatten

/-- The source files below a directory, or the failure that prevents a full list. -/
def sourceFiles (t : FileTree) (scan : Scan) (cwd : Location) (root : Path) :
    Except Failure (List Path) :=
  match t.find cwd root with
  | .ok (loc, .directory) => t.walkBelow scan cwd scan.maxDepth [⟨loc, root⟩] root loc
  | _ => .error (.directoryNotFound root)

end FileTree

end ModuleOutputs
