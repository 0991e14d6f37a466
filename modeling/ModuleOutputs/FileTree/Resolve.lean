import ModuleOutputs.FileTree.Basic
import ModuleOutputs.FileTree.Fault

/-!
Finding, reading and writing by path, and making directories. Links are followed wherever they stand on
the way, up to a number of them that rules out cycles.
-/

namespace ModuleOutputs.FileTree

open Text (Bytes)

/-- How many links one path may go through. -/
def linkLimit : Nat := 40

/-- The length of the longest name. -/
def nameLimit : Nat := 255

/-- The length of the longest path. -/
def pathLimit : Nat := 4095

/-- What a path leads to: an entry, or a place in a directory where none is. -/
inductive Spot where
  | entry (loc : Location) (e : Entry)
  | vacant (directory : Location) (name : Name)
deriving Repr, DecidableEq

/-- The name of a directory inside itself. -/
def here : Name := [Path.dot]

/-- The name of the directory above. -/
def above : Name := [Path.dot, Path.dot]

/-- Goes from a location through names. `links` is how many links may still be
followed; `asDirectory` asks that the end be a directory. -/
def follow (t : FileTree) (links : Nat) (loc : Location) (asDirectory : Bool) :
    List Name → Except FileFault Spot
  | [] =>
    match t.entry? loc with
    | none => .error .notFound
    | some e => if asDirectory && !e.isDirectory then .error .notADirectory else .ok (.entry loc e)
  | name :: rest =>
    match t.entry? loc with
    | some .directory =>
      if name = here then follow t links loc asDirectory rest
      else if name = above then follow t links loc.tail asDirectory rest
      else if nameLimit < name.length then .error .nameTooLong
      else
        match t.entry? (name :: loc) with
        | none =>
          if rest.isEmpty && !asDirectory then .ok (.vacant loc name) else .error .notFound
        | some (.link target) =>
          match links with
          | 0 => .error .tooManyLinks
          | links + 1 =>
            let start := if Path.isAbsolute target then [] else loc
            if target.isEmpty then .error .notFound
            else follow t links start
              (if rest.isEmpty then asDirectory || Path.endsInSlash target else asDirectory)
              (Path.names target ++ rest)
        | some _ => follow t links (name :: loc) asDirectory rest
    | some _ => .error .notADirectory
    | none => .error .notFound
termination_by names => (links, names.length)

/-- Goes along a path from a working directory. -/
def locate (t : FileTree) (cwd : Location) (p : Path) : Except FileFault Spot :=
  if p.contains 0 then .error .nulInName
  else if p.isEmpty then .error .notFound
  else if pathLimit < p.length then .error .nameTooLong
  else follow t linkLimit (if Path.isAbsolute p then [] else cwd) (Path.endsInSlash p) (Path.names p)

/-- The entry that a path leads to, with its location. -/
def find (t : FileTree) (cwd : Location) (p : Path) : Except FileFault (Location × Entry) :=
  match locate t cwd p with
  | .error f => .error f
  | .ok (.entry loc e) => .ok (loc, e)
  | .ok (.vacant _ _) => .error .notFound

/-- Whether a path leads anywhere. -/
def pathExists (t : FileTree) (cwd : Location) (p : Path) : Bool :=
  (t.find cwd p).isOk

/-- The content of the file that a path leads to. -/
def read (t : FileTree) (cwd : Location) (p : Path) : Except FileFault Bytes :=
  match t.find cwd p with
  | .error f => .error f
  | .ok (_, .file content) => .ok content
  | .ok (_, .sealed) => .error .unreadable
  | .ok (_, .sink) => .ok []
  | .ok (_, .directory) => .error .isADirectory
  | .ok (_, .link _) => .error .tooManyLinks

/-- Where a file is written, if what is written is kept. A path spelled as that of a
directory names no file, whether or not the directory is there. A file that cannot be
read cannot be written either. -/
def writeSpot (t : FileTree) (cwd : Location) (p : Path) : Except FileFault (Option Location) :=
  if Path.endsInSlash p then
    match locate t cwd p with
    | .error .nulInName => .error .nulInName
    | _ =>
      match follow t linkLimit (if Path.isAbsolute p then [] else cwd) true
          (Path.names p).dropLast with
      | .error f => .error f
      | .ok _ => .error .isADirectory
  else
    match locate t cwd p with
    | .error f => .error f
    | .ok (.entry _ .directory) => .error .isADirectory
    | .ok (.entry _ .sealed) => .error .unreadable
    | .ok (.entry _ (.link _)) => .error .tooManyLinks
    | .ok (.entry _ .sink) => .ok none
    | .ok (.entry loc (.file _)) => .ok (some loc)
    | .ok (.vacant parent name) => .ok (some (name :: parent))

/-- Writes a file, in place of the content that it had. -/
def write (t : FileTree) (cwd : Location) (p : Path) (content : Bytes) :
    Except FileFault FileTree :=
  match t.writeSpot cwd p with
  | .error f => .error f
  | .ok none => .ok t
  | .ok (some loc) => .ok (t.put loc (.file content))

/-- Where a directory of a new name can be made in the directory that a path leads to. -/
def newLocation (t : FileTree) (cwd : Location) (parent : Path) (name : Name) :
    Except FileFault Location :=
  if pathLimit < (Path.join parent name).length then .error .nameTooLong
  else
    match t.find cwd parent with
    | .error f => .error f
    | .ok (loc, .directory) =>
      if t.isClear (name :: loc) then .ok (name :: loc) else .error .alreadyThere
    | .ok _ => .error .notADirectory

end ModuleOutputs.FileTree
