import ModuleOutputs.World

/-!
Cloning the repository of a module. A clone lies in a directory of its own in the
temporary directory, and goes with the run unless it is to be kept.
-/

namespace ModuleOutputs.Clone

/-- The ending of the addresses of repositories. -/
def ending : List Char :=
  ".git".toList

/-- The address to clone from: without white space at its ends, and with the
ending of repositories. -/
def repositoryUrl (url : String) : String :=
  let trimmed := Text.trim url
  if ending.isSuffixOf trimmed.toList then trimmed else trimmed ++ String.ofList ending

/-- The beginning of the names of clone directories. -/
def nameStart : String :=
  "terraform-module"

def directoryName (e : NameEnding) : Name :=
  Path.ofText (nameStart ++ e.val)

/-- A directory that is made for a clone. -/
structure Directory where
  path : Path
  location : Location
deriving Repr, DecidableEq

/-- The path of the directory in which clones are made. It is absolute, whether or not that
of the temporary directory is. -/
def parent (w : World) : Path :=
  Path.join w.workingDirectory w.temporary

/-- The directory of the next clone, if it can be made. -/
def nextDirectory (w : World) : Except FileFault Directory := do
  let name := directoryName (← w.scratch)
  let location ← w.tree.newLocation w.here (parent w) name
  return ⟨Path.join (parent w) name, location⟩

/-- A clone: its directory, and whether it stays when the run is over. -/
structure Checkout extends Directory where
  kept : Bool
deriving Repr, DecidableEq

def makeDirectory : Attempt Directory := do
  let w ← get
  match nextDirectory w with
  | .error fault => throw (.file w.temporary fault)
  | .ok d =>
    set { w with tree := w.tree.put d.location .directory }
    return d

/-- Takes away a directory. -/
def discard (d : Directory) : Run Unit :=
  modify fun w => { w with tree := w.tree.prune d.location }

/-- Has the repository at an address cloned into a directory. Returns why it cannot be,
if it cannot. -/
def fetch (url : String) (d : Directory) : Run (Option String) := do
  let w ← get
  let cloning := w.git url w.server.replies
  set { w with
    server := w.server.after cloning.requests
    tree := w.tree.graft d.location cloning.files }
  return cloning.fault

/-- Clones the repository at an address into a new directory. -/
def make (keep : Bool) (source : String) : Attempt Checkout := do
  let url := repositoryUrl source
  modify fun w => { w with clones := w.clones ++ [url] }
  let d ← makeDirectory
  Run.info "Cloning repository to extract source code"
    [("url", url), ("path", Path.display d.path)]
  match ← fetch url d with
  | some reason =>
    discard d
    throw (.clone url reason)
  | none => return ⟨d, keep⟩

/-- Ends the life of a clone, which takes it away unless it is kept. -/
def release (c : Checkout) : Run Unit :=
  if c.kept then pure () else discard c.toDirectory

end ModuleOutputs.Clone
