import ModuleOutputs.FileTree.Basic
import ModuleOutputs.Http.Exchange

/-!
The library that clones repositories. What it makes of an address is not settled here:
the requests it sends, the files that it leaves, those in which it keeps its own records
among them, and whether it succeeds are given from outside.
-/

namespace ModuleOutputs

/-- What cloning from an address into a new directory comes to. -/
structure Cloning where
  /-- The requests that are sent for it. Each takes the next reply. -/
  requests : List Http.Sent := []
  /-- What is in the directory in the end. A clone that fails may leave files too. -/
  files : FileTree := .bare
  /-- Why the repository cannot be cloned, if it cannot. -/
  fault : Option String := none

/-- A library that clones, from an address and with the replies that are left. -/
abbrev Git := String → List Http.Reply → Cloning

/-- A library that reaches no repository. -/
def Git.unreachable (reason : String) : Git :=
  fun _ _ => { fault := some reason }

end ModuleOutputs
