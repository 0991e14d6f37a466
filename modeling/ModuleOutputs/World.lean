import ModuleOutputs.Chat.Message
import ModuleOutputs.Event
import ModuleOutputs.Failure
import ModuleOutputs.FileTree.Resolve
import ModuleOutputs.Git

/-!
What a run works on: files, servers, the library that clones, and what it leaves behind
in them. A run is a computation on that state; it may end with a failure, and then
what it had done stays done.
-/

namespace ModuleOutputs

/-- One call of the model: the conversation and the form its reply must have. -/
structure Call where
  conversation : Chat.Conversation
  format : Chat.ResponseFormat

/-- How a name that is made up ends: six letters or digits. -/
abbrev NameEnding := { s : String // s.length = 6 ∧ s.toList.all Char.isAlphanum = true }

/-- The surroundings of a run. -/
structure World where
  tree : FileTree
  /-- The working directory, as an absolute path. -/
  workingDirectory : Path
  /-- The directory in which clones are made. -/
  temporary : Path
  /-- How the name of a new directory ends, or why none can be made. -/
  scratch : Except FileFault NameEnding
  git : Git
  server : Http.Server := {}
  /-- The addresses that were to be cloned, in order. -/
  clones : List String := []
  /-- The calls of the model, in order. -/
  calls : List Call := []
  /-- What was logged, in order. -/
  events : List Event := []

namespace World

/-- The location of the working directory. -/
def here (w : World) : Location :=
  (Path.names w.workingDirectory).reverse

end World

/-- A computation in a world. -/
abbrev Run := StateM World

/-- A computation in a world that may fail. -/
abbrev Attempt := ExceptT Failure Run

namespace Run

def log (e : Event) : Run Unit :=
  modify fun w => { w with events := w.events ++ [e] }

/-- Logs a report on how the run goes. -/
def info (message : String) (fields : List (String × String)) : Run Unit :=
  log ⟨.info, message, fields⟩

/-- Logs a warning. -/
def warn (message : String) (fields : List (String × String)) : Run Unit :=
  log ⟨.warn, message, fields⟩

/-- Logs an error. -/
def error (message : String) (fields : List (String × String)) : Run Unit :=
  log ⟨.error, message, fields⟩

def send (request : Http.Sent) : Run Http.Reply := fun w =>
  let (reply, server) := w.server.exchange request
  (reply, { w with server := server })

/-- The bytes of a file. -/
def readBytes (p : Path) : Attempt Text.Bytes := do
  let w ← get
  match w.tree.read w.here p with
  | .ok bytes => return bytes
  | .error fault => throw (.file p fault)

/-- Writes a file. -/
def writeBytes (p : Path) (content : Text.Bytes) : Attempt Unit := do
  let w ← get
  match w.tree.write w.here p content with
  | .ok tree => set { w with tree := tree }
  | .error fault => throw (.file p fault)

end Run

end ModuleOutputs
