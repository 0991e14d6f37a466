import ModuleOutputs.Clone
import ModuleOutputs.Registry
import ModuleOutputs.Walk

/-!
From a module to its source files: the directory or the repository is found, the
files in it are listed, and their contents are read.
-/

namespace ModuleOutputs

/-- The source files of a module, and the clone in which they lie. -/
structure Sources where
  files : List Path := []
  /-- What the registry says about the module. -/
  description : Option String := none
  checkout : Option Clone.Checkout := none
deriving Repr, DecidableEq

namespace Sources

/-- Whether there is nothing to analyze. -/
def isEmpty (s : Sources) : Bool :=
  s.files.isEmpty

/-- The source files below a directory. -/
def filesBelow (c : ScanConfig) (root : Path) : Attempt (List Path) := do
  let w ← get
  match w.tree.sourceFiles (Scan.ofConfig c) w.here root with
  | .ok files => return files
  | .error f => throw f

def ofDirectory (c : Config) (m : ModuleRef) : Attempt Sources := do
  let w ← get
  let files ← filesBelow c.scan (Path.join w.workingDirectory (Path.ofText m.source))
  return { files }

/-- The address of the repository that metadata names, if it is not blank. -/
def repository? (m : Metadata) : Option String :=
  m.source.filter fun s => !Text.isAllBlank s

/-- The sources in a clone. Where they cannot be listed the clone is released. -/
def ofCheckout (c : Config) (description : Option String) (checkout : Clone.Checkout) :
    Attempt Sources :=
  tryCatch
    ((fun files => { files, description, checkout := some checkout }) <$>
      filesBelow c.scan checkout.path)
    fun f => do
      Clone.release checkout
      throw f

/-- The sources of a module that a registry knows. -/
def ofRegistry (c : Config) (m : ModuleRef) : Attempt Sources := do
  let metadata ← Registry.metadata c.registry m
  match repository? metadata with
  | none => throw (.noRepository m.source)
  | some source =>
    match metadata.description with
    | some description =>
      if description != "" then
        Run.info "Module description" [("module", m.display), ("description", description)]
    | none => pure ()
    let checkout ← Clone.make c.git.keepClone source
    ofCheckout c metadata.description checkout

/-- The sources of a module, or the first failure on the way to them. -/
def find (c : Config) (m : ModuleRef) : SourceMode → Attempt Sources
  | .directory => ofDirectory c m
  | .registry => ofRegistry c m

/-- The sources of a module. Every failure leads to no sources, and is logged. -/
def findOrNone (c : Config) (m : ModuleRef) (mode : SourceMode) : Run Sources := do
  match ← (find c m mode).run with
  | .ok s => return s
  | .error f =>
    Run.warn "Could not resolve module source" [("module", m.display), ("error", f.message)]
    return {}

/-- Reads a source file. Damage to its text is replaced. -/
def readFile (p : Path) : Attempt SourceFile := do
  let bytes ← Run.readBytes p
  return ⟨p, Text.lossy bytes⟩

/-- Reads source files in order, or fails at the first that cannot be read. -/
def readFiles (paths : List Path) : Attempt (List SourceFile) :=
  paths.mapM readFile

/-- Ends the use of the sources. -/
def release (s : Sources) : Run Unit :=
  match s.checkout with
  | some c => Clone.release c
  | none => pure ()

end Sources

end ModuleOutputs
