import ModuleOutputs.Json.Read
import ModuleOutputs.Json.Tree
import ModuleOutputs.Text.Utf8

/-!
What a run is about: the module whose outputs are inferred, where its source
comes from, and the options that shape the document.
-/

namespace ModuleOutputs

/-- A module: a path relative to the working directory, or a registry
coordinate with a version. An empty version means that none was given. -/
structure ModuleRef where
  source : String
  version : String := ""
deriving Repr, DecidableEq

namespace ModuleRef

/-- Whether a version was given. -/
def hasVersion (m : ModuleRef) : Bool :=
  m.version != ""

/-- The module as it is named in log lines. -/
def display (m : ModuleRef) : String :=
  if m.hasVersion then m.source ++ "@" ++ m.version else m.source

def toJson (m : ModuleRef) : Json :=
  .object [("source", .text m.source), ("version", .text m.version)]

/-- A module as a record. Its version may be left out. -/
def shape : Json.Shape ModuleRef where
  name := "ModuleReference"
  blank := ⟨"", ""⟩
  members := [
    ⟨"source", true, fun depth ps =>
      (Json.readText depth ps).map fun (s, rest) => (fun m => { m with source := s }, rest)⟩,
    ⟨"version", false, fun depth ps =>
      (Json.readText depth ps).map fun (s, rest) => (fun m => { m with version := s }, rest)⟩]

def read : Json.Reader ModuleRef :=
  Json.readRecord shape

end ModuleRef

/-- Where the source of a module is found. -/
inductive SourceMode where
  /-- In a directory relative to the working directory. -/
  | directory
  /-- In the repository that a module registry names. -/
  | registry
deriving Repr, DecidableEq

/-- A source file of a module with its text. -/
structure SourceFile where
  path : Text.Bytes
  content : String
deriving Repr, DecidableEq

/-- The ending of the files in which modules declare their outputs by convention. -/
def outputsFileEnding : List Char :=
  "outputs.tf".toList

namespace SourceFile

def displayPath (f : SourceFile) : String :=
  Text.lossy f.path

/-- Whether the shown path ends like a file of outputs. -/
def isOutputsFile (f : SourceFile) : Bool :=
  outputsFileEnding.isSuffixOf f.displayPath.toList

end SourceFile

/-- Options that change how inferred outputs become the document. -/
structure RunOptions where
  /-- Wrap the document with the module's source and version. -/
  override : Bool := false
  /-- Leave out the outputs of type `string`. -/
  skipStrings : Bool := false
deriving Repr, DecidableEq

end ModuleOutputs
