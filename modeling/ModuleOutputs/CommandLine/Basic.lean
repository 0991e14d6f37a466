import ModuleOutputs.Config.Basic
import ModuleOutputs.Failure
import ModuleOutputs.Module

/-!
What a command line asks for: positional arguments, switches and settings, and
what they say about the run.
-/

namespace ModuleOutputs

/-- A command line that has been understood. -/
structure CommandLine where
  /-- The positional arguments, in order. -/
  args : List String := []
  generateOverride : Bool := false
  skipStrings : Bool := false
  /-- The path of a configuration file. -/
  config : Option String := none
  model : Option String := none
  keepClone : Bool := false
  printConfig : Bool := false
  verbose : Nat := 0
  quiet : Bool := false
deriving Repr, DecidableEq

/-- One run: the module, where its source is, and the name of the output file. -/
structure Invocation where
  module : ModuleRef
  mode : SourceMode
  outputFile : String
deriving Repr, DecidableEq

namespace CommandLine

/-- What the positional arguments say. Two name a module in a directory, three a
module in a registry with its version. -/
def invocation (c : CommandLine) : Except Failure Invocation :=
  match c.args with
  | [source, output] => .ok ⟨⟨source, ""⟩, .directory, output⟩
  | [source, version, output] => .ok ⟨⟨source, version⟩, .registry, output⟩
  | args =>
    .error (.arguments ("Expected 2 or 3 arguments, got " ++ toString args.length))

/-- The options that shape the document. -/
def runOptions (c : CommandLine) : RunOptions :=
  ⟨c.generateOverride, c.skipStrings⟩

/-- The configuration with what the command line says about it. -/
def mergeInto (c : CommandLine) (config : Config) : Config :=
  { config with
    inference := { config.inference with model := c.model.getD config.inference.model }
    git := { keepClone := config.git.keepClone || c.keepClone } }

end CommandLine

end ModuleOutputs
