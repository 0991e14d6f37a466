/-!
The configuration of a run, with the values it has when nothing is configured.
-/

namespace ModuleOutputs

/-- How the model is asked. -/
structure InferenceConfig where
  /-- The chat model. -/
  model : String := "gpt-4o"
  /-- The base of the chat service's addresses. -/
  apiBaseUrl : String := "https://api.openai.com/v1"
  /-- The environment variable that holds the credential. -/
  apiKeyEnv : String := "OPENAI_KEY"
  timeoutSecs : Nat := 600
  /-- The name of the response format. -/
  schemaName : String := "output_schema"
deriving Repr, DecidableEq

/-- Where modules are looked up. -/
structure RegistryConfig where
  baseUrl : String := "https://registry.terraform.io/v1/modules"
  timeoutSecs : Nat := 30
deriving Repr, DecidableEq

/-- How a directory is searched for source files. -/
structure ScanConfig where
  /-- Patterns of the names that are passed over. -/
  excludePatterns : List String := [".terraform", ".terragrunt-cache"]
  maxDepth : Nat := 100
deriving Repr, DecidableEq

/-- What happens to a cloned repository. -/
structure CloneConfig where
  /-- Whether the clone is left on disk. -/
  keepClone : Bool := false
deriving Repr, DecidableEq

/-- How the document is written. -/
structure OutputConfig where
  /-- Whether the document is indented. -/
  pretty : Bool := true
deriving Repr, DecidableEq

/-- The configuration, by sections. -/
structure Config where
  inference : InferenceConfig := {}
  registry : RegistryConfig := {}
  scan : ScanConfig := {}
  git : CloneConfig := {}
  output : OutputConfig := {}
deriving Repr, DecidableEq

end ModuleOutputs
