import ModuleOutputs.Config.Basic
import ModuleOutputs.Config.Expansion
import ModuleOutputs.Failure
import ModuleOutputs.Yaml.Shape

/-!
The configuration as a text: reading it, and an example of it that says what the
configuration is without one.
-/

namespace ModuleOutputs

namespace Config

open Yaml

/-- The options of the model. -/
def inferenceFields : List (RecordField InferenceConfig) :=
  [.of "model" (readText "a string") fun v c => { c with model := v },
   .of "api_base_url" (readText "a string") fun v c => { c with apiBaseUrl := v },
   .of "api_key_env" (readText "a string") fun v c => { c with apiKeyEnv := v },
   .of "timeout_secs" (readNatural "u64") fun v c => { c with timeoutSecs := v },
   .of "schema_name" (readText "a string") fun v c => { c with schemaName := v }]

/-- The options of the registry. -/
def registryFields : List (RecordField RegistryConfig) :=
  [.of "base_url" (readText "a string") fun v c => { c with baseUrl := v },
   .of "timeout_secs" (readNatural "u64") fun v c => { c with timeoutSecs := v }]

/-- The options of the search. -/
def scanFields : List (RecordField ScanConfig) :=
  [.of "exclude_patterns" (readList (readText "a string")) fun v c =>
     { c with excludePatterns := v },
   .of "max_depth" (readNatural "usize") fun v c => { c with maxDepth := v }]

/-- The options of clones. -/
def cloneFields : List (RecordField CloneConfig) :=
  [.of "keep_clone" readBoolean fun v c => { c with keepClone := v }]

/-- The options of the document. -/
def outputFields : List (RecordField OutputConfig) :=
  [.of "pretty" readBoolean fun v c => { c with pretty := v }]

/-- The sections. A section that is given keeps nothing of what was set before. -/
def fields : List (RecordField Config) :=
  [.of "inference" (readRecord "struct InferenceOptions" inferenceFields {}) fun v c =>
     { c with inference := v },
   .of "registry" (readRecord "struct RegistryOptions" registryFields {}) fun v c =>
     { c with registry := v },
   .of "scan" (readRecord "struct ScanOptions" scanFields {}) fun v c => { c with scan := v },
   .of "git" (readRecord "struct GitOptions" cloneFields {}) fun v c => { c with git := v },
   .of "output" (readRecord "struct OutputOptions" outputFields {}) fun v c =>
     { c with output := v }]

/-- The lines of a text, without the line feeds that end them. -/
def lines (text : List Char) : List (List Char) :=
  text.splitOn '\n'

/-- Whether a line says nothing: it is blank, or a comment. -/
def isSilent (line : List Char) : Bool :=
  ((line.dropWhile Text.isBlank).head?).elim true (· == '#')

/-- Reads a configuration after the variables in it have been replaced. -/
def ofText (env : Environment) (text : String) : Except Failure Config :=
  let expanded := Expansion.expand env text
  if (lines expanded.toList).all isSilent then .ok {}
  else
    match recordOfText "struct Config" fields {} expanded with
    | .ok c => .ok c
    | .error fault => .error (.configuration fault.text)

/-- The credential for the model service. -/
def credential (env : Environment) (c : Config) : Except Failure String :=
  match env.get? c.inference.apiKeyEnv with
  | none => .error (.missingVariable c.inference.apiKeyEnv)
  | some "" => .error (.missingVariable c.inference.apiKeyEnv)
  | some key => .ok key

def exampleLines : List String :=
  ["# tfmodule-schema configuration file",
   "",
   "# Language model options",
   "inference:",
   "  # Chat model used to infer output types",
   "  model: gpt-4o",
   "",
   "  # Chat completions endpoint base",
   "  api_base_url: https://api.openai.com/v1",
   "",
   "  # Environment variable holding the API key",
   "  api_key_env: OPENAI_KEY",
   "",
   "  # Request timeout in seconds",
   "  timeout_secs: 600",
   "",
   "  # Name of the strict response schema",
   "  schema_name: output_schema",
   "",
   "# Terraform registry options",
   "registry:",
   "  base_url: https://registry.terraform.io/v1/modules",
   "  timeout_secs: 30",
   "",
   "# Scanning options",
   "scan:",
   "  # File or directory names to skip (glob patterns)",
   "  exclude_patterns:",
   "    - \".terraform\"",
   "    - \".terragrunt-cache\"",
   "",
   "  # Maximum depth for recursive directory scanning",
   "  max_depth: 100",
   "",
   "# Git options (for registry modules)",
   "git:",
   "  # Leave the temporary clone on disk after the run",
   "  keep_clone: false",
   "",
   "# Output options",
   "output:",
   "  # Indent the schema document",
   "  pretty: true"]

/-- An example of a configuration, with the values of the default one. -/
def exampleText : String :=
  String.join (exampleLines.map (· ++ "\n"))

end Config

end ModuleOutputs
