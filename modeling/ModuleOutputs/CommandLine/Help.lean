import ModuleOutputs.Failure

/-!
What the program says about itself.
-/

namespace ModuleOutputs.CommandLine

def programName : String :=
  "infer-tfmodule-schema"

/-- The name and the version of the program. -/
def versionText : String :=
  programName ++ " 0.1.0\n"

/-- The environment variable that names a configuration file. -/
def configVariable : String :=
  "TFSCHEMA_CONFIG"

/-- The environment variable of the configuration file with its value. -/
def configNote (value : Option String) : String :=
  "[env: " ++ configVariable ++ "=" ++ value.getD "" ++ "]"

def usageLine : String :=
  "Usage: " ++ Failure.usage ++ " [OPTIONS]"

/-- The positional arguments. -/
def positionals : String :=
  "<module_source> [<module_version>] <output_file_name>"

/-- The lines of a text, each with its end. -/
def unlines (lines : List String) : String :=
  String.join (lines.map (· ++ "\n"))

/-- The summary of the program and its options. -/
def shortHelp (configValue : Option String) : String :=
  unlines [
    "Infer the output types of a Terraform module with a language model",
    "",
    usageLine,
    "",
    "Arguments:",
    "  [ARGS]...  " ++ positionals,
    "",
    "Options:",
    "      --generate-override  Wrap the outputs with source and version provenance",
    "      --skip-strings       Omit outputs whose inferred type is string",
    "  -c, --config <CONFIG>    Path to configuration file " ++ configNote configValue,
    "      --model <MODEL>      Chat model to use (overrides configuration)",
    "      --keep-clone         Keep the temporary clone of a registry module",
    "      --print-config       Print an example configuration file and exit",
    "  -v, --verbose...         Increase verbosity (-v, -vv)",
    "  -q, --quiet              Suppress all output except errors",
    "  -h, --help               Print help (see more with '--help')",
    "  -V, --version            Print version"]

/-- The full description of the program and its options. -/
def longHelp (configValue : Option String) : String :=
  unlines [
    "Reads the .tf files of a local or registry Terraform module, asks a language model to " ++
      "infer the type of every output, and writes the result as a Pulumi schema outputs document.",
    "",
    usageLine,
    "",
    "Arguments:",
    "  [ARGS]...",
    "          " ++ positionals,
    "",
    "Options:",
    "      --generate-override",
    "          Wrap the outputs with source and version provenance",
    "",
    "      --skip-strings",
    "          Omit outputs whose inferred type is string",
    "",
    "  -c, --config <CONFIG>",
    "          Path to configuration file",
    "          ",
    "          " ++ configNote configValue,
    "",
    "      --model <MODEL>",
    "          Chat model to use (overrides configuration)",
    "",
    "      --keep-clone",
    "          Keep the temporary clone of a registry module",
    "",
    "      --print-config",
    "          Print an example configuration file and exit",
    "",
    "  -v, --verbose...",
    "          Increase verbosity (-v, -vv)",
    "",
    "  -q, --quiet",
    "          Suppress all output except errors",
    "",
    "  -h, --help",
    "          Print help (see a summary with '-h')",
    "",
    "  -V, --version",
    "          Print version"]

end ModuleOutputs.CommandLine
