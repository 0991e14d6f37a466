import ModuleOutputs.CommandLine.Parse
import ModuleOutputs.Config.Text
import ModuleOutputs.Inference
import ModuleOutputs.Logging

/-!
The program: a command line and an environment in a world, what it prints there,
and the code with which it ends.
-/

namespace ModuleOutputs.Program

/-- What a run of the program prints, and how it ends. -/
structure Outcome where
  exitCode : Nat := 0
  stdout : String := ""
  stderr : String := ""
  /-- The lines that are logged. -/
  log : List String := []
  /-- Whether anything is logged that is of use only for finding faults. -/
  detailed : Bool := false
  /-- The file that holds the document. -/
  written : Option Path := none
deriving Repr, DecidableEq

/-! ## Colours -/

/-- The environment variable that asks for colours. -/
def colourVariable : String :=
  "CLICOLOR_FORCE"

/-- Whether what is printed has colours, which it has only if they are asked for. -/
def hasColours (env : Environment) : Bool :=
  (env.get? colourVariable).elim false (· != "0")

/-- A text in a colour, or as it is. -/
def painted (colours : Bool) (code text : String) : String :=
  if colours then "\x1b[" ++ code ++ "m" ++ text ++ "\x1b[0m" else text

/-! ## Messages -/

/-- What is printed about a failure: its text, and the text of what caused it. -/
def failureText (colours : Bool) (f : Failure) : String :=
  painted colours "1;31" "Error:" ++ " " ++ f.message ++ "\n" ++
    f.cause.elim "" fun cause => "\nCaused by:\n  0: " ++ cause ++ "\n"

/-- What is printed about a document that has been written. -/
def successText (colours : Bool) (document : Schema.Document) (p : Path) : String :=
  painted colours "1;32" "✓" ++ " " ++ toString document.outputs.length ++
    " output(s) written to " ++ painted colours "36" (Path.display p) ++ "\n"

/-! ## Configuration -/

/-- The names of the configuration files that are looked for, in order. -/
def configNames : List String :=
  ["tfschema.yaml", "tfschema.yml", ".tfschema.yaml"]

/-- The configuration file of a run: the one that is named, or else the first of
those that are looked for. -/
def configPath (c : CommandLine) : Run (Option Path) := do
  match c.config with
  | some name => return some (Path.ofText name)
  | none =>
    let w ← get
    return (configNames.map Path.ofText).find? (w.tree.pathExists w.here)

def readConfig (env : Environment) (p : Path) : Attempt Config := do
  match Text.strict (← Run.readBytes p) with
  | none => throw (.file p .notText)
  | some content => ExceptT.mk (pure (Config.ofText env content))

/-- The configuration of a run, with what the command line says about it. -/
def configFor (env : Environment) (c : CommandLine) : Attempt Config := do
  match ← configPath c with
  | none => return c.mergeInto {}
  | some p => return c.mergeInto (← readConfig env p)

/-! ## Runs -/

/-- Infers and writes the document that a command line asks for. Returns it with
the path of its file. -/
def inferFor (env : Environment) (c : CommandLine) : Attempt (Schema.Document × Path) := do
  let config ← configFor env c
  let key ← ExceptT.mk (pure (config.credential env))
  let invocation ← ExceptT.mk (pure c.invocation)
  Inference.prepare config
  let outputFile := Path.ofText invocation.outputFile
  let document ← Inference.run (.service config.inference key) config invocation.module
    invocation.mode c.runOptions outputFile
  let w ← get
  return (document, Inference.outputPath w.workingDirectory outputFile)

/-- A run whose command line is understood. It prints the example, or looks for a
configuration and goes on from there, which is logged in detail if details are. -/
def runLine (env : Environment) (c : CommandLine) : Run Outcome := do
  if c.printConfig then return { stdout := Config.exampleText }
  else
    let result ← (inferFor env c).run
    let directives := Logging.directivesFor env c.verbose c.quiet
    let colours := hasColours env
    let outcome : Outcome :=
      { log := Logging.lines directives (← get).events
        detailed := Logging.isDetailed directives }
    match result with
    | .error f =>
      return { outcome with exitCode := f.exitCode, stderr := failureText colours f }
    | .ok (document, p) =>
      return { outcome with
        stdout := if c.quiet then "" else successText colours document p
        written := some p }

def run (env : Environment) (args : List String) : Run Outcome := do
  match CommandLine.parse (env.get? CommandLine.configVariable) args with
  | .ok c => runLine env c
  | .error r =>
    if r.isAnswer then return { exitCode := r.exitCode, stdout := r.message }
    else return { exitCode := r.exitCode, stderr := r.message ++ "\n" }

end ModuleOutputs.Program
