import ModuleOutputs.Chat.Model
import ModuleOutputs.Schema.Document
import ModuleOutputs.Sources

/-!
The whole run: find the sources, ask the model, map its answer, write the
document. When the conversation is too large the model is asked once more, about
the files of outputs alone. A run that cannot infer anything has the empty
document.
-/

namespace ModuleOutputs

namespace Inference

open Chat (Model Completion)

/-- What the model inferred, and whether it saw only the files of outputs. -/
structure Outcome where
  response : InferenceResponse
  degraded : Bool
deriving Repr, DecidableEq

/-- Asks a model about files, and reads its answer. -/
def request (model : Model) (formatName : String) (files : List SourceFile) :
    Attempt InferenceResponse := do
  let completion ← model.ask ⟨Chat.conversation files, Chat.outputsFormat formatName⟩
  match completion.response with
  | .ok r => return r
  | .error f => throw f

/-- Asks about the files of outputs alone, after a failure for size. -/
def retry (model : Model) (formatName : String) (files : List SourceFile) (first : Failure) :
    Attempt Outcome := do
  let narrowed := Chat.narrow files
  if narrowed.isEmpty then
    Run.warn "Request too large and no outputs.tf file to fall back to" [("error", first.message)]
    throw first
  else
    Run.warn "Request too large, retrying with outputs.tf files only"
      [("files", toString files.length), ("narrowed", toString narrowed.length)]
    let response ← request model formatName narrowed
    return ⟨response, true⟩

/-- Asks a model about files, and once more if they are too large for it. -/
def ask (model : Model) (formatName : String) (files : List SourceFile) : Attempt Outcome :=
  tryCatch ((fun response => ⟨response, false⟩) <$> request model formatName files) fun f =>
    if f.isTooLarge then retry model formatName files f else throw f

/-- The document that the model's answer about files amounts to. -/
def documentOf (model : Model) (c : Config) (m : ModuleRef) (options : RunOptions)
    (files : List SourceFile) : Run Schema.Document := do
  match ← (ask model c.inference.schemaName files).run with
  | .error f =>
    Run.error "Output type inference failed" [("error", f.message)]
    return .empty
  | .ok outcome =>
    let outputs := outcome.response.outputs
    Run.info "Model inferred output types"
      [("outputs", toString outputs.length), ("degraded", toString outcome.degraded)]
    (Schema.mapEvents options outputs).forM Run.log
    return .ofOutputs m options outputs

def ofSources (model : Model) (c : Config) (m : ModuleRef) (options : RunOptions)
    (sources : Sources) : Run Schema.Document := do
  if sources.isEmpty then
    Run.warn "No Terraform files found to analyze" [("module", m.display)]
    return .empty
  else
    Run.info "Found Terraform files in the module" [("files", toString sources.files.length)]
    match ← (Sources.readFiles sources.files).run with
    | .error f =>
      Run.warn "Failed to read Terraform files" [("error", f.message)]
      return .empty
    | .ok files => documentOf model c m options files

/-- The document of a module. The clone of its repository goes when it is done. -/
def infer (model : Model) (c : Config) (m : ModuleRef) (mode : SourceMode)
    (options : RunOptions) : Run Schema.Document := do
  let sources ← Sources.findOrNone c m mode
  let document ← ofSources model c m options sources
  sources.release
  return document

def prepare (c : Config) : Run Unit :=
  (Scan.events c.scan).forM Run.log

/-- Where a document is written. -/
def outputPath (workingDirectory outputFile : Path) : Path :=
  Path.join workingDirectory outputFile

def write (c : Config) (document : Schema.Document) (p : Path) : Attempt Unit := do
  Run.writeBytes p (Text.utf8 (document.render c.output.pretty))
  Run.info "Schema written"
    [("path", Path.display p), ("outputs", toString document.outputs.length)]

/-- Infers the document of a module and writes it. -/
def run (model : Model) (c : Config) (m : ModuleRef) (mode : SourceMode) (options : RunOptions)
    (outputFile : Path) : Attempt Schema.Document := do
  let w ← get
  let p := outputPath w.workingDirectory outputFile
  let document ← infer model c m mode options
  Run.info "Writing output" [("path", Path.display p)]
  write c document p
  return document

end Inference

end ModuleOutputs
