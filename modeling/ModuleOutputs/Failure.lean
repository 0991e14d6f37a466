import ModuleOutputs.FileTree.Fault
import ModuleOutputs.Text.Blank
import ModuleOutputs.Text.Lowercase
import ModuleOutputs.Text.Utf8

/-!
Why a run fails: the causes, the text that a user reads, and the exit code. A
failure of the configuration ends the run before anything is written; any other
one leads to the empty document.
-/

namespace ModuleOutputs

/-- The cause of a failure. -/
inductive Failure where
  /-- A file cannot be read or written. -/
  | file (path : Text.Bytes) (fault : FileFault)
  /-- The module's directory is missing. -/
  | directoryNotFound (path : Text.Bytes)
  /-- An entry below the module's directory cannot be followed. -/
  | walk (path : Text.Bytes) (reason : String)
  /-- The registry did not answer with usable metadata. -/
  | http (reason : String) (status : Option Nat)
  /-- The metadata names no repository. -/
  | noRepository (module : String)
  /-- The repository cannot be cloned. -/
  | clone (url : String) (reason : String)
  /-- The configuration file is malformed, or a value in it has the wrong shape. -/
  | configuration (reason : String)
  /-- The environment variable that holds the credential is unset or empty. -/
  | missingVariable (name : String)
  /-- The positional arguments do not fit. -/
  | arguments (reason : String)
  /-- The conversation is larger than the model takes. -/
  | tooLarge (reason : String)
  /-- The model service failed in any other way. -/
  | inference (reason : String)
  /-- The model's reply is empty. -/
  | noCompletion
  /-- The model's reply is not the document asked for. -/
  | malformedReply (reason : String)
  /-- A document cannot be read or written as JSON. -/
  | internal (reason : String)
deriving Repr, DecidableEq

namespace Failure

/-- How the program is to be called. -/
def usage : String :=
  "infer-tfmodule-schema <module_source> [<module_version>] <output_file_name>"

/-- The text of a failure raised at a place, which most texts show in brackets. -/
def messageAt (place : String) : Failure → String
  | .file path fault => "I/O error at '" ++ Text.lossy path ++ "' (" ++ place ++ "): " ++ fault.text
  | .directoryNotFound path => "Directory not found: " ++ Text.lossy path ++ " (" ++ place ++ ")"
  | .walk path reason =>
    "Failed to walk " ++ Text.lossy path ++ ": " ++ reason ++ " (" ++ place ++ ")"
  | .http reason _ => "HTTP request failed (" ++ place ++ "): " ++ reason
  | .noRepository module =>
    "No source repository in registry metadata for '" ++ module ++ "' (" ++ place ++ ")"
  | .clone url reason =>
    "Failed to clone repository '" ++ url ++ "' (" ++ place ++ "): " ++ reason
  | .configuration reason => "Failed to parse configuration (" ++ place ++ "): " ++ reason
  | .missingVariable name =>
    "Missing required configuration: set the " ++ name ++ " environment variable (" ++ place ++ ")"
  | .arguments reason => reason ++ "\nUsage: " ++ usage
  | .tooLarge reason => "Inference request too large (" ++ place ++ "): " ++ reason
  | .inference reason => "Inference failed (" ++ place ++ "): " ++ reason
  | .noCompletion => "No completion received from model (" ++ place ++ ")"
  | .malformedReply reason => "Malformed model response (" ++ place ++ "): " ++ reason
  | .internal reason => "Internal error (" ++ place ++ "): " ++ reason

/-- What a text shows for the place of a failure when none is recorded. -/
def unrecordedPlace : String :=
  "LOC"

/-- The text of a failure whose place is not recorded. -/
def message (f : Failure) : String :=
  f.messageAt unrecordedPlace

/-- The fault beneath a failure, if the file system raised it. -/
def cause : Failure → Option String
  | .file _ fault => some fault.text
  | _ => none

/-- Whether the conversation was too large, the one failure that is tried again. -/
def isTooLarge : Failure → Bool
  | .tooLarge _ => true
  | _ => false

/-- Whether the configuration is at fault, so that nothing is written. -/
def isConfiguration : Failure → Bool
  | .configuration _ | .missingVariable _ | .arguments _ => true
  | _ => false

def exitCode : Failure → Nat
  | .arguments _ => 2
  | .file _ fault => if fault.isDenied then 13 else 1
  | .configuration _ => 18
  | .missingVariable _ => 20
  | _ => 1

/-- The phrases by which a service says that a conversation is too large. -/
def tooLargePhrases : List String :=
  ["context_length_exceeded", "maximum context length"]

/-- Whether a text says, in any mix of cases, that a conversation is too large. -/
def saysTooLarge (text : String) : Bool :=
  let lowered := Text.lowercase text.toList
  tooLargePhrases.any fun phrase => Text.containsRun phrase.toList lowered

/-- The failure that a service reports by a text. -/
def ofReport (text : String) : Failure :=
  if saysTooLarge text then .tooLarge text else .inference text

end Failure

end ModuleOutputs
