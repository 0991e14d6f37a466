import ModuleOutputs.Module

/-!
The conversation with the model: a framing of two messages, then one message for
each file of the module, and the form that the reply must have.
-/

namespace ModuleOutputs.Chat

/-- Who speaks. -/
inductive Role where
  | system
  | user
deriving Repr, DecidableEq

namespace Role

/-- All roles, in the order in which they are listed to a reader. -/
def all : List Role :=
  [.system, .user]

def word : Role → String
  | .system => "system"
  | .user => "user"

end Role

/-- One message of a conversation. -/
structure Message where
  role : Role
  content : String
deriving Repr, DecidableEq

/-- The messages of one request, in order. -/
abbrev Conversation := List Message

namespace Message

def toJson (m : Message) : Json :=
  .object [("role", .text m.role.word), ("content", .text m.content)]

/-- The words for the roles, as they are read. -/
def roleWords : List (String × Role) :=
  Role.all.map fun r => (r.word, r)

/-- A message as a record of two fields that must be there. -/
def shape : Json.Shape Message where
  name := "ChatMessage"
  blank := ⟨.user, ""⟩
  members := [
    ⟨"role", true, fun depth ps =>
      (Json.readWord roleWords depth ps).map fun (r, rest) => (fun m => { m with role := r }, rest)⟩,
    ⟨"content", true, fun depth ps =>
      (Json.readText depth ps).map fun (s, rest) => (fun m => { m with content := s }, rest)⟩]

def read : Json.Reader Message :=
  Json.readRecord shape

end Message

/-- Tells the model what it is. -/
def framing : Message where
  role := .system
  content :=
    "You are a Terraform module expert.\n" ++
    "You will be given the source code of a terraform module in the form of file paths and " ++
    "their contents\n" ++
    "and you will analyze the types of the outputs of that module. The types are usually in a " ++
    "file called outputs.tf\n" ++
    "but you should use the whole module to infer the types of the outputs.\n"

/-- Tells the model what to do with the files that follow. -/
def task : Message where
  role := .user
  content :=
    "Please analyze the source code of the following Terraform module and provide the types of " ++
    "the outputs.\n" ++
    "The module source code is as follows:\n"

/-- The message that carries a file. -/
def fileMessage (f : SourceFile) : Message where
  role := .user
  content := "File: " ++ f.displayPath ++ "\n" ++ f.content

/-- The conversation about a module's files. -/
def conversation (files : List SourceFile) : Conversation :=
  framing :: task :: files.map fileMessage

/-- The files that declare outputs, in order. -/
def narrow (files : List SourceFile) : List SourceFile :=
  files.filter SourceFile.isOutputsFile

/-- The form that a reply must have: a named schema that it has to follow exactly. -/
structure ResponseFormat where
  name : String
  schema : Json
  strict : Bool

namespace ResponseFormat

def toJson (f : ResponseFormat) : Json :=
  .object [("name", .text f.name), ("schema", f.schema), ("strict", .flag f.strict)]

end ResponseFormat

def textSchema (description : String) : Json :=
  .object [("description", .text description), ("type", .text "string")]

/-- The schema of an object that has exactly the given members. -/
def closedObject (members : List (String × Json)) : Json :=
  .object [
    ("additionalProperties", .flag false),
    ("properties", .object members),
    ("required", .list (members.map fun (name, _) => .text name)),
    ("type", .text "object")]

/-- The schema of a list of outputs. Its keys are in alphabetical order. -/
def outputsSchema : Json :=
  closedObject [
    ("outputs", .object [
      ("items", closedObject [
        ("output_name", textSchema "The name of the output variable."),
        ("output_type", textSchema
          ("The type of the output variable which can be one of " ++
            "[string, number, bool, list(string), list(any), map(string), map(any), any, " ++
            "unknown]"))]),
      ("type", .text "array")])]

/-- The response format for the outputs of a module, under a name. -/
def outputsFormat (name : String) : ResponseFormat :=
  ⟨name, outputsSchema, true⟩

end ModuleOutputs.Chat
