import ModuleOutputs.Chat.Reply
import ModuleOutputs.Config.Basic
import ModuleOutputs.Text.Utf16
import ModuleOutputs.World

/-!
The chat service: the request for a completion, and what its reply amounts to. A
reply offers choices; those with text are the parts of the completion, and a
refusal counts only if there is none.
-/

namespace ModuleOutputs.Chat

open Text (Bytes)

/-- One of the choices in a reply. -/
structure Choice where
  content : Option String := none
  refusal : Option String := none
deriving Repr, DecidableEq

namespace Choice

/-- The message of a choice as a record. Both fields may be missing or `null`. -/
def messageShape : Json.Shape Choice where
  name := "ResponseMessage"
  blank := {}
  members := [
    ⟨"content", false, fun depth ps =>
      (Json.readOption Json.readText depth ps).map fun (s, rest) =>
        (fun c => { c with content := s }, rest)⟩,
    ⟨"refusal", false, fun depth ps =>
      (Json.readOption Json.readText depth ps).map fun (s, rest) =>
        (fun c => { c with refusal := s }, rest)⟩]

/-- A choice as a record. Its message must be there. -/
def shape : Json.Shape Choice where
  name := "Choice"
  blank := {}
  members := [
    ⟨"message", true, fun depth ps =>
      (Json.readRecord messageShape depth ps).map fun (c, rest) => (fun _ => c, rest)⟩]

end Choice

/-- The choices in a reply as a record. They may be missing. -/
def choicesShape : Json.Shape (List Choice) where
  name := "ChatCompletionResponse"
  blank := []
  members := [
    ⟨"choices", false, fun depth ps =>
      (Json.readList (Json.readRecord Choice.shape) depth ps).map fun (cs, rest) =>
        (fun _ => cs, rest)⟩]

/-- An error that the service reports. -/
structure ServiceError where
  message : String := ""
  code : Option String := none
deriving Repr, DecidableEq

namespace ServiceError

/-- An error as a record. Its message must be there. -/
def shape : Json.Shape ServiceError where
  name := "ApiError"
  blank := {}
  members := [
    ⟨"message", true, fun depth ps =>
      (Json.readText depth ps).map fun (s, rest) => (fun e => { e with message := s }, rest)⟩,
    ⟨"code", false, fun depth ps =>
      (Json.readOption Json.readText depth ps).map fun (s, rest) =>
        (fun e => { e with code := s }, rest)⟩]

def bodyShape : Json.Shape ServiceError where
  name := "ApiErrorBody"
  blank := {}
  members := [
    ⟨"error", true, fun depth ps =>
      (Json.readRecord shape depth ps).map fun (e, rest) => (fun _ => e, rest)⟩]

/-- The text of an error: its message, and its code in brackets. -/
def describe (e : ServiceError) : String :=
  match e.code with
  | some code => e.message ++ " (" ++ code ++ ")"
  | none => e.message

end ServiceError

/-- What a reply without success says: its status, and the error that its body
reports, or the body itself if it reports none. -/
def refusalText (status : Nat) (body : Bytes) : String :=
  let text := Text.bodyText body
  Http.statusText status ++ ": " ++
    match Json.decode (Json.readRecord ServiceError.bodyShape) text with
    | .ok e => e.describe
    | .error _ => text

/-- The texts of the choices, the empty ones left out. -/
def partsOf (choices : List Choice) : List String :=
  choices.filterMap fun c => c.content.filter (· != "")

/-- The first refusal among the choices without text. -/
def refusalOf (choices : List Choice) : Option String :=
  (choices.filter fun c => (c.content.filter (· != "")).isNone).findSome? (·.refusal)

/-- The completion that choices amount to. A refusal is a failure only if no
choice has text. -/
def completionOf (choices : List Choice) : Except Failure Completion :=
  match partsOf choices, refusalOf choices with
  | [], some refusal => .error (Failure.ofReport ("Model refused: " ++ refusal))
  | parts, _ => .ok ⟨parts⟩

def readReply (status : Nat) (body : Bytes) : Except Failure Completion :=
  if Http.isSuccess status then
    match Json.decodeBytes (Json.readRecord choicesShape) body with
    | .ok choices => completionOf choices
    | .error reason =>
      .error (.malformedReply
        ("Invalid chat completion body: error decoding response body: " ++ reason))
  else .error (Failure.ofReport (refusalText status body))

def requestBody (model : String) (call : Call) : Json :=
  .object [
    ("model", .text model),
    ("messages", .list (call.conversation.map Message.toJson)),
    ("response_format", .object [
      ("type", .text "json_schema"), ("json_schema", call.format.toJson)])]

/-- The address of the service. -/
def endpoint (c : InferenceConfig) : String :=
  Text.dropEndSlashes c.apiBaseUrl ++ "/chat/completions"

/-- The request for a completion, if it can be sent. -/
def request (c : InferenceConfig) (apiKey : String) (call : Call) :
    Except Http.RequestFault Http.Sent :=
  match Http.Url.ofText (endpoint c) with
  | .error f => .error (.url f)
  | .ok url =>
    let authorization := "Bearer " ++ apiKey
    if Http.isHeaderText authorization then
      .ok (.document "POST" url.target (some (Http.headerValue authorization))
        (some "application/json") (requestBody c.model call).compact)
    else .error .header

/-- The failure of a request to the service that comes to no reply. -/
def unanswered (reason : String) : Failure :=
  Failure.ofReport ("Request to model service failed: " ++ reason)

/-- What a reply of the service amounts to. -/
def completionIn (reply : Http.Reply) : Except Failure Completion :=
  match reply.fault? with
  | some reason => .error (unanswered reason)
  | none => readReply (Http.documentOf reply).1 (Http.documentOf reply).2

def complete (c : InferenceConfig) (apiKey : String) (call : Call) :
    Run (Except Failure Completion) := do
  match request c apiKey call with
  | .error fault => return .error (unanswered fault.message)
  | .ok request => return completionIn (← Run.send request)

end ModuleOutputs.Chat
