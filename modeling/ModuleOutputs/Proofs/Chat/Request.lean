import ModuleOutputs.Proofs.Json.Decoding
import ModuleOutputs.Proofs.Run.Posting

/-!
What the chat service is told. Its request is one JSON value, in which the messages are read
back as the conversation about the files, whatever characters their paths and texts have.
-/

namespace ModuleOutputs

open Http (Sent)

namespace Chat

namespace Message

/-- What a value makes of a message as one of its fields. -/
def fieldMeaning (key : String) (depth : Nat) (v : Json.Value) : Option (Message → Message) :=
  if key = "role" then (Json.wordMeaning roleWords depth v).map fun r m => { m with role := r }
  else if key = "content" then v.text?.map fun s m => { m with content := s }
  else none

theorem read_means : Json.Means read (shape.meaning fieldMeaning) := by
  refine Json.readRecord_means (List.forall_mem_cons.mpr ⟨?_, List.forall_mem_singleton.mpr ?_⟩)
  · exact (Json.readWord_means roleWords).map fun r (m : Message) => { m with role := r }
  · exact Json.readText_means.map fun s (m : Message) => { m with content := s }

theorem named_word (r : Role) : Json.named roleWords r.word = some r := by
  cases r <;> rfl

theorem meaning_toJson (depth : Nat) (m : Message) :
    shape.meaning fieldMeaning (depth + 1) m.toJson.value = some m := by
  have hrole : fieldMeaning "role" depth (.text (Json.unitsOfText m.role.word)) =
      some fun m' => { m' with role := m.role } := by
    simp [fieldMeaning, Json.wordMeaning, Json.unitsOfText_text?, named_word]
  have hcontent : fieldMeaning "content" depth (.text (Json.unitsOfText m.content)) =
      some fun m' => { m' with content := m.content } := by
    simp [fieldMeaning, Json.Value.text?, Json.unitsOfText_text?]
  show shape.ofMembers fieldMeaning depth
    [(Json.unitsOfText "role", .text (Json.unitsOfText m.role.word)),
      (Json.unitsOfText "content", .text (Json.unitsOfText m.content))] shape.blank [] = some m
  simp [Json.Shape.ofMembers, Json.unitsOfText_text?, shape, Json.Shape.missing?, hrole, hcontent]

/-- Messages are read back from any text that is parsed as the list of them. -/
theorem decode_of_parses {text : String} {messages : List Message}
    (h : Json.Parses text (.list (messages.map toJson))) :
    Json.decode (Json.readList read) text = .ok messages :=
  (Json.readList_means read_means).decode_of_parses h
    (Json.listMeaning_values (meaning_toJson _) messages)

end Message

/-- What carries a body to the service: one POST, or nothing if the address is malformed or the
credential cannot stand in a header. -/
def deliveries (c : InferenceConfig) (apiKey body : String) : List Sent :=
  match Http.Url.ofText (endpoint c) with
  | .error _ => []
  | .ok address =>
    if Http.isHeaderText ("Bearer " ++ apiKey) then
      [.document "POST" address.target (some (Http.headerValue ("Bearer " ++ apiKey)))
        (some "application/json") body]
    else []

theorem toList_request (c : InferenceConfig) (apiKey : String) (call : Call) :
    (request c apiKey call).toOption.toList =
      deliveries c apiKey (requestBody c.model call).compact := by
  unfold request deliveries
  cases Http.Url.ofText (endpoint c) with
  | error fault => rfl
  | ok address =>
      by_cases hheader : Http.isHeaderText ("Bearer " ++ apiKey) = true <;>
        simp [hheader, Except.toOption]

end Chat

namespace Inference

open Chat (Message)

/-- A request to the service is sent if it can be, and nothing else is. -/
theorem request_received (c : InferenceConfig) (apiKey formatName : String)
    (files : List SourceFile) (w : World) :
    ((request (.service c apiKey) formatName files).run w).2.server.received =
      w.server.received ++
        Chat.deliveries c apiKey (Chat.requestBody c.model (callFor formatName files)).compact := by
  rw [← Chat.toList_request, request_run]
  simp only [Chat.Model.service, Chat.complete_apply]
  cases Chat.request c apiKey (callFor formatName files) with
  | error fault => exact (List.append_nil _).symm
  | ok sent => rfl

/-- What is sent about files is one POST. Its body is JSON with the name of the model, the
conversation and the format of the reply, and the conversation is read back from its messages:
the framing, the task, and each file in its place with its path and its text. -/
theorem request_conveys (c : InferenceConfig) (apiKey : String) (files : List SourceFile)
    (w : World) :
    ∃ body messages,
      ((request (.service c apiKey) c.schemaName files).run w).2.server.received =
        w.server.received ++ Chat.deliveries c apiKey body ∧
      (∀ tree, Json.Parses body tree ↔ tree = .object [
        ("model", .text c.model),
        ("messages", messages),
        ("response_format", .object [
          ("type", .text "json_schema"),
          ("json_schema", .object [
            ("name", .text c.schemaName),
            ("schema", Chat.outputsSchema),
            ("strict", .flag true)])])]) ∧
      ∀ text, Json.Parses text messages →
        Json.decode (Json.readList Message.read) text =
          .ok (Chat.framing :: Chat.task ::
            files.map fun f => ⟨.user, "File: " ++ Text.lossy f.path ++ "\n" ++ f.content⟩) := by
  refine ⟨(Chat.requestBody c.model (callFor c.schemaName files)).compact,
    .list ((Chat.conversation files).map Message.toJson),
    request_received c apiKey c.schemaName files w, ?_, ?_⟩
  · intro tree
    exact Json.parses_compact_iff
  · intro text htext
    exact Message.decode_of_parses htext

end Inference

end ModuleOutputs
