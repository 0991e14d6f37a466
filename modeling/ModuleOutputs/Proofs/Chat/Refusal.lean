import ModuleOutputs.Proofs.Run.Posting
import ModuleOutputs.Proofs.Text.Runs

/-!
Replies with success. Such a reply is a completion, or it is malformed, or it refuses. A refusal
is told from a conversation that is too large by its words alone, so one in which the phrases for
that occur is taken for a failure for size, and is asked about again.
-/

namespace ModuleOutputs

namespace Chat

open Text (Bytes)

/-- Whether a body refuses: it offers choices of which none has a text, and this is the first
refusal among them. -/
def Refuses (body : Bytes) (refusal : String) : Prop :=
  ∃ choices, Json.decodeBytes (Json.readRecord choicesShape) body = .ok choices ∧
    (∀ c ∈ choices, c.content = none ∨ c.content = some "") ∧
    choices.findSome? (·.refusal) = some refusal

/-- The failure that a refusal is taken for, by its words. -/
def refused (refusal : String) : Failure :=
  if Failure.saysTooLarge refusal then .tooLarge ("Model refused: " ++ refusal)
  else .inference ("Model refused: " ++ refusal)

/-- What is put in front of a refusal does not make it say that the conversation is too large. -/
theorem ofReport_refusal (refusal : String) :
    Failure.ofReport ("Model refused: " ++ refusal) = refused refusal := by
  have happart : ∀ phrase ∈ Failure.tooLargePhrases,
      Text.IsApart phrase.toList (Text.lowercase "Model refused: ".toList) := by
    decide +kernel
  rw [Failure.ofReport, Failure.saysTooLarge_append happart, refused]

theorem partsOf_eq_nil_iff {choices : List Choice} :
    partsOf choices = [] ↔ ∀ c ∈ choices, c.content = none ∨ c.content = some "" := by
  rw [partsOf, List.filterMap_eq_nil_iff]
  refine forall₂_congr fun c _ => ?_
  cases c.content <;> simp [Option.filter]

/-- Among choices without text the first refusal is the one that counts. -/
theorem refusalOf_of_partsOf {choices : List Choice} (h : partsOf choices = []) :
    refusalOf choices = choices.findSome? (·.refusal) := by
  rw [partsOf, List.filterMap_eq_nil_iff] at h
  have hall : (choices.filter fun c => (c.content.filter (· != "")).isNone) = choices := by
    refine List.filter_eq_self.mpr fun c hc => ?_
    rw [h c hc]
    rfl
  rw [refusalOf, hall]

theorem completionOf_eq_error_iff {choices : List Choice} {f : Failure} :
    completionOf choices = .error f ↔
      ∃ refusal, (∀ c ∈ choices, c.content = none ∨ c.content = some "") ∧
        choices.findSome? (·.refusal) = some refusal ∧ f = refused refusal := by
  simp only [← partsOf_eq_nil_iff]
  unfold completionOf
  constructor
  · intro h
    split at h
    · next refusal hparts hrefusal =>
        cases h
        rw [refusalOf_of_partsOf hparts] at hrefusal
        exact ⟨refusal, hparts, hrefusal, ofReport_refusal refusal⟩
    · cases h
  · rintro ⟨refusal, hparts, hrefusal, rfl⟩
    rw [← refusalOf_of_partsOf hparts] at hrefusal
    rw [hparts, hrefusal, ← ofReport_refusal]

/-! ## What a reply with success comes to -/

section

variable {status : Nat} {body : Bytes} {refusal : String} {f : Failure}

/-- A reply with success is no failure, unless it is malformed or refuses. -/
theorem readReply_eq_error_iff (hsuccess : Http.isSuccess status = true) :
    readReply status body = .error f ↔
      (∃ reason, Json.decodeBytes (Json.readRecord choicesShape) body = .error reason ∧
        f = .malformedReply
          ("Invalid chat completion body: error decoding response body: " ++ reason)) ∨
      ∃ refusal, Refuses body refusal ∧ f = refused refusal := by
  rw [readReply, if_pos hsuccess]
  unfold Refuses
  cases Json.decodeBytes (Json.readRecord choicesShape) body with
  | error reason => simp [eq_comm]
  | ok choices => simp [completionOf_eq_error_iff, and_assoc]

theorem Refuses.unique {refusal' : String} (h : Refuses body refusal)
    (h' : Refuses body refusal') : refusal = refusal' := by
  obtain ⟨choices, hchoices, -, hrefusal⟩ := h
  obtain ⟨choices', hchoices', -, hrefusal'⟩ := h'
  obtain rfl := Except.ok.inj (hchoices.symm.trans hchoices')
  exact Option.some.inj (hrefusal.symm.trans hrefusal')

theorem Refuses.readReply_eq (h : Refuses body refusal) (hsuccess : Http.isSuccess status = true) :
    readReply status body = .error (refused refusal) :=
  (readReply_eq_error_iff hsuccess).mpr (.inr ⟨refusal, h, rfl⟩)

theorem refused_isTooLarge (refusal : String) :
    (∃ reason, refused refusal = .tooLarge reason) ↔ Failure.saysTooLarge refusal = true := by
  unfold refused
  cases Failure.saysTooLarge refusal <;> simp

/-- A reply with success says that a conversation is too large only in the words of a refusal. -/
theorem saysTooLarge_iff {r : Http.Reply}
    (hsuccess : Http.isSuccess (Http.documentOf r).1 = true) :
    SaysTooLarge r ↔ ∃ refusal, Refuses (Http.documentOf r).2 refusal ∧
      Failure.saysTooLarge refusal = true := by
  unfold SaysTooLarge
  rw [completionIn_of_fault? (Http.fault?_of_isSuccess hsuccess)]
  constructor
  · rintro ⟨reason, h⟩
    obtain ⟨_, -, hmalformed⟩ | ⟨refusal, hrefuses, hrefused⟩ :=
      (readReply_eq_error_iff hsuccess).mp h
    · cases hmalformed
    · exact ⟨refusal, hrefuses, (refused_isTooLarge refusal).mp ⟨reason, hrefused.symm⟩⟩
  · rintro ⟨refusal, hrefuses, hwords⟩
    obtain ⟨reason, hreason⟩ := (refused_isTooLarge refusal).mpr hwords
    exact ⟨reason, by rw [hrefuses.readReply_eq hsuccess, hreason]⟩

end

/-- A call that can be sent comes to what the reply says. -/
theorem complete_eq_completionIn {c : InferenceConfig} {apiKey : String} {address : Http.Url}
    (haddress : Http.Url.ofText (endpoint c) = .ok address)
    (hheader : Http.isHeaderText ("Bearer " ++ apiKey) = true) (call : Call) (w : World) :
    (complete c apiKey call w).1 = completionIn (w.reply 0) := by
  rw [complete_apply, request_eq c apiKey haddress, if_pos hheader]

end Chat

namespace Inference

open Chat (Refuses)

variable {c : InferenceConfig} {apiKey : String} {address : Http.Url}

/-- The service is called a second time exactly if the reply to the first call says that the
files are too large and some are of outputs. -/
theorem ask_service_calls (haddress : Http.Url.ofText (Chat.endpoint c) = .ok address)
    (hheader : Http.isHeaderText ("Bearer " ++ apiKey) = true) (formatName : String)
    (files : List SourceFile) (w : World) :
    ∃ asked, ((ask (.service c apiKey) formatName files).run w).2.calls = w.calls ++ asked ∧
      asked.length ≤ 2 ∧
      (asked.length = 2 ↔
        Chat.SaysTooLarge (w.reply 0) ∧ ∃ file ∈ files, file.isOutputsFile = true) := by
  have hsome : Chat.narrow files ≠ [] ↔ ∃ file ∈ files, file.isOutputsFile = true := by
    simp [Chat.narrow]
  obtain ⟨again, u, hcalls, hagain, -⟩ :=
    (ask_asked (.service c apiKey) formatName files w).exists_again
      (Chat.Model.service_confined c apiKey)
  rw [Chat.Model.service, Chat.complete_eq_completionIn haddress hheader, hsome] at hagain
  refine ⟨_, hcalls, ?_, ?_⟩
  · cases again <;> simp
  · change again = true ↔ Chat.SaysTooLarge (w.reply 0) ∧ _ at hagain
    rw [← hagain]
    cases again <;> simp

/-- A reply with success is a completion, or it is malformed, or it refuses. After a refusal the
service is called again only if the refusal has the words for a conversation that is too large;
after any other reply with success it is not. -/
theorem service_of_success (c : InferenceConfig) (apiKey : String) (w : World)
    (haddress : Http.Url.ofText (Chat.endpoint c) = .ok address)
    (hheader : Http.isHeaderText ("Bearer " ++ apiKey) = true)
    (hsuccess : Http.isSuccess (Http.documentOf (w.reply 0)).1 = true) :
    (∀ call f, (Chat.complete c apiKey call w).1 = .error f ↔
      (∃ reason, Json.decodeBytes (Json.readRecord Chat.choicesShape)
          (Http.documentOf (w.reply 0)).2 = .error reason ∧
        f = .malformedReply
          ("Invalid chat completion body: error decoding response body: " ++ reason)) ∨
      ∃ refusal, Refuses (Http.documentOf (w.reply 0)).2 refusal ∧
        f = if Failure.saysTooLarge refusal then .tooLarge ("Model refused: " ++ refusal)
          else .inference ("Model refused: " ++ refusal)) ∧
    ∀ formatName files, ∃ asked,
      ((ask (.service c apiKey) formatName files).run w).2.calls = w.calls ++ asked ∧
      asked.length ≤ 2 ∧
      (asked.length = 2 ↔
        (∃ refusal, Refuses (Http.documentOf (w.reply 0)).2 refusal ∧
          Failure.saysTooLarge refusal = true) ∧
        ∃ file ∈ files, file.isOutputsFile = true) := by
  refine ⟨?_, ?_⟩
  · intro call f
    rw [Chat.complete_eq_completionIn haddress hheader,
      Chat.completionIn_of_fault? (Http.fault?_of_isSuccess hsuccess)]
    exact Chat.readReply_eq_error_iff hsuccess
  · intro formatName files
    rw [← Chat.saysTooLarge_iff hsuccess]
    exact ask_service_calls haddress hheader formatName files w

/-- A world in which the service offers an empty text, and then refuses in these words. -/
def refusing (words : String) : World :=
  .replying [.document 200 (Text.utf8
    ("\x7b\"choices\":[\x7b\"message\":\x7b\"content\":\"\"\x7d\x7d," ++
      "\x7b\"message\":\x7b\"refusal\":\"" ++ words ++ "\"\x7d\x7d]\x7d"))]

theorem service_address :
    ∃ address, Http.Url.ofText (Chat.endpoint {}) = .ok address :=
  ⟨_, rfl⟩

/-- A refusal without such words: it is no failure for size, and there is no second call. -/
theorem service_of_success_refusing :
    Http.isSuccess (Http.documentOf ((refusing "I cannot.").reply 0)).1 = true ∧
    (Chat.complete {} "key" (callFor "schema" []) (refusing "I cannot.")).1 =
      .error (.inference "Model refused: I cannot.") ∧
    ((ask (.service {} "key") "schema" [⟨Text.utf8 "/m/outputs.tf", ""⟩]).run
      (refusing "I cannot.")).2.calls.length ≠ 2 := by
  have hrefuses : Refuses (Http.documentOf ((refusing "I cannot.").reply 0)).2 "I cannot." :=
    ⟨[⟨some "", none⟩, ⟨none, some "I cannot."⟩], by decide +kernel, by decide, by decide⟩
  have hwords : Failure.saysTooLarge "I cannot." = false := by decide +kernel
  obtain ⟨address, haddress⟩ := service_address
  obtain ⟨hcomplete, hcalls⟩ := service_of_success {} "key" (refusing "I cannot.") haddress
    (by decide) (by decide)
  refine ⟨by decide, ?_, ?_⟩
  · rw [hcomplete]
    exact .inr ⟨"I cannot.", hrefuses, by rw [hwords]; rfl⟩
  · obtain ⟨asked, hasked, -, htwice⟩ := hcalls "schema" [⟨Text.utf8 "/m/outputs.tf", ""⟩]
    intro htwo
    rw [hasked] at htwo
    obtain ⟨⟨refusal, hrefusal, hlarge⟩, -⟩ := htwice.mp htwo
    rw [hrefusal.unique hrefuses, hwords] at hlarge
    cases hlarge

/-- A refusal that mentions the phrase for a conversation that is too large is taken for a failure
for size, and the service is called again about the same file. -/
theorem refusal_called_again :
    Http.isSuccess (Http.documentOf ((refusing "context_length_exceeded?").reply 0)).1 = true ∧
    Refuses (Http.documentOf ((refusing "context_length_exceeded?").reply 0)).2
      "context_length_exceeded?" ∧
    (∀ call, (Chat.complete {} "key" call (refusing "context_length_exceeded?")).1 =
      .error (.tooLarge "Model refused: context_length_exceeded?")) ∧
    ((ask (.service {} "key") "schema" [⟨Text.utf8 "/m/outputs.tf", ""⟩]).run
      (refusing "context_length_exceeded?")).2.calls.length = 2 := by
  have hrefuses : Refuses (Http.documentOf ((refusing "context_length_exceeded?").reply 0)).2
      "context_length_exceeded?" :=
    ⟨[⟨some "", none⟩, ⟨none, some "context_length_exceeded?"⟩], by decide +kernel, by decide,
      by decide⟩
  have hlarge : Chat.refused "context_length_exceeded?" =
      .tooLarge "Model refused: context_length_exceeded?" := by decide +kernel
  obtain ⟨address, haddress⟩ := service_address
  have hheader : Http.isHeaderText ("Bearer " ++ "key") = true := by decide
  have hsuccess :
      Http.isSuccess (Http.documentOf ((refusing "context_length_exceeded?").reply 0)).1 = true :=
    by decide
  have hreply := hrefuses.readReply_eq hsuccess
  rw [hlarge, ← Chat.completionIn_of_fault? (Http.fault?_of_isSuccess hsuccess)] at hreply
  refine ⟨hsuccess, hrefuses, ?_, ?_⟩
  · intro call
    rw [Chat.complete_eq_completionIn haddress hheader]
    exact hreply
  · obtain ⟨asked, hasked, -, htwice⟩ := ask_service_calls haddress hheader "schema"
      [⟨Text.utf8 "/m/outputs.tf", ""⟩] (refusing "context_length_exceeded?")
    rw [hasked]
    exact htwice.mpr ⟨⟨_, hreply⟩, _, List.mem_cons_self, by decide +kernel⟩

end Inference

end ModuleOutputs
