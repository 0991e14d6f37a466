import ModuleOutputs.Proofs.Http.Address
import ModuleOutputs.Proofs.Run.Asking

/-!
What the chat service is sent. A call of its model is one request, unless the
credential cannot stand in a header, and then nothing is sent at all. So asking about
files sends two requests at most, and the second one only if the reply to the first
says that the conversation is too large.
-/

namespace ModuleOutputs

open Http (Sent Reply)

namespace World

/-- Whether the server of one world is that of another one after some requests. -/
def Heard (w v : World) (requests : List Sent) : Prop :=
  v.server = (w.sent requests).server

namespace Heard

variable {u v w : World} {rs rs' : List Sent}

theorem nil (h : v.server = w.server) : Heard w v [] := by
  rw [Heard, sent_nil, h]

theorem sent (h : Heard u v rs) (rs' : List Sent) : Heard u (v.sent rs') (rs ++ rs') := by
  unfold Heard at *
  rw [← sent_sent]
  simp only [World.sent, h]

theorem trans (h : Heard u v rs) (h' : Heard v w rs') : Heard u w (rs ++ rs') :=
  Eq.trans h' (h.sent rs')

theorem of_server_eq (h : Heard u v rs) (hw : w.server = v.server) : Heard u w rs :=
  Eq.trans hw h

theorem received (h : Heard u v rs) : v.server.received = u.server.received ++ rs := by
  rw [h]
  rfl

theorem followed (h : Heard u v rs) : v.server.followed =
    u.server.followed ++ (u.server.detours.take rs.length).flatten := by
  rw [h]
  rfl

theorem reply_eq (h : Heard u v rs) (n : Nat) : v.reply n = u.reply (rs.length + n) := by
  rw [← reply_sent, reply, reply, h]

end Heard

end World

namespace Chat

/-- The request that asks the service at an address for a completion. -/
def postTo (c : InferenceConfig) (apiKey : String) (address : Http.Url) (call : Call) : Sent :=
  .document "POST" address.target (some (Http.headerValue ("Bearer " ++ apiKey)))
    (some "application/json") (requestBody c.model call).compact

/-- Whether a request asks the service for a completion. -/
def IsPost (c : InferenceConfig) (apiKey : String) (r : Sent) : Prop :=
  ∃ address call, Http.Url.ofText (endpoint c) = .ok address ∧ r = postTo c apiKey address call

/-- Whether a reply of the service says that the conversation is too large. -/
def SaysTooLarge (r : Reply) : Prop :=
  ∃ reason, completionIn r = .error (.tooLarge reason)

/-- The failure of a call that is not sent for its credential. -/
def unsent : Failure :=
  unanswered Http.RequestFault.header.message

theorem unsent_isTooLarge : unsent.isTooLarge = false := by
  decide +kernel

theorem request_eq (c : InferenceConfig) (apiKey : String) {address : Http.Url}
    (haddress : Http.Url.ofText (endpoint c) = .ok address) (call : Call) :
    request c apiKey call =
      if Http.isHeaderText ("Bearer " ++ apiKey) then .ok (postTo c apiKey address call)
      else .error .header := by
  unfold request
  rw [haddress]
  rfl

end Chat

namespace Inference

open Chat (Model)

variable {c : InferenceConfig} {apiKey : String} {address : Http.Url}

/-- A call of the service fails for size exactly if the reply says so. -/
theorem tooLarge_iff (r : Http.Reply) :
    (∃ f, (Chat.completionIn r).bind Chat.Completion.response = .error f ∧
        f.isTooLarge = true) ↔ Chat.SaysTooLarge r :=
  tooLarge_bind_iff _

/-- Asking the service keeps what was logged. -/
theorem Asked.events_prefix {formatName : String} {files : List SourceFile} {w v : World}
    {r : Except Failure Outcome} (h : Asked (.service c apiKey) formatName files w r v) :
    w.events <+: v.events := by
  have hsilent := Model.service_silent c apiKey
  cases h with
  | answered first | failed first _ => exact request_events hsilent first ▸ List.prefix_rfl
  | tooLarge first _ _ =>
      rw [← request_events hsilent first]
      exact List.prefix_append _ _
  | narrowed first _ _ second =>
      rw [request_events hsilent second, ← request_events hsilent first]
      exact List.prefix_append _ _

variable (haddress : Http.Url.ofText (Chat.endpoint c) = .ok address)
include haddress

/-- A call whose credential can stand in a header is one request, and fails for size
exactly if the reply says so. -/
theorem request_sendable (hheader : Http.isHeaderText ("Bearer " ++ apiKey) = true)
    (formatName : String) (files : List SourceFile) {w v : World}
    {r : Except Failure InferenceResponse}
    (h : (request (.service c apiKey) formatName files).run w = (r, v)) :
    w.Heard v [Chat.postTo c apiKey address (callFor formatName files)] ∧
      ((∃ f, r = .error f ∧ f.isTooLarge = true) ↔ Chat.SaysTooLarge (w.reply 0)) := by
  simp only [request_run, Model.service, Chat.complete_apply, Chat.request_eq c apiKey haddress,
    hheader, if_true] at h
  cases h
  exact ⟨rfl, tooLarge_iff (w.reply 0)⟩

/-- A call whose credential cannot stand in a header sends nothing. -/
theorem request_unsendable (hheader : Http.isHeaderText ("Bearer " ++ apiKey) = false)
    (formatName : String) (files : List SourceFile) {w v : World}
    {r : Except Failure InferenceResponse}
    (h : (request (.service c apiKey) formatName files).run w = (r, v)) :
    w.Heard v [] ∧ r = .error Chat.unsent := by
  simp only [request_run, Model.service, Chat.complete_apply, Chat.request_eq c apiKey haddress,
    hheader, Bool.false_eq_true, if_false] at h
  cases h
  exact ⟨.nil rfl, rfl⟩

theorem Asked.heard_of_unsendable (hheader : Http.isHeaderText ("Bearer " ++ apiKey) = false)
    {formatName : String} {files : List SourceFile} {w v : World} {r : Except Failure Outcome}
    (h : Asked (.service c apiKey) formatName files w r v) : w.Heard v [] := by
  have hrequest := @request_unsendable _ _ _ haddress hheader formatName files w
  cases h with
  | answered first => cases (hrequest first).2
  | failed first _ => exact (hrequest first).1
  | tooLarge first size _ | narrowed first size _ _ =>
      rw [Except.error.inj (hrequest first).2, Chat.unsent_isTooLarge] at size
      cases size

/-- With a credential that can be sent, asking sends one request, or a second one about
the files of outputs alone, if the first reply says that the files are too large and
some are of outputs. -/
theorem Asked.heard_of_sendable (hheader : Http.isHeaderText ("Bearer " ++ apiKey) = true)
    {formatName : String} {files : List SourceFile} {w v : World} {r : Except Failure Outcome}
    (h : Asked (.service c apiKey) formatName files w r v) :
    w.Heard v [Chat.postTo c apiKey address (callFor formatName files)] ∧
        ¬ (Chat.SaysTooLarge (w.reply 0) ∧ Chat.narrow files ≠ []) ∨
      w.Heard v [Chat.postTo c apiKey address (callFor formatName files),
          Chat.postTo c apiKey address (callFor formatName (Chat.narrow files))] ∧
        Chat.SaysTooLarge (w.reply 0) ∧ Chat.narrow files ≠ [] := by
  have hrequest := request_sendable haddress hheader formatName
  cases h with
  | answered first =>
      obtain ⟨hheard, hsize⟩ := hrequest files first
      refine .inl ⟨hheard, fun hlarge => ?_⟩
      obtain ⟨f, hf, -⟩ := hsize.mpr hlarge.1
      cases hf
  | failed first size =>
      obtain ⟨hheard, hsize⟩ := hrequest files first
      refine .inl ⟨hheard, fun hlarge => ?_⟩
      obtain ⟨f, hf, htooLarge⟩ := hsize.mpr hlarge.1
      cases hf
      rw [size] at htooLarge
      cases htooLarge
  | tooLarge first _ none =>
      obtain ⟨hheard, -⟩ := hrequest files first
      exact .inl ⟨hheard.of_server_eq rfl, fun hlarge => hlarge.2 none⟩
  | narrowed first size some second =>
      obtain ⟨hheard, hsize⟩ := hrequest files first
      obtain ⟨hheard', -⟩ := hrequest (Chat.narrow files) second
      exact .inr ⟨(hheard.of_server_eq rfl).trans hheard', hsize.mp ⟨_, rfl, size⟩, some⟩

/-- Asking the service about files sends two requests at most, and the first of them if the
credential can stand in a header. -/
theorem ask_posts (apiKey formatName : String) (files : List SourceFile) {w v : World}
    {r : Except Failure Outcome}
    (h : (ask (.service c apiKey) formatName files).run w = (r, v)) :
    ∃ posts, w.Heard v posts ∧ (∀ post ∈ posts, Chat.IsPost c apiKey post) ∧ posts.length ≤ 2 ∧
      (posts ≠ [] ↔ Http.isHeaderText ("Bearer " ++ apiKey) = true) ∧
      (posts.length = 2 ↔
        posts ≠ [] ∧ Chat.SaysTooLarge (w.reply 0) ∧ ∃ f ∈ files, f.isOutputsFile = true) := by
  have hpost : ∀ call, Chat.IsPost c apiKey (Chat.postTo c apiKey address call) :=
    fun call => ⟨address, call, haddress, rfl⟩
  have hnarrow : Chat.narrow files ≠ [] ↔ ∃ f ∈ files, f.isOutputsFile = true := by
    simp [Chat.narrow]
  have hasked := ask_asked (.service c apiKey) formatName files w
  rw [h] at hasked
  -- A credential that cannot stand in a header keeps every call from being sent.
  by_cases hheader : Http.isHeaderText ("Bearer " ++ apiKey) = true
  · rcases hasked.heard_of_sendable haddress hheader with ⟨hheard, hlarge⟩ | ⟨hheard, hlarge⟩
    · rw [hnarrow] at hlarge
      exact ⟨_, hheard, by simp [hpost], by simp, by simp [hheader], by simpa using hlarge⟩
    · rw [hnarrow] at hlarge
      exact ⟨_, hheard, by simp [hpost], by simp, by simp [hheader], by simpa using hlarge⟩
  · exact ⟨[], hasked.heard_of_unsendable haddress (by simpa using hheader), by simp, by simp,
      by simp [hheader], by simp⟩

end Inference

end ModuleOutputs
