import ModuleOutputs.Proofs.Run.Asking

/-!
The calls about files, whatever the model answers. It is asked about all files first. It is
asked a second time, about the files of outputs alone, exactly if its first answer is a failure
for size and there are such files; the last answer is what asking comes to.
-/

namespace ModuleOutputs

/-! ## Reading an answer -/

namespace Chat

variable {answer : Except Failure Completion} {r : InferenceResponse} {e : Failure}

/-- A response comes of an answer exactly if its first part is decoded as that. -/
theorem bind_response_eq_ok_iff :
    answer.bind Completion.response = .ok r ↔
      ∃ first others, answer = .ok ⟨first :: others⟩ ∧
        Json.decode InferenceResponse.read first = .ok r := by
  rcases answer with f | ⟨_ | ⟨first, others⟩⟩
  · simp [Except.bind]
  · simp [Except.bind, Completion.response]
  · simp only [Except.bind, Completion.response]
    cases hdecoded : Json.decode InferenceResponse.read first <;> simp [hdecoded]

/-- A failure is the answer itself, or the answer has no part, or the first is not decoded. -/
theorem bind_response_eq_error_iff :
    answer.bind Completion.response = .error e ↔
      answer = .error e ∨ answer = .ok ⟨[]⟩ ∧ e = .noCompletion ∨
        ∃ first others reason, answer = .ok ⟨first :: others⟩ ∧
          Json.decode InferenceResponse.read first = .error reason ∧ e = .malformedReply reason := by
  rcases answer with f | ⟨_ | ⟨first, others⟩⟩
  · simp [Except.bind]
  · simp [Except.bind, Completion.response, eq_comm]
  · simp only [Except.bind, Completion.response]
    cases hdecoded : Json.decode InferenceResponse.read first <;> simp [hdecoded, eq_comm]

end Chat

namespace Inference

open Chat (Completion)

/-! ## Calls -/

/-- The calls about files from one world to another, and what they come to. -/
structure Consults (f : List Call → Except Failure Completion) (formatName : String)
    (files : List SourceFile) (w v : World) (result : Except Failure Outcome)
    (asked : List Call) : Prop where
  /-- These are all calls, in this order. -/
  calls : v.calls = w.calls ++ asked
  /-- The first is about all files. -/
  first : asked.head? = some (callFor formatName files)
  atMostTwo : asked.length ≤ 2
  /-- There is a second one exactly if the first answer is a failure for size, and some file is
  one of outputs by the ending of its path. -/
  second : asked.length = 2 ↔
    (∃ reason, f (w.calls ++ [callFor formatName files]) = .error (.tooLarge reason)) ∧
      ∃ file ∈ files, outputsFileEnding <:+ file.displayPath.toList
  /-- A first answer that arrives is the last one, whether or not it can be read. -/
  arrived : ∀ completion, f (w.calls ++ [callFor formatName files]) = .ok completion →
    asked = [callFor formatName files]
  /-- The second conversation leaves out of the first one the files that are not of outputs, and
  nothing else. Its reply must have the same form. -/
  narrowed : ∀ call ∈ asked.tail,
    call.conversation = (Chat.conversation files).take 2 ++
      (files.filter fun file => outputsFileEnding <:+ file.displayPath.toList).map
        Chat.fileMessage ∧
    call.conversation.Sublist (Chat.conversation files) ∧
    call.format = (callFor formatName files).format
  /-- A response is what the first part of the last answer is decoded as. -/
  response : ∀ o, result = .ok o ↔
    (∃ first others, f v.calls = .ok ⟨first :: others⟩ ∧
      Json.decode InferenceResponse.read first = .ok o.response) ∧
    (o.degraded = true ↔ asked.length = 2)
  /-- A failure is the last answer, or says why that cannot be read. -/
  failure : ∀ e, result = .error e ↔
    f v.calls = .error e ∨ f v.calls = .ok ⟨[]⟩ ∧ e = .noCompletion ∨
      ∃ first others reason, f v.calls = .ok ⟨first :: others⟩ ∧
        Json.decode InferenceResponse.read first = .error reason ∧ e = .malformedReply reason

/-- The files that a second call is about are those whose path ends like that of a file of
outputs. -/
theorem narrow_eq_filter (files : List SourceFile) :
    Chat.narrow files =
      files.filter fun file => outputsFileEnding <:+ file.displayPath.toList := by
  refine List.filter_congr fun file _ => ?_
  rw [SourceFile.isOutputsFile, Bool.eq_iff_iff, List.isSuffixOf_iff_suffix, decide_eq_true_iff]

/-- The calls about files follow these rules for every model, whatever its answers are and on
whatever earlier calls they depend. -/
theorem ask_consults (f : List Call → Except Failure Completion) (formatName : String)
    (files : List SourceFile) (w : World) :
    ∃ asked, Consults f formatName files w ((ask (.ofHistory f) formatName files).run w).2
      ((ask (.ofHistory f) formatName files).run w).1 asked := by
  obtain ⟨again, u, hcalls, hagain, hu, hresult⟩ :=
    (ask_asked (.ofHistory f) formatName files w).exists_again (Chat.Model.ofHistory_confined f)
  rw [Chat.Model.ofHistory_answer, hu] at hresult
  generalize ((ask (.ofHistory f) formatName files).run w).2 = v at *
  generalize ((ask (.ofHistory f) formatName files).run w).1 = result at *
  have hsome : Chat.narrow files ≠ [] ↔
      ∃ file ∈ files, outputsFileEnding <:+ file.displayPath.toList := by
    simp [narrow_eq_filter]
  rw [hsome] at hagain
  change again = true ↔
    (∃ reason, f (w.calls ++ [callFor formatName files]) = .error (.tooLarge reason)) ∧ _ at hagain
  refine ⟨_, {
    calls := hcalls, first := rfl, atMostTwo := ?atMostTwo, second := ?second,
    arrived := ?arrived, narrowed := ?narrowed, response := ?response, failure := ?failure }⟩
  case atMostTwo => cases again <;> simp
  case second =>
    rw [← hagain]
    cases again <;> simp
  case arrived =>
    intro completion harrived
    have honce : again = false := by
      rw [Bool.eq_false_iff, Ne, hagain, harrived]
      simp
    rw [honce]
    rfl
  case narrowed =>
    intro call hcall
    cases again with
    | false => cases hcall
    | true =>
        obtain rfl := List.mem_singleton.mp hcall
        refine ⟨?_, ?_, rfl⟩
        · rw [callFor, narrow_eq_filter]
          rfl
        · exact ((List.filter_sublist.map Chat.fileMessage).cons_cons _).cons_cons _
  case response =>
    intro o
    rw [hresult, ← Chat.bind_response_eq_ok_iff]
    obtain ⟨response, degraded⟩ := o
    cases (f v.calls).bind Completion.response <;> cases again <;> simp [Except.map, eq_comm]
  case failure =>
    intro e
    rw [hresult, ← Chat.bind_response_eq_error_iff]
    cases (f v.calls).bind Completion.response <;> simp [Except.map]

end Inference

end ModuleOutputs
