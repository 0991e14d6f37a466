import ModuleOutputs.Chat.Service

/-!
Models: whatever answers a call with a completion. A call is kept before it is
answered, and an answer may depend on all calls so far.
-/

namespace ModuleOutputs.Chat

/-- A model: its answer to a call. -/
structure Model where
  answer : Call → Run (Except Failure Completion)

namespace Model

/-- The model behind the chat service. -/
def service (c : InferenceConfig) (apiKey : String) : Model :=
  ⟨complete c apiKey⟩

/-- A model whose answer is a function of the calls so far, this one last. -/
def ofHistory (f : List Call → Except Failure Completion) : Model :=
  ⟨fun _ => do return f (← get).calls⟩

/-- The answer to a call beyond the end of a script. -/
def scriptEnd : Except Failure Completion :=
  .error (Failure.ofReport "no scripted reply left")

/-- A model that gives its answers in order. -/
def scripted (answers : List (Except Failure Completion)) : Model :=
  ofHistory fun calls => (answers[calls.length - 1]?).getD scriptEnd

def ask (m : Model) (call : Call) : Attempt Completion := do
  modify fun w => { w with calls := w.calls ++ [call] }
  ExceptT.mk (m.answer call)

end Model

end ModuleOutputs.Chat
