import ModuleOutputs.Failure
import ModuleOutputs.Output

/-!
What the model answers: the texts of a completion, of which the first must be
the document asked for.
-/

namespace ModuleOutputs.Chat

/-- The texts of a reply, in order. -/
structure Completion where
  parts : List String
deriving Repr, DecidableEq

namespace Completion

def text (s : String) : Completion :=
  ⟨[s]⟩

/-- The outputs in the first text. -/
def response (c : Completion) : Except Failure InferenceResponse :=
  match c.parts with
  | [] => .error .noCompletion
  | first :: _ =>
    match Json.decode InferenceResponse.read first with
    | .ok r => .ok r
    | .error reason => .error (.malformedReply reason)

end Completion

end ModuleOutputs.Chat
