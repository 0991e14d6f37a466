import ModuleOutputs.Json.Read
import ModuleOutputs.Json.Tree

/-!
What the model is asked for: the outputs of a module, each with its type.
-/

namespace ModuleOutputs

/-- One output as the model inferred it. The type is not checked here. -/
structure InferredOutput where
  name : String
  type : String
deriving Repr, DecidableEq

/-- The outputs in the order the model listed them. -/
structure InferenceResponse where
  outputs : List InferredOutput
deriving Repr, DecidableEq

namespace InferredOutput

def toJson (o : InferredOutput) : Json :=
  .object [("output_name", .text o.name), ("output_type", .text o.type)]

/-- An output as a record. A field that is missing or `null` is empty. -/
def shape : Json.Shape InferredOutput where
  name := "InferredOutput"
  blank := ⟨"", ""⟩
  members := [
    ⟨"output_name", false, fun depth ps =>
      (Json.readTextOrNull depth ps).map fun (s, rest) => (fun o => { o with name := s }, rest)⟩,
    ⟨"output_type", false, fun depth ps =>
      (Json.readTextOrNull depth ps).map fun (s, rest) => (fun o => { o with type := s }, rest)⟩]

def read : Json.Reader InferredOutput :=
  Json.readRecord shape

end InferredOutput

namespace InferenceResponse

def toJson (r : InferenceResponse) : Json :=
  .object [("outputs", .list (r.outputs.map InferredOutput.toJson))]

/-- A response as a record. Its list of outputs must be there. -/
def shape : Json.Shape InferenceResponse where
  name := "InferenceResponse"
  blank := ⟨[]⟩
  members := [
    ⟨"outputs", true, fun depth ps =>
      (Json.readList InferredOutput.read depth ps).map fun (os, rest) => (fun _ => ⟨os⟩, rest)⟩]

def read : Json.Reader InferenceResponse :=
  Json.readRecord shape

end InferenceResponse

end ModuleOutputs
