import ModuleOutputs.Schema.Mapper

/-!
The schema document: the fragments of a module, plain or wrapped with the
module they belong to.
-/

namespace ModuleOutputs.Schema

/-- The document that a run produces. -/
inductive Document where
  /-- The outputs alone. -/
  | plain (outputs : Fragments)
  /-- The outputs of a module, with its source and version. -/
  | override (module : ModuleRef) (outputs : Fragments)
deriving Repr

namespace Document

/-- The document of a run that could infer nothing. -/
def empty : Document :=
  .plain []

/-- The fragments, whichever form the document has. -/
def outputs : Document → Fragments
  | .plain fs => fs
  | .override _ fs => fs

/-- Whether this is the document of a run that could infer nothing. -/
def isEmpty : Document → Bool
  | .plain [] => true
  | _ => false

def ofOutputs (module : ModuleRef) (options : RunOptions) (outputs : List InferredOutput) :
    Document :=
  let fragments := mapOutputs options outputs
  if options.override then .override module fragments else .plain fragments

def toJson : Document → Json
  | .plain fs => .object [("outputs", fs.toJson)]
  | .override m fs =>
    .object [("source", .text m.source), ("maximumVersion", .text m.version),
      ("partialSchema", .object [("outputs", fs.toJson)])]

def render (indented : Bool) (d : Document) : String :=
  if indented then d.toJson.pretty else d.toJson.compact

end Document

end ModuleOutputs.Schema
