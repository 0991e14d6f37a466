import ModuleOutputs.Event
import ModuleOutputs.Module
import ModuleOutputs.Output
import ModuleOutputs.Schema.Fragment

/-!
From inferred types to schema fragments. A name keeps the place of its first
occurrence and takes the fragment of its last.
-/

namespace ModuleOutputs.Schema

/-- The fragment for an inferred type. A type that is not known may be anything. -/
def fragmentOf (type : String) : Fragment :=
  match type with
  | "string" => .ofKind .string
  | "number" => .ofKind .number
  | "bool" => .ofKind .boolean
  | "list(string)" => .arrayOf (.ofKind .string)
  | "list(any)" => .arrayOf .any
  | "map(string)" => .mapOf (.ofKind .string)
  | "map(any)" => .mapOf .any
  | _ => .any

/-- Fragments by output name, each name once, in the order of first insertion. -/
abbrev Fragments := List (String × Fragment)

namespace Fragments

/-- Gives a name its fragment: in place if the name is there, else at the end. -/
def insert (name : String) (f : Fragment) : Fragments → Fragments
  | [] => [(name, f)]
  | (n, g) :: rest => if n = name then (n, f) :: rest else (n, g) :: insert name f rest

/-- The written form: an object from names to fragments. -/
def toJson (fs : Fragments) : Json :=
  .object (fs.map fun (name, f) => (name, f.toJson))

end Fragments

def kept (options : RunOptions) (outputs : List InferredOutput) : List InferredOutput :=
  outputs.filter fun o => !(options.skipStrings && o.type == "string")

def mapOutputs (options : RunOptions) (outputs : List InferredOutput) : Fragments :=
  (kept options outputs).foldl (fun fs o => fs.insert o.name (fragmentOf o.type)) []

/-- What is reported while outputs are mapped: a warning for every kept output
without a name. -/
def mapEvents (options : RunOptions) (outputs : List InferredOutput) : List Event :=
  ((kept options outputs).filter fun o => o.name == "").map fun o =>
    { level := .warn
      message := "Model returned an output without a name"
      fields := [("output_type", o.type)] }

end ModuleOutputs.Schema
