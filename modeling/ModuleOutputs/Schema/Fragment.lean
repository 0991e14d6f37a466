import ModuleOutputs.Json.Read
import ModuleOutputs.Json.Tree

/-!
Schema fragments: the description of one output's type. A fragment names a
kind, the schema of its elements or values, or refers to a named type.
-/

namespace ModuleOutputs.Schema

/-- The kinds of value that a fragment can name. -/
inductive Kind where
  | string
  | number
  | boolean
  | array
  | object
deriving Repr, DecidableEq

namespace Kind

/-- All kinds, in the order in which they are listed to a reader. -/
def all : List Kind :=
  [.string, .number, .boolean, .array, .object]

def word : Kind → String
  | .string => "string"
  | .number => "number"
  | .boolean => "boolean"
  | .array => "array"
  | .object => "object"

end Kind

/-- A schema fragment. Every part may be absent. -/
inductive Fragment where
  | mk (kind : Option Kind) (items : Option Fragment) (values : Option Fragment)
      (reference : Option String)
deriving Repr

namespace Fragment

/-- The fragment without any part. -/
def blank : Fragment :=
  .mk none none none none

def ofKind (k : Kind) : Fragment :=
  .mk (some k) none none none

def arrayOf (element : Fragment) : Fragment :=
  .mk (some .array) (some element) none none

/-- An object of values that a fragment describes. -/
def mapOf (value : Fragment) : Fragment :=
  .mk (some .object) none (some value) none

/-- The name of the type that admits every value. -/
def anyReference : String :=
  "pulumi.json#/Any"

/-- The reference to the type that admits every value. -/
def any : Fragment :=
  .mk none none none (some anyReference)

def withKind (k : Option Kind) : Fragment → Fragment
  | .mk _ i v r => .mk k i v r

/-- The fragment with another schema for its elements. -/
def withItems (i : Option Fragment) : Fragment → Fragment
  | .mk k _ v r => .mk k i v r

def withValues (v : Option Fragment) : Fragment → Fragment
  | .mk k i _ r => .mk k i v r

def withReference (r : Option String) : Fragment → Fragment
  | .mk k i v _ => .mk k i v r

mutual

/-- The written form of a fragment: only the parts that are present. -/
def toJson : Fragment → Json
  | .mk kind items values reference =>
    .object ((kind.map fun k => ("type", Json.text k.word)).toList ++
      partJson "items" items ++
      partJson "additionalProperties" values ++
      (reference.map fun r => ("$ref", Json.text r)).toList)

def partJson (key : String) : Option Fragment → List (String × Json)
  | none => []
  | some f => [(key, toJson f)]

end

def kindWords : List (String × Kind) :=
  Kind.all.map fun k => (k.word, k)

/-- A fragment as a record whose parts are read by `inner`. Every part may be
left out or `null`. -/
def shape (inner : Json.Reader Fragment) : Json.Shape Fragment where
  name := "SchemaFragment"
  blank := blank
  members := [
    ⟨"type", false, fun depth ps =>
      (Json.readOption (Json.readWord kindWords) depth ps).map fun (k, rest) =>
        (withKind k, rest)⟩,
    ⟨"items", false, fun depth ps =>
      (Json.readOption inner depth ps).map fun (f, rest) => (withItems f, rest)⟩,
    ⟨"additionalProperties", false, fun depth ps =>
      (Json.readOption inner depth ps).map fun (f, rest) => (withValues f, rest)⟩,
    ⟨"$ref", false, fun depth ps =>
      (Json.readOption Json.readText depth ps).map fun (r, rest) => (withReference r, rest)⟩]

/-- Reads a fragment. Every level of it opens one container. -/
def read : Json.Reader Fragment
  | 0 => Json.readRecord (shape fun _ ps => .error (Json.faultBefore .tooDeep ps)) 0
  | depth + 1 => Json.readRecord (shape fun _ => read depth) (depth + 1)

end Fragment

end ModuleOutputs.Schema
