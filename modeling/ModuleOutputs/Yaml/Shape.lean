import ModuleOutputs.Yaml.CoreScalar
import ModuleOutputs.Yaml.Reading

/-!
Reading values of a known shape from a document. The first thing in the order of
the text that does not fit is reported, with the way to it and its place; what
breaks off the text is reported only if everything before it fits.
-/

namespace ModuleOutputs.Yaml

/-- A step on the way from the outermost node to another. -/
inductive Step where
  | field (name : String)
  | item (index : Nat)
  /-- An entry whose key is not written out. -/
  | unnamed
deriving Repr, DecidableEq

/-- The steps to a node, the last one first. -/
abbrev Way := List Step

/-- What a message says about the way to a node. -/
def Way.text : Way → String
  | [] => ""
  | [.item n] => ".[" ++ toString n ++ "]"
  | .item n :: way => Way.text way ++ "[" ++ toString n ++ "]"
  | [.field name] => name
  | .field name :: way => Way.text way ++ "." ++ name
  | [.unnamed] => "?"
  | .unnamed :: way => Way.text way ++ ".?"

/-- What does not fit. -/
inductive Mismatch where
  | wrongType (found expected : String)
  | wrongValue (found expected : String)
  | repeated (field : String)
deriving Repr, DecidableEq

/-- What a message says about a mismatch. -/
def Mismatch.text : Mismatch → String
  | .wrongType found expected => "invalid type: " ++ found ++ ", expected " ++ expected
  | .wrongValue found expected => "invalid value: " ++ found ++ ", expected " ++ expected
  | .repeated field => "duplicate field \x60" ++ field ++ "\x60"

/-- Why a document cannot be read as a value. -/
inductive ShapeFault where
  /-- The text is not that of a single document. -/
  | malformed
  /-- A node, found by a way at a place, does not fit. -/
  | mismatch (way : Way) (mark : Mark) (what : Mismatch)
deriving Repr, DecidableEq

/-- What a message says. The place is left out where it is the beginning of the
text. -/
def ShapeFault.text : ShapeFault → String
  | .malformed => "malformed document"
  | .mismatch way mark what =>
    let path := if way.isEmpty then "" else Way.text way ++ ": "
    let place :=
      if mark.line = 0 && mark.column = 0 then ""
      else " at line " ++ toString (mark.line + 1) ++ " column " ++ toString (mark.column + 1)
    path ++ what.text ++ place

/-- Reads a value from a node of a document, given the way to it. -/
abbrev Reader (α : Type) := Document → Way → Node → Except ShapeFault α

/-- The fault of a node that is not of the expected type. -/
def wrongNode (expected : String) (way : Way) : Node → ShapeFault
  | .scalar mark _ tag style text =>
    .mismatch way mark <|
      match CoreScalar.ofScalar tag style text with
      | .ok c => .wrongType c.description expected
      | .error asked => .wrongValue ("string " ++ Text.quoted text) asked
  | .list mark _ _ _ => .mismatch way mark (.wrongType "sequence" expected)
  | .mapping mark _ _ _ => .mismatch way mark (.wrongType "map" expected)
  | .alias _ => .malformed
  | .broken => .malformed

def readText (expected : String) : Reader String := fun d way n =>
  match d.resolve n with
  | .scalar _ _ _ _ text => .ok text
  | n => .error (wrongNode expected way n)

/-- Whether a scalar may stand for a truth value or a number: it is plain, or a
literal block under the tag of the type. -/
def mayStandFor (type : String) (tag : Option String) (style : ScalarStyle) : Bool :=
  style = .plain || (style = .literal && tag = some (CoreScalar.coreTag type))

/-- Reads a truth value. -/
def readBoolean : Reader Bool := fun d way n =>
  match d.resolve n with
  | .scalar mark anchor tag style text =>
    match if mayStandFor "bool" tag style then boolean? text else none with
    | some b => .ok b
    | none => .error (wrongNode "a boolean" way (.scalar mark anchor tag style text))
  | n => .error (wrongNode "a boolean" way n)

/-- Reads a number of sixty-four bits without sign. -/
def readNatural (expected : String) : Reader Nat := fun d way n =>
  match d.resolve n with
  | .scalar mark anchor tag style text =>
    match if mayStandFor "int" tag style then integer? .unsigned64 text.toList else none with
    | some n => .ok n.toNat
    | none => .error (wrongNode expected way (.scalar mark anchor tag style text))
  | n => .error (wrongNode expected way n)

/-- Reads items one after the other, counting from an index. -/
def readItems {α : Type} (item : Reader α) (d : Document) (way : Way) :
    (index : Nat) → List Node → Except ShapeFault (List α)
  | _, [] => .ok []
  | index, n :: rest => do
    let a ← item d (.item index :: way) n
    let as ← readItems item d way (index + 1) rest
    .ok (a :: as)

/-- Reads a list. A value that is not written is the empty list. -/
def readList {α : Type} (item : Reader α) : Reader (List α) := fun d way n =>
  match d.resolve n with
  | .list _ _ items complete => do
    let as ← readItems item d way 0 items
    if complete then .ok as else .error .malformed
  | .scalar _ _ _ .plain "" => .ok []
  | n => .error (wrongNode "a sequence" way n)

/-- A field of a record: its name, and how its value is put into the record. -/
structure RecordField (α : Type) where
  name : String
  put : Document → Way → Node → α → Except ShapeFault α

def RecordField.of {α β : Type} (name : String) (read : Reader β) (set : β → α → α) :
    RecordField α :=
  ⟨name, fun d way n a => (read d way n).map fun b => set b a⟩

def readName (d : Document) (way : Way) (key : Node) : Except ShapeFault (String × Step) := do
  let name ← readText "field identifier" d way key
  match key with
  | .alias _ => .ok (name, .unnamed)
  | _ => .ok (name, .field name)

/-- Reads the entries of a record, which begins at a place, with the names of the
fields that were given before. Entries that are no fields are passed over. -/
def readEntries {α : Type} (fields : List (RecordField α)) (d : Document) (way : Way)
    (mark : Mark) : (given : List String) → List (Node × Node) → α → Except ShapeFault α
  | _, [], a => .ok a
  | given, (key, value) :: rest, a => do
    let (name, step) ← readName d way key
    match fields.find? (·.name == name) with
    | some field =>
      if given.contains name then .error (.mismatch way mark (.repeated name))
      else
        let a ← field.put d (step :: way) value a
        readEntries fields d way mark (name :: given) rest a
    | none =>
      if value.isComplete then readEntries fields d way mark given rest a else .error .malformed

/-- Reads a record. Fields that are not given keep their values, and a value that is
not written gives none. -/
def readRecord {α : Type} (expected : String) (fields : List (RecordField α)) (unset : α) :
    Reader α :=
  fun d way n =>
    match d.resolve n with
    | .mapping mark _ entries complete => do
      let a ← readEntries fields d way mark [] entries unset
      if complete then .ok a else .error .malformed
    | .scalar _ _ _ .plain "" => .ok unset
    | n => .error (wrongNode expected way n)

/-- Reads a text as a record. An empty text gives no fields. -/
def recordOfText {α : Type} (expected : String) (fields : List (RecordField α)) (unset : α)
    (text : String) : Except ShapeFault α := do
  let d := Document.ofText text
  let a ←
    match d.root with
    | none => .ok unset
    | some n => readRecord expected fields unset d [] n
  if d.wellEnded then .ok a else .error .malformed

end ModuleOutputs.Yaml
