import ModuleOutputs.Json.Skip

/-!
Reading a JSON text as a value of a given shape. A record may be written as an
object, whose unknown members are passed over, or as a list of its fields in
order. Reading stops at the first fault; what stands behind it is not looked at.
-/

namespace ModuleOutputs.Json

open Text (Piece Bytes)

/-- Reads a value of a type. `depth` is how many containers may still be opened. -/
abbrev Reader (α : Type) := (depth : Nat) → List Piece → Except Fault (α × List Piece)

/-- How many containers may be opened inside each other. -/
def depthLimit : Nat := 127

/-- The fault of a value that is not of the expected kind. A scalar is read
first, so a fault inside it goes before. -/
def wrongType (expected : String) (ps : List Piece) : Fault :=
  match ps with
  | [] => faultAt .endInValue []
  | .char '[' :: _ => faultAt (.wrongType .list expected) ps
  | .char '\x7b' :: _ => faultAt (.wrongType .object expected) ps
  | .char 'n' :: rest => after .null (expectWord ['u', 'l', 'l'] rest)
  | .char 't' :: rest => after (.flag true) (expectWord ['r', 'u', 'e'] rest)
  | .char 'f' :: rest => after (.flag false) (expectWord ['a', 'l', 's', 'e'] rest)
  | .char '"' :: rest =>
    match string rest with
    | .ok (s, rest') => faultAt (.wrongType (.text s) expected) rest'
    | .error f => f
  | p :: _ =>
    if isDigit p || p = .char '-' then
      match numberFound ps with
      | .ok (found, rest) => faultAt (.wrongType found expected) rest
      | .error f => f
    else faultBefore .expectedValue ps
where
  after (found : Found) : Except Fault (Unit × List Piece) → Fault
    | .ok (_, rest) => faultAt (.wrongType found expected) rest
    | .error f => f

def readText : Reader String := fun _ ps =>
  match skipSpace ps with
  | .char '"' :: rest => string rest
  | ps' => .error (wrongType "a string" ps')

/-- Reads `null`, or a value. -/
def readOption {α : Type} (read : Reader α) : Reader (Option α) := fun depth ps =>
  match skipSpace ps with
  | .char 'n' :: rest => (expectWord ['u', 'l', 'l'] rest).map fun (_, rest') => (none, rest')
  | ps' => (read depth ps').map fun (v, rest) => (some v, rest)

/-- Reads a string, where `null` stands for the empty one. -/
def readTextOrNull : Reader String := fun depth ps =>
  (readOption readText depth ps).map fun (v, rest) => (v.getD "", rest)

/-! ## Lists -/

/-- Goes on to the next item of a list, or past its end. -/
def nextItem (first : Bool) (ps : List Piece) : Except Fault (Bool × List Piece) :=
  match skipSpace ps with
  | [] => .error (faultAt .endInList [])
  | .char ']' :: rest => .ok (false, rest)
  | p :: rest =>
    if first then .ok (true, p :: rest)
    else if p = .char ',' then
      match skipSpace rest with
      | [] => .error (faultAt .endInValue [])
      | .char ']' :: rest' => .error (faultBefore .trailingComma (.char ']' :: rest'))
      | rest' => .ok (true, rest')
    else .error (faultBefore .expectedCommaOrBracket (p :: rest))

/-- Reads the items of a list up to its end. Each item takes a piece, so `fuel`
need not exceed the number of pieces. -/
def itemsFrom {α : Type} (read : List Piece → Except Fault (α × List Piece)) :
    (fuel : Nat) → (first : Bool) → List Piece → Except Fault (List α × List Piece)
  | 0, _, ps => .error (faultAt .endInList ps)
  | fuel + 1, first, ps => do
    let (more, rest) ← nextItem first ps
    if more then
      let (v, rest) ← read rest
      let (vs, rest) ← itemsFrom read fuel false rest
      .ok (v :: vs, rest)
    else .ok ([], rest)

def readList {α : Type} (read : Reader α) : Reader (List α) := fun depth ps =>
  match skipSpace ps with
  | .char '[' :: rest =>
    match depth with
    | 0 => .error (faultBefore .tooDeep (.char '[' :: rest))
    | d + 1 => itemsFrom (read d) (rest.length + 1) true rest
  | ps' => .error (wrongType "a sequence" ps')

/-! ## Records -/

/-- A field of a record: its key, whether it must be there, and how it is read.
What is read changes the record that is being built. -/
structure Member (α : Type) where
  key : String
  required : Bool
  read : Reader (α → α)

/-- A record: what it is called in messages, the record without any field, and
its fields in order. -/
structure Shape (α : Type) where
  name : String
  blank : α
  members : List (Member α)

namespace Shape

variable {α : Type}

/-- What is expected where a record stands. -/
def expected (s : Shape α) : String :=
  "struct " ++ s.name

/-- What is expected where a record stands as a list that is too short. -/
def expectedLength (s : Shape α) : String :=
  let n := s.members.length
  s.expected ++ " with " ++ toString n ++ (if n = 1 then " element" else " elements")

/-- The first field that must be there and was not seen. -/
def missing? (s : Shape α) (seen : List String) : Option String :=
  (s.members.find? fun m => m.required && !seen.contains m.key).map (·.key)

end Shape

/-- Goes past a bracket, if it comes next. -/
def pastBracket (close : Char) (ps : List Piece) : List Piece :=
  match skipSpace ps with
  | [] => []
  | p :: rest => if p = .char close then rest else p :: rest

/-- Goes on to the next key of an object, behind its opening quote, or past the
end of the object. -/
def nextKey (first : Bool) (ps : List Piece) : Except Fault (Bool × List Piece) :=
  match skipSpace ps with
  | [] => .error (faultAt .endInObject [])
  | .char '\x7d' :: rest => .ok (false, rest)
  | p :: rest =>
    if first then
      if p = .char '"' then .ok (true, rest) else .error (faultBefore .keyNotString (p :: rest))
    else if p = .char ',' then
      match skipSpace rest with
      | [] => .error (faultAt .endInValue [])
      | .char '"' :: rest' => .ok (true, rest')
      | .char '\x7d' :: rest' => .error (faultBefore .trailingComma (.char '\x7d' :: rest'))
      | rest' => .error (faultBefore .keyNotString rest')
    else .error (faultBefore .expectedCommaOrBrace (p :: rest))

/-- Goes past the colon behind a key. -/
def colon (ps : List Piece) : Except Fault (List Piece) :=
  match skipSpace ps with
  | [] => .error (faultAt .endInObject [])
  | .char ':' :: rest => .ok rest
  | ps' => .error (faultBefore .expectedColon ps')

/-- Reads the members of an object up to its end. Each member takes a piece, so
`fuel` need not exceed the number of pieces. -/
def membersFrom {α : Type} (shape : Shape α) (depth : Nat) :
    (fuel : Nat) → (first : Bool) → α → (seen : List String) → List Piece →
      Except Fault (α × List Piece)
  | 0, _, _, _, ps => .error (faultAt .endInObject ps)
  | fuel + 1, first, value, seen, ps => do
    let (more, rest) ← nextKey first ps
    if more then
      let (key, rest) ← string rest
      match shape.members.find? fun m => m.key = key with
      | none =>
        let rest ← colon rest
        let rest ← skip rest
        membersFrom shape depth fuel false value seen rest
      | some m =>
        if seen.contains key then
          .error (faultAt (.duplicateField key) (pastBracket '\x7d' rest))
        else
          let rest ← colon rest
          let (change, rest) ← m.read depth rest
          membersFrom shape depth fuel false (change value) (key :: seen) rest
    else
      match shape.missing? seen with
      | some key => .error (faultAt (.missingField key) rest)
      | none => .ok (value, rest)

/-- Goes past the end of a list that has been read in full. -/
def endOfList (ps : List Piece) : Except Fault (List Piece) :=
  match skipSpace ps with
  | [] => .error (faultAt .endInList [])
  | .char ']' :: rest => .ok rest
  | .char ',' :: rest =>
    match skipSpace rest with
    | .char ']' :: rest' => .error (faultBefore .trailingComma (.char ']' :: rest'))
    | rest' => .error (faultBefore .trailingCharacters rest')
  | ps' => .error (faultBefore .trailingCharacters ps')

/-- Reads the fields of a record from a list, in order. Where the list ends early,
the fields that must be there are found missing. -/
def fieldsFrom {α : Type} (shape : Shape α) (depth : Nat) :
    List (Member α) → (count : Nat) → α → List Piece → Except Fault (α × List Piece)
  | [], _, value, ps => do
    let rest ← endOfList ps
    .ok (value, rest)
  | m :: ms, count, value, ps => do
    let (more, rest) ← nextItem (count == 0) ps
    if more then
      let (change, rest) ← m.read depth rest
      fieldsFrom shape depth ms (count + 1) (change value) rest
    else
      match ((m :: ms).zipIdx count).find? fun (m, _) => m.required with
      | some (_, i) => .error (faultAt (.tooShort i shape.expectedLength) rest)
      | none => .ok (value, rest)

def readRecord {α : Type} (shape : Shape α) : Reader α := fun depth ps =>
  match skipSpace ps with
  | .char '\x7b' :: rest =>
    match depth with
    | 0 => .error (faultBefore .tooDeep (.char '\x7b' :: rest))
    | d + 1 => membersFrom shape d (rest.length + 1) true shape.blank [] rest
  | .char '[' :: rest =>
    match depth with
    | 0 => .error (faultBefore .tooDeep (.char '[' :: rest))
    | d + 1 => fieldsFrom shape d shape.members 0 shape.blank rest
  | ps' => .error (wrongType shape.expected ps')

/-! ## Alternatives -/

/-- The alternative that a word names. -/
def choose {α : Type} (known : List (String × α)) (word : String) (rest : List Piece) :
    Except Fault (α × List Piece) :=
  match known.find? fun (w, _) => w = word with
  | some (_, v) => .ok (v, rest)
  | none => .error (faultAt (.unknownVariant word (known.map (·.1))) rest)

/-- Reads one of several words, alone or as the key of an object whose value is
`null`. -/
def readWord {α : Type} (known : List (String × α)) : Reader α := fun depth ps =>
  match skipSpace ps with
  | [] => .error (faultAt .endInValue [])
  | .char '"' :: rest => do
    let (word, rest) ← string rest
    choose known word rest
  | .char '\x7b' :: rest =>
    match depth with
    | 0 => .error (faultBefore .tooDeep (.char '\x7b' :: rest))
    | _ + 1 =>
      match skipSpace rest with
      | .char '"' :: rest => do
        let (word, rest) ← string rest
        let (v, rest) ← choose known word rest
        let rest ← colon rest
        let rest ← readUnit rest
        match skipSpace rest with
        | [] => .error (faultAt .endInObject [])
        | .char '\x7d' :: rest => .ok (v, rest)
        | rest => .error (faultAt .expectedValue rest)
      | rest => .error (wrongType "variant identifier" rest)
  | ps' => .error (faultBefore .expectedValue ps')
where
  readUnit (ps : List Piece) : Except Fault (List Piece) :=
    match skipSpace ps with
    | .char 'n' :: rest => (expectWord ['u', 'l', 'l'] rest).map (·.2)
    | ps' => .error (wrongType "unit" ps')

/-! ## Whole texts -/

/-- Reads pieces as one value, with nothing but white space around it. -/
def decodePieces {α : Type} (read : Reader α) (ps : List Piece) : Except String α :=
  match read depthLimit ps with
  | .error f => .error (f.message ps)
  | .ok (v, rest) =>
    match skipSpace rest with
    | [] => .ok v
    | rest' => .error ((faultBefore .trailingCharacters rest').message ps)

/-- Reads a text as one value, or says why it is none. -/
def decode {α : Type} (read : Reader α) (text : String) : Except String α :=
  decodePieces read (Text.piecesOf text)

/-- Reads a message body as one value, or says why it is none. -/
def decodeBytes {α : Type} (read : Reader α) (body : Bytes) : Except String α :=
  decodePieces read (Text.pieces body)

end ModuleOutputs.Json
