/-!
JSON documents as trees, and their two written forms: compact, and indented by
two spaces. An object's members keep their order.
-/

namespace ModuleOutputs

/-- A JSON document of the kinds this library writes. -/
inductive Json where
  | null
  | flag (value : Bool)
  | text (value : String)
  | list (items : List Json)
  | object (members : List (String × Json))
deriving Repr

namespace Json

/-- The lower-case hexadecimal digit of a number below sixteen. -/
def hexDigit (n : Nat) : Char :=
  if n < 10 then Char.ofNat (48 + n) else Char.ofNat (87 + n)

/-- A character inside a written string: quotes, backslashes and the control
characters below U+0020 are escaped, with the short form where there is one. -/
def escapeChar (c : Char) : List Char :=
  if c = '"' then ['\\', '"']
  else if c = '\\' then ['\\', '\\']
  else if c = '\n' then ['\\', 'n']
  else if c = '\r' then ['\\', 'r']
  else if c = '\t' then ['\\', 't']
  else if c = '\x08' then ['\\', 'b']
  else if c = '\x0c' then ['\\', 'f']
  else if c.toNat < 0x20 then
    ['\\', 'u', '0', '0', hexDigit (c.toNat / 16), hexDigit (c.toNat % 16)]
  else [c]

def quote (s : String) : List Char :=
  '"' :: (s.toList.flatMap escapeChar ++ ['"'])

/-- The separator between items, or nothing before the first. -/
def joinWith (separator : List Char) : List (List Char) → List Char
  | [] => []
  | [x] => x
  | x :: y :: rest => x ++ separator ++ joinWith separator (y :: rest)

mutual

/-- The compact form: no white space. -/
def compactChars : Json → List Char
  | .null => "null".toList
  | .flag b => (if b then "true" else "false").toList
  | .text s => quote s
  | .list items => '[' :: (joinWith [','] (compactItems items) ++ [']'])
  | .object members => '\x7b' :: (joinWith [','] (compactMembers members) ++ ['\x7d'])

/-- The compact forms of a list's items. -/
def compactItems : List Json → List (List Char)
  | [] => []
  | v :: rest => compactChars v :: compactItems rest

/-- The compact forms of an object's members. -/
def compactMembers : List (String × Json) → List (List Char)
  | [] => []
  | (k, v) :: rest => (quote k ++ ':' :: compactChars v) :: compactMembers rest

end

/-- A new line indented to a level. -/
def newline (level : Nat) : List Char :=
  '\n' :: List.replicate (2 * level) ' '

mutual

/-- The indented form of a value that stands at an indentation level. An empty
container stays on one line. -/
def prettyChars (level : Nat) : Json → List Char
  | .null => "null".toList
  | .flag b => (if b then "true" else "false").toList
  | .text s => quote s
  | .list [] => ['[', ']']
  | .list (v :: rest) =>
    '[' :: (newline (level + 1) ++
      joinWith (',' :: newline (level + 1)) (prettyItems (level + 1) (v :: rest)) ++
      newline level ++ [']'])
  | .object [] => ['\x7b', '\x7d']
  | .object (m :: rest) =>
    '\x7b' :: (newline (level + 1) ++
      joinWith (',' :: newline (level + 1)) (prettyMembers (level + 1) (m :: rest)) ++
      newline level ++ ['\x7d'])

/-- The indented forms of a list's items. -/
def prettyItems (level : Nat) : List Json → List (List Char)
  | [] => []
  | v :: rest => prettyChars level v :: prettyItems level rest

/-- The indented forms of an object's members. -/
def prettyMembers (level : Nat) : List (String × Json) → List (List Char)
  | [] => []
  | (k, v) :: rest => (quote k ++ ':' :: ' ' :: prettyChars level v) :: prettyMembers level rest

end

def compact (v : Json) : String :=
  String.ofList v.compactChars

/-- The indented text of a document. -/
def pretty (v : Json) : String :=
  String.ofList (v.prettyChars 0)

end Json

end ModuleOutputs
