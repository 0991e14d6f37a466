import ModuleOutputs.Text.Utf8
import ModuleOutputs.Yaml.Scalar

/-!
Reading what stands around nodes: directives before a document, anchors and
aliases, and tags.
-/

namespace ModuleOutputs.Yaml

/-! ## Anchors and aliases -/

/-- A character that may follow the name of an anchor directly. -/
def endsName (c : Char) : Bool :=
  c == '?' || c == ':' || c == ',' || c == ']' || c == '\x7d' || c == '%' || c == '@' ||
    c == '\x60'

/-- Reads the name of an anchor after its mark. -/
def readAnchor (c : Cursor) : Option (String × Cursor) :=
  let (name, c) := (c.advance 1).takeWhile isNameChar
  if !name.isEmpty && (c.blankOrEndAt 0 || c.satisfies 0 endsName) then
    some (String.ofList name, c)
  else none

/-! ## Tags -/

/-- A character of an address. The separators of flow collections count only where
`separators` is set. -/
def isUriChar (separators : Bool) (c : Char) : Bool :=
  isNameChar c || ";/?:@&=+$.!~*'()%".toList.contains c || (separators && ",[]".toList.contains c)

/-- The byte of an escape, if one stands here. -/
def escapedByte? (c : Cursor) : Option Nat :=
  match c.rest with
  | '%' :: a :: b :: _ =>
    match hexValue? a, hexValue? b with
    | some x, some y => some (16 * x + y)
    | _, _ => none
  | _ => none

/-- How many bytes a character takes that begins with the given one. -/
def escapeWidth? (byte : Nat) : Option Nat :=
  if byte < 0x80 then some 1
  else if byte < 0xC0 then none
  else if byte < 0xE0 then some 2
  else if byte < 0xF0 then some 3
  else if byte < 0xF8 then some 4
  else none

/-- Reads the escaped bytes after the first of a character. -/
def continueEscape : (missing : Nat) → (seen : List UInt8) → Cursor → Option (List UInt8 × Cursor)
  | 0, seen, c => some (seen.reverse, c)
  | missing + 1, seen, c =>
    match escapedByte? c with
    | none => none
    | some b =>
      if 0x80 ≤ b && b < 0xC0 then continueEscape missing (b.toUInt8 :: seen) (c.advance 3)
      else none

/-- Reads a character of an address that is written as escaped bytes. -/
def readUriEscape (c : Cursor) : Option (List Char × Cursor) :=
  match escapedByte? c with
  | none => none
  | some b =>
    match escapeWidth? b with
    | none => none
    | some width =>
      match continueEscape (width - 1) [b.toUInt8] (c.advance 3) with
      | none => none
      | some (bytes, c) => some ((Text.lossy bytes).toList, c)

def readUri (separators : Bool) : (fuel : Nat) → (seen : List Char) → Cursor →
    Option (List Char × Cursor)
  | 0, seen, c => some (seen.reverse, c)
  | fuel + 1, seen, c =>
    match c.at? 0 with
    | none => some (seen.reverse, c)
    | some '%' =>
      match readUriEscape c with
      | none => none
      | some (chars, c) => readUri separators fuel (chars.reverse ++ seen) c
    | some ch =>
      if isUriChar separators ch then readUri separators fuel (ch :: seen) (c.advance 1)
      else some (seen.reverse, c)

/-- Reads an address of one character or more. -/
def readSomeUri (separators : Bool) (c : Cursor) : Option (List Char × Cursor) :=
  match readUri separators (c.rest.length + 1) [] c with
  | some ([], _) => none
  | other => other

/-- Reads the handle of a tag: an exclamation mark, and perhaps a name and a
second one. -/
def readHandle (c : Cursor) : Option (List Char × Cursor) :=
  if !c.isAt 0 '!' then none
  else
    let (name, c) := (c.advance 1).takeWhile isNameChar
    if c.isAt 0 '!' then some ('!' :: name ++ ['!'], c.advance 1) else some ('!' :: name, c)

/-- Whether a handle stands between two exclamation marks. -/
def isNamedHandle (handle : List Char) : Bool :=
  handle.length > 1 && handle.getLast? == some '!'

/-- Reads a tag: its handle and what follows the handle. A tag in angle brackets
has the empty handle, and so has the tag that is only an exclamation mark. -/
def readTag (inFlow : Bool) (c : Cursor) : Option ((String × String) × Cursor) :=
  let tag : Option ((List Char × List Char) × Cursor) :=
    if c.isAt 1 '<' then
      match readSomeUri true (c.advance 2) with
      | none => none
      | some (uri, c) => if c.isAt 0 '>' then some (([], uri), c.advance 1) else none
    else
      match readHandle c with
      | none => none
      | some (handle, c) =>
        if isNamedHandle handle then
          (readSomeUri false c).map fun (suffix, c) => ((handle, suffix), c)
        else
          match readUri false (c.rest.length + 1) [] c with
          | none => none
          | some (rest, c) =>
            match handle.drop 1 ++ rest with
            | [] => some (([], ['!']), c)
            | suffix => some ((['!'], suffix), c)
  match tag with
  | none => none
  | some ((handle, suffix), c) =>
    if c.blankOrEndAt 0 || (inFlow && c.isAt 0 ',') then
      some ((String.ofList handle, String.ofList suffix), c)
    else none

/-! ## Directives -/

/-- Reads a number of at most nine digits. -/
def readNumber (c : Cursor) : Option (Nat × Cursor) :=
  let (digits, c) := c.takeWhile Char.isDigit
  if digits.isEmpty || digits.length > 9 then none
  else some (digits.foldl (fun n d => 10 * n + (d.toNat - 48)) 0, c)

/-- Reads the version that a directive names. -/
def readVersion (c : Cursor) : Option (TokenKind × Cursor) :=
  match readNumber (c.skipWhile isBlankChar) with
  | none => none
  | some (major, c) =>
    if !c.isAt 0 '.' then none
    else (readNumber (c.advance 1)).map fun (minor, c) => (.versionDirective major minor, c)

/-- Reads the handle and the address that a directive joins. -/
def readTagDirective (c : Cursor) : Option (TokenKind × Cursor) :=
  match readHandle (c.skipWhile isBlankChar) with
  | none => none
  | some (handle, c) =>
    if !(handle = ['!'] || isNamedHandle handle) || !c.satisfies 0 isBlankChar then none
    else
      match readSomeUri true (c.skipWhile isBlankChar) with
      | none => none
      | some (uri, c) =>
        if c.blankOrEndAt 0 then
          some (.tagDirective (String.ofList handle) (String.ofList uri), c)
        else none

/-- Reads a directive from its percent sign to the end of its line. -/
def readDirective (c : Cursor) : Option (TokenKind × Cursor) :=
  let (name, c) := (c.advance 1).takeWhile isNameChar
  if name.isEmpty || !c.blankOrEndAt 0 then none
  else
    let read :=
      if name = "YAML".toList then readVersion c
      else if name = "TAG".toList then readTagDirective c
      else none
    match read with
    | none => none
    | some (kind, c) => c.finishLine.map fun c => (kind, c)

end ModuleOutputs.Yaml
