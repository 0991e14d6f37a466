/-!
A place in a text and what follows it. Lines and columns are counted from zero,
columns in characters.
-/

namespace ModuleOutputs.Yaml

/-- A place in a text. -/
structure Mark where
  index : Nat := 0
  line : Nat := 0
  column : Nat := 0
deriving Repr, DecidableEq

/-- A place in a text and what follows it. -/
structure Cursor where
  rest : List Char
  mark : Mark
deriving Repr, DecidableEq

/-- A space or a tab. -/
def isBlankChar (c : Char) : Bool :=
  c == ' ' || c == '\t'

/-- A character that ends a line. -/
def isBreakChar (c : Char) : Bool :=
  c == '\r' || c == '\n' || c == '\u0085' || c == '\u2028' || c == '\u2029'

/-- A character of a name: a letter or a digit of ASCII, a dash, an underscore. -/
def isNameChar (c : Char) : Bool :=
  c.isAlphanum || c == '-' || c == '_'

/-- A character that a document may hold. -/
def isPrintable (c : Char) : Bool :=
  let n := c.toNat
  n == 0x09 || n == 0x0A || n == 0x0D || (0x20 ≤ n && n ≤ 0x7E) || n == 0x85 ||
    (0xA0 ≤ n && n ≤ 0xFFFD) || 0x10000 ≤ n

namespace Cursor

/-- The beginning of a text. A byte order mark is passed over. -/
def ofText (s : String) : Cursor :=
  match s.toList with
  | '\uFEFF' :: rest => ⟨rest, {}⟩
  | cs => ⟨cs, {}⟩

/-- The character at a distance, if the text is long enough. -/
def at? (c : Cursor) (n : Nat) : Option Char :=
  c.rest[n]?

/-- Whether the character at a distance is the given one. -/
def isAt (c : Cursor) (n : Nat) (ch : Char) : Bool :=
  c.at? n == some ch

/-- Whether nothing follows. -/
def atEnd (c : Cursor) : Bool :=
  c.rest.isEmpty

def satisfies (c : Cursor) (n : Nat) (p : Char → Bool) : Bool :=
  (c.at? n).elim false p

/-- Whether the character at a distance is blank, or there is none. -/
def blankOrEndAt (c : Cursor) (n : Nat) : Bool :=
  (c.at? n).elim true fun ch => isBlankChar ch || isBreakChar ch

def lineEnds (c : Cursor) : Bool :=
  (c.at? 0).elim true isBreakChar

/-- Goes past characters of the same line. -/
def advance (c : Cursor) (n : Nat) : Cursor :=
  ⟨c.rest.drop n, ⟨c.mark.index + n, c.mark.line, c.mark.column + n⟩⟩

/-- Goes past a line break, two characters long or one. What it stands for is
returned: a line feed, unless it is one of the separators beyond Latin. -/
def takeBreak (c : Cursor) : List Char × Cursor :=
  let next (n : Nat) : Cursor := ⟨c.rest.drop n, ⟨c.mark.index + n, c.mark.line + 1, 0⟩⟩
  match c.rest with
  | '\r' :: '\n' :: _ => (['\n'], next 2)
  | '\u2028' :: _ => (['\u2028'], next 1)
  | '\u2029' :: _ => (['\u2029'], next 1)
  | ch :: _ => if isBreakChar ch then (['\n'], next 1) else ([], c)
  | [] => ([], c)

/-- Goes past a line break. -/
def skipBreak (c : Cursor) : Cursor :=
  c.takeBreak.2

/-- Takes the characters that satisfy `p`, which holds of no line break. -/
def takeWhile (c : Cursor) (p : Char → Bool) : List Char × Cursor :=
  let taken := c.rest.takeWhile p
  (taken, c.advance taken.length)

/-- Goes past the characters that satisfy `p`, which holds of no line break. -/
def skipWhile (c : Cursor) (p : Char → Bool) : Cursor :=
  (c.takeWhile p).2

/-- Goes to the end of a line on which only a comment may follow, and past it. -/
def finishLine (c : Cursor) : Option Cursor :=
  let c := c.skipWhile isBlankChar
  let c := if c.isAt 0 '#' then c.skipWhile (fun ch => !isBreakChar ch) else c
  if c.lineEnds then some c.skipBreak else none

/-- Whether a line begins here with a mark between documents. -/
def atDocumentMark (c : Cursor) : Bool :=
  c.mark.column == 0 && c.blankOrEndAt 3 &&
    (["---".toList, "...".toList].contains (c.rest.take 3))

end Cursor

end ModuleOutputs.Yaml
