import ModuleOutputs.Yaml.Property

/-!
The tokens of a text. What begins a mapping or is a key of one is known only when
the colon after it has been seen: up to there its place is kept as a possible key,
and the tokens that announce it are inserted at that place afterwards. A text that
breaks off gives the tokens before the first place that was still undecided.
-/

namespace ModuleOutputs.Yaml

/-- The tokens of a text, and whether they are all of them. -/
structure TokenStream where
  tokens : List Token
  complete : Bool
deriving Repr, DecidableEq

/-- A place where a key may have begun. -/
structure PossibleKey where
  /-- How many tokens stand before it. -/
  position : Nat
  mark : Mark
  /-- Whether nothing but a key may stand there. -/
  required : Bool
deriving Repr, DecidableEq

/-- A text as far as its tokens have been read. -/
structure Scan where
  cursor : Cursor
  tokens : Array Token := #[]
  /-- The column of the innermost block collection. -/
  indent : Option Nat := none
  /-- The columns of the collections around it, the innermost first. -/
  outer : List (Option Nat) := []
  /-- Whether a key may begin here. -/
  keyAllowed : Bool := true
  /-- The possible key of the current collection. -/
  possible : Option PossibleKey := none
  /-- The possible keys around the flow collections that are open. -/
  enclosing : List (Option PossibleKey) := []

namespace Scan

/-- Where the scan stands. -/
def mark (s : Scan) : Mark :=
  s.cursor.mark

/-- Whether a flow collection is open. -/
def inFlow (s : Scan) : Bool :=
  !s.enclosing.isEmpty

/-- Adds a token. -/
def push (s : Scan) (kind : TokenKind) (start stop : Mark) : Scan :=
  { s with tokens := s.tokens.push ⟨kind, start, stop⟩ }

/-- Adds a token that begins here and ends where the text goes on. -/
def pushTo (s : Scan) (kind : TokenKind) (c : Cursor) : Scan :=
  { s.push kind s.mark c.mark with cursor := c }

def insert (s : Scan) (position : Nat) (t : Token) : Scan :=
  { s with tokens := (s.tokens.extract 0 position).push t ++ s.tokens.extract position }

/-! ## Block collections -/

/-- Whether a column is further to the right than the innermost block collection. -/
def isDeeper (s : Scan) (column : Nat) : Bool :=
  s.indent.elim true (· < column)

/-- Opens a block collection if the column is further to the right than the
innermost one. Its token is inserted at a position. -/
def openBlock (s : Scan) (kind : TokenKind) (position : Nat) (mark : Mark) : Scan :=
  if !s.inFlow && s.isDeeper mark.column then
    { s.insert position ⟨kind, mark, mark⟩ with
      indent := some mark.column, outer := s.indent :: s.outer }
  else s

/-- Opens a block collection that begins here. -/
def openBlockHere (s : Scan) (kind : TokenKind) : Scan :=
  s.openBlock kind s.tokens.size s.mark

/-- Closes the block collections that satisfy `p` by their column, from the inside. -/
def closeWhile (p : Nat → Bool) : (outer : List (Option Nat)) → Scan → Scan
  | [], s => s
  | next :: outer, s =>
    if s.indent.elim false p then
      closeWhile p outer { s.push .blockEnd s.mark s.mark with indent := next, outer := outer }
    else s

/-- Closes the block collections that lie further to the right than the text. -/
def closeDeeper (s : Scan) : Scan :=
  if s.inFlow then s else closeWhile (s.mark.column < ·) s.outer s

/-- Closes all block collections. -/
def closeAll (s : Scan) : Scan :=
  if s.inFlow then s else closeWhile (fun _ => true) s.outer s

/-! ## Possible keys -/

/-- A key has to stand on one line and be at most 1024 characters long. -/
def expired (s : Scan) (k : PossibleKey) : Bool :=
  k.mark.line < s.mark.line || k.mark.index + 1024 < s.mark.index

/-- Gives up the possible keys that the text has left behind. -/
def dropExpired (s : Scan) : Option Scan :=
  let kept (k : Option PossibleKey) := k.filter (!s.expired ·)
  let all := s.possible :: s.enclosing
  if all.any fun k => k.elim false fun k => s.expired k && k.required then none
  else some { s with possible := kept s.possible, enclosing := s.enclosing.map kept }

/-- Gives up the possible key of the current collection. -/
def dropKey (s : Scan) : Option Scan :=
  if s.possible.elim false (·.required) then none else some { s with possible := none }

/-- Notes that a key may begin here. -/
def noteKey (s : Scan) : Option Scan :=
  if s.keyAllowed then
    s.dropKey.map fun s =>
      let required := !s.inFlow && s.indent == some s.mark.column
      { s with possible := some ⟨s.tokens.size, s.mark, required⟩ }
  else some s

/-- The first position at which it is not yet decided whether a key begins. -/
def firstOpen (s : Scan) : Nat :=
  (s.possible :: s.enclosing).foldl
    (fun n k => k.elim n fun k => min n k.position) s.tokens.size

/-! ## The tokens -/

/-- Goes past blanks, comments and line breaks. A tab is not taken for a blank
where a key may begin in a block. -/
def skipToToken : (fuel : Nat) → Scan → Scan
  | 0, s => s
  | fuel + 1, s =>
    let c := s.cursor
    let c := if c.mark.index = 0 && c.isAt 0 '\uFEFF' then c.advance 1 else c
    let c := c.skipWhile fun ch => ch == ' ' || ((s.inFlow || !s.keyAllowed) && ch == '\t')
    let c := if c.isAt 0 '#' then c.skipWhile (fun ch => !isBreakChar ch) else c
    if c.satisfies 0 isBreakChar then
      skipToToken fuel { s with cursor := c.skipBreak, keyAllowed := s.keyAllowed || !s.inFlow }
    else { s with cursor := c }

def endOfText (s : Scan) : Option Scan :=
  let m := s.mark
  let m := if m.column = 0 then m else { m with line := m.line + 1, column := 0 }
  let s : Scan := { s with cursor := { s.cursor with mark := m } }
  s.closeAll.dropKey.map fun s => { s with keyAllowed := false }.push .streamEnd m m

def directive (s : Scan) : Option Scan :=
  match s.closeAll.dropKey with
  | none => none
  | some s =>
    (readDirective s.cursor).map fun (kind, c) => { s with keyAllowed := false }.pushTo kind c

def documentMark (s : Scan) (kind : TokenKind) : Option Scan :=
  s.closeAll.dropKey.map fun s => { s with keyAllowed := false }.pushTo kind (s.cursor.advance 3)

/-- The opening bracket of a flow collection. -/
def openFlow (s : Scan) (kind : TokenKind) : Option Scan :=
  s.noteKey.map fun s =>
    { s with possible := none, enclosing := s.possible :: s.enclosing, keyAllowed := true }.pushTo
      kind (s.cursor.advance 1)

/-- The closing bracket of a flow collection. -/
def closeFlow (s : Scan) (kind : TokenKind) : Option Scan :=
  s.dropKey.map fun s =>
    let s : Scan :=
      match s.enclosing with
      | [] => s
      | k :: enclosing => { s with possible := k, enclosing := enclosing }
    { s with keyAllowed := false }.pushTo kind (s.cursor.advance 1)

/-- The comma of a flow collection. -/
def flowEntry (s : Scan) : Option Scan :=
  s.dropKey.map fun s => { s with keyAllowed := true }.pushTo .flowEntry (s.cursor.advance 1)

/-- The dash before an item. -/
def blockEntry (s : Scan) : Option Scan :=
  if !s.inFlow && !s.keyAllowed then none
  else
    (s.openBlockHere .blockSequenceStart).dropKey.map fun s =>
      { s with keyAllowed := true }.pushTo .blockEntry (s.cursor.advance 1)

/-- The question mark before a key. -/
def explicitKey (s : Scan) : Option Scan :=
  if !s.inFlow && !s.keyAllowed then none
  else
    (s.openBlockHere .blockMappingStart).dropKey.map fun s =>
      { s with keyAllowed := !s.inFlow }.pushTo .key (s.cursor.advance 1)

/-- The colon before a value. What was a possible key is one now. -/
def value (s : Scan) : Option Scan :=
  match s.possible with
  | some k =>
    let s := (s.insert k.position ⟨.key, k.mark, s.mark⟩).openBlock .blockMappingStart k.position
      k.mark
    some ({ s with possible := none, keyAllowed := false }.pushTo .value (s.cursor.advance 1))
  | none =>
    if !s.inFlow && !s.keyAllowed then none
    else
      let s := s.openBlockHere .blockMappingStart
      some ({ s with keyAllowed := !s.inFlow }.pushTo .value (s.cursor.advance 1))

/-- An anchor or an alias. -/
def name (s : Scan) (kind : String → TokenKind) : Option Scan :=
  match s.noteKey with
  | none => none
  | some s =>
    (readAnchor s.cursor).map fun (text, c) => { s with keyAllowed := false }.pushTo (kind text) c

def tag (s : Scan) : Option Scan :=
  match s.noteKey with
  | none => none
  | some s =>
    (readTag s.inFlow s.cursor).map fun ((handle, suffix), c) =>
      { s with keyAllowed := false }.pushTo (.tag handle suffix) c

def blockScalar (s : Scan) (folded : Bool) : Option Scan :=
  match s.dropKey with
  | none => none
  | some s =>
    (readBlock folded s.indent s.cursor).map fun (text, stop, c) =>
      let style : ScalarStyle := if folded then .folded else .literal
      { s.push (.scalar style (String.ofList text)) s.mark stop with cursor := c, keyAllowed := true }

def quotedScalar (s : Scan) (single : Bool) : Option Scan :=
  match s.noteKey with
  | none => none
  | some s =>
    (readQuoted single s.cursor).map fun (text, c) =>
      { s with keyAllowed := false }.pushTo (.scalar .quoted (String.ofList text)) c

def plainScalar (s : Scan) : Option Scan :=
  match s.noteKey with
  | none => none
  | some s =>
    (readPlain s.inFlow (s.indent.elim 0 (· + 1)) s.cursor).map fun (t, c) =>
      { s.push (.scalar .plain (String.ofList t.text)) s.mark t.stop with
        cursor := c, keyAllowed := t.lineEnded }

/-- Whether a plain scalar may begin here. -/
def plainBegins (s : Scan) (ch : Char) : Bool :=
  if ch = '-' then !s.cursor.satisfies 1 isBlankChar
  else if ch = '?' || ch = ':' then !s.inFlow && !s.cursor.blankOrEndAt 1
  else
    !isBlankChar ch && !isFlowMark ch &&
      !(ch == '#' || ch == '&' || ch == '*' || ch == '!' || ch == '|' || ch == '>' ||
        ch == '\'' || ch == '"' || ch == '%' || ch == '@' || ch == '\x60')

def tokenAt (s : Scan) (ch : Char) : Option Scan :=
  let c := s.cursor
  if c.mark.column = 0 && ch = '%' then s.directive
  else if c.atDocumentMark then s.documentMark (if ch = '-' then .documentStart else .documentEnd)
  else if ch = '[' then s.openFlow .flowSequenceStart
  else if ch = '\x7b' then s.openFlow .flowMappingStart
  else if ch = ']' then s.closeFlow .flowSequenceEnd
  else if ch = '\x7d' then s.closeFlow .flowMappingEnd
  else if ch = ',' then s.flowEntry
  else if ch = '-' && c.blankOrEndAt 1 then s.blockEntry
  else if ch = '?' && (s.inFlow || c.blankOrEndAt 1) then s.explicitKey
  else if ch = ':' && (s.inFlow || c.blankOrEndAt 1) then s.value
  else if ch = '*' then s.name .alias
  else if ch = '&' then s.name .anchor
  else if ch = '!' then s.tag
  else if ch = '|' && !s.inFlow then s.blockScalar false
  else if ch = '>' && !s.inFlow then s.blockScalar true
  else if ch = '\'' then s.quotedScalar true
  else if ch = '"' then s.quotedScalar false
  else if s.plainBegins ch then s.plainScalar
  else none

/-- What a scan has found when it breaks off. -/
def broken (s : Scan) : TokenStream :=
  ⟨(s.tokens.extract 0 s.firstOpen).toList, false⟩

/-- Reads the next token, and with it the ends of the collections before it. -/
def next (s : Scan) : Option Scan :=
  match (s.skipToToken (s.cursor.rest.length + 1)).dropExpired with
  | none => none
  | some s =>
    let s := s.closeDeeper
    match s.cursor.at? 0 with
    | none => s.endOfText
    | some ch => s.tokenAt ch

/-- Whether the end of the text has been read. -/
def ended (s : Scan) : Bool :=
  s.tokens.back?.elim false (·.kind == .streamEnd)

/-- Reads the tokens that follow. Each but the last takes a character. -/
def run : (fuel : Nat) → Scan → TokenStream
  | 0, s => s.broken
  | fuel + 1, s =>
    if s.ended then ⟨s.tokens.toList, true⟩
    else
      match s.dropExpired with
      | none => s.broken
      | some s => (s.next).elim s.broken (run fuel)

end Scan

/-- The tokens of a text. A character that no document may hold leaves none. -/
def TokenStream.ofText (text : String) : TokenStream :=
  if text.toList.all isPrintable then
    Scan.run (text.length + 2) { cursor := Cursor.ofText text }
  else ⟨[], false⟩

end ModuleOutputs.Yaml
