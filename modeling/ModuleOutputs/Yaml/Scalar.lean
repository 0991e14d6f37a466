import ModuleOutputs.Yaml.Token

/-!
Reading scalars. Line breaks inside plain and quoted scalars are folded: a single
one becomes a space, and of several the first is dropped. Block scalars keep
theirs, or fold them between lines that are not indented further.
-/

namespace ModuleOutputs.Yaml

/-! ## Folding -/

/-- White space that has been read but not yet added to a scalar. -/
structure Gap where
  blanks : List Char := []
  /-- The first line break, if there was one. -/
  leading : List Char := []
  /-- The line breaks after the first. -/
  trailing : List Char := []
  /-- Whether a line has ended. -/
  broken : Bool := false

namespace Gap

/-- What the white space amounts to inside a scalar. -/
def folded (g : Gap) : List Char :=
  if g.broken then
    if g.leading = ['\n'] then (if g.trailing.isEmpty then [' '] else g.trailing)
    else g.leading ++ g.trailing
  else g.blanks

end Gap

/-- Reads blanks and line breaks. In a plain scalar, whose lines must be indented
to `indent`, a tab may not stand in the indentation. -/
def readGap (indent : Option Nat) : (fuel : Nat) → Gap → Cursor → Option (Gap × Cursor)
  | 0, g, c => some (g, c)
  | fuel + 1, g, c =>
    match c.at? 0 with
    | none => some (g, c)
    | some ch =>
      if isBlankChar ch then
        if g.broken then
          if ch = '\t' && indent.elim false (c.mark.column < ·) then none
          else readGap indent fuel g (c.advance 1)
        else readGap indent fuel { g with blanks := g.blanks ++ [ch] } (c.advance 1)
      else if isBreakChar ch then
        let (br, c) := c.takeBreak
        if g.broken then readGap indent fuel { g with trailing := g.trailing ++ br } c
        else readGap indent fuel { g with blanks := [], leading := br, broken := true } c
      else some (g, c)

/-! ## Plain scalars -/

/-- A character that ends a plain scalar inside brackets. -/
def isFlowMark (c : Char) : Bool :=
  c == ',' || c == '[' || c == ']' || c == '\x7b' || c == '\x7d'

/-- Whether a colon inside brackets is followed by something that it may not be
followed by in a plain scalar. -/
def badColon (inFlow : Bool) (c : Cursor) : Bool :=
  inFlow && c.isAt 0 ':' && c.satisfies 1 fun ch => isFlowMark ch || ch == '?'

/-- Whether a plain scalar ends before the next character. -/
def plainStops (inFlow : Bool) (c : Cursor) : Bool :=
  c.blankOrEndAt 0 || (c.isAt 0 ':' && c.blankOrEndAt 1) || (inFlow && c.satisfies 0 isFlowMark)

/-- Reads a run of characters of a plain scalar without white space. -/
def plainRun (inFlow : Bool) : (fuel : Nat) → (seen : List Char) → Cursor →
    Option (List Char × Cursor)
  | 0, seen, c => some (seen.reverse, c)
  | fuel + 1, seen, c =>
    match c.at? 0 with
    | none => some (seen.reverse, c)
    | some ch =>
      if badColon inFlow c then none
      else if plainStops inFlow c then some (seen.reverse, c)
      else plainRun inFlow fuel (ch :: seen) (c.advance 1)

/-- What was read of a plain scalar: its text, where it ends, and whether a line
has ended since. -/
structure PlainText where
  text : List Char
  stop : Mark
  lineEnded : Bool

def plainFrom (inFlow : Bool) (indent : Nat) : (fuel : Nat) → PlainText → Gap → Cursor →
    Option (PlainText × Cursor)
  | 0, t, _, c => some (t, c)
  | fuel + 1, t, gap, c =>
    if c.atDocumentMark || c.isAt 0 '#' then some (t, c)
    else
      match plainRun inFlow (c.rest.length + 1) [] c with
      | none => none
      | some (run, c) =>
        let t : PlainText :=
          if run.isEmpty then { t with lineEnded := gap.broken }
          else ⟨t.text ++ gap.folded ++ run, c.mark, false⟩
        let gap := if run.isEmpty then gap else {}
        if c.satisfies 0 fun ch => isBlankChar ch || isBreakChar ch then
          match readGap (some indent) (c.rest.length + 1) gap c with
          | none => none
          | some (gap, c) =>
            let t := { t with lineEnded := gap.broken }
            if !inFlow && c.mark.column < indent then some (t, c)
            else plainFrom inFlow indent fuel t gap c
        else some (t, c)

def readPlain (inFlow : Bool) (indent : Nat) (c : Cursor) : Option (PlainText × Cursor) :=
  plainFrom inFlow indent (c.rest.length + 1) ⟨[], c.mark, false⟩ {} c

/-! ## Quoted scalars -/

/-- The value of a hexadecimal digit. -/
def hexValue? (c : Char) : Option Nat :=
  if '0' ≤ c && c ≤ '9' then some (c.toNat - 48)
  else if 'a' ≤ c && c ≤ 'f' then some (c.toNat - 87)
  else if 'A' ≤ c && c ≤ 'F' then some (c.toNat - 55)
  else none

/-- The character that hexadecimal digits name. -/
def hexChar? (n : Nat) (cs : List Char) : Option Char :=
  let digits := cs.take n
  if digits.length < n then none
  else
    match digits.mapM hexValue? with
    | none => none
    | some ds =>
      let v := ds.foldl (fun v d => 16 * v + d) 0
      if v < 0xD800 || (0xE000 ≤ v && v < 0x110000) then some (Char.ofNat v) else none

/-- What an escape of one letter stands for. -/
def shortEscape? : Char → Option Char
  | '0' => some '\x00'
  | 'a' => some '\x07'
  | 'b' => some '\x08'
  | 't' => some '\t'
  | '\t' => some '\t'
  | 'n' => some '\n'
  | 'v' => some '\x0b'
  | 'f' => some '\x0c'
  | 'r' => some '\r'
  | 'e' => some '\x1b'
  | ' ' => some ' '
  | '"' => some '"'
  | '/' => some '/'
  | '\\' => some '\\'
  | 'N' => some '\u0085'
  | '_' => some '\u00a0'
  | 'L' => some '\u2028'
  | 'P' => some '\u2029'
  | _ => none

def readEscape (c : Cursor) : Option (Char × Cursor) :=
  match c.at? 0 with
  | none => none
  | some 'x' => (hexChar? 2 (c.rest.drop 1)).map fun ch => (ch, c.advance 3)
  | some 'u' => (hexChar? 4 (c.rest.drop 1)).map fun ch => (ch, c.advance 5)
  | some 'U' => (hexChar? 8 (c.rest.drop 1)).map fun ch => (ch, c.advance 9)
  | some ch => (shortEscape? ch).map fun e => (e, c.advance 1)

/-- Reads a run of a quoted scalar up to white space or its closing quote. The
flag says that the run ended with an escaped line break. -/
def quotedRun (single : Bool) : (fuel : Nat) → (seen : List Char) → Cursor →
    Option (List Char × Bool × Cursor)
  | 0, seen, c => some (seen.reverse, false, c)
  | fuel + 1, seen, c =>
    match c.at? 0 with
    | none => some (seen.reverse, false, c)
    | some ch =>
      if isBlankChar ch || isBreakChar ch then some (seen.reverse, false, c)
      else if single then
        if ch = '\'' then
          if c.isAt 1 '\'' then quotedRun single fuel ('\'' :: seen) (c.advance 2)
          else some (seen.reverse, false, c)
        else quotedRun single fuel (ch :: seen) (c.advance 1)
      else if ch = '"' then some (seen.reverse, false, c)
      else if ch = '\\' then
        if c.satisfies 1 isBreakChar then some (seen.reverse, true, (c.advance 1).skipBreak)
        else
          match readEscape (c.advance 1) with
          | none => none
          | some (e, c) => quotedRun single fuel (e :: seen) c
      else quotedRun single fuel (ch :: seen) (c.advance 1)

/-- Reads a quoted scalar after its opening quote, up to and past the closing one. -/
def quotedFrom (single : Bool) : (fuel : Nat) → (text : List Char) → Cursor →
    Option (List Char × Cursor)
  | 0, _, _ => none
  | fuel + 1, text, c =>
    if c.atDocumentMark || c.atEnd then none
    else
      match quotedRun single (c.rest.length + 1) [] c with
      | none => none
      | some (run, escaped, c) =>
        let text := text ++ run
        if c.isAt 0 (if single then '\'' else '"') then some (text, c.advance 1)
        else
          match readGap none (c.rest.length + 1) { broken := escaped } c with
          | none => none
          | some (gap, c) => quotedFrom single fuel (text ++ gap.folded) c

def readQuoted (single : Bool) (c : Cursor) : Option (List Char × Cursor) :=
  quotedFrom single (c.rest.length + 2) [] (c.advance 1)

/-! ## Block scalars -/

/-- What happens to the line breaks at the end of a block scalar. -/
inductive Chomping where
  | strip
  | clip
  | keep
deriving DecidableEq

/-- Reads the sign that says what happens to the line breaks at the end. -/
def readChomping (c : Cursor) : Option Chomping × Cursor :=
  if c.isAt 0 '+' then (some .keep, c.advance 1)
  else if c.isAt 0 '-' then (some .strip, c.advance 1)
  else (none, c)

/-- Reads the digit that says how far a block scalar is indented. A zero is
refused. -/
def readIncrement (c : Cursor) : Option (Option Nat × Cursor) :=
  match c.at? 0 with
  | some ch =>
    if ch = '0' then none
    else if ch.isDigit then some (some (ch.toNat - 48), c.advance 1)
    else some (none, c)
  | none => some (none, c)

/-- Reads what stands behind the mark of a block scalar: a sign and a digit, in
either order. -/
def readHeader (c : Cursor) : Option (Chomping × Option Nat × Cursor) :=
  match readChomping c with
  | (some chomping, c) =>
    match readIncrement c with
    | none => none
    | some (n, c) => some (chomping, n, c)
  | (none, c) =>
    match readIncrement c with
    | none => none
    | some (none, c) => some (.clip, none, c)
    | some (some n, c) =>
      let (chomping, c) := readChomping c
      some (chomping.getD .clip, some n, c)

/-- Reads empty lines and the indentation of the next one. `indent` is how far
the scalar is indented, if that is known; `widest` is the widest indentation seen. -/
def readEmptyLines (indent : Option Nat) : (fuel : Nat) → (widest : Nat) → (breaks : List Char) →
    (stop : Mark) → Cursor → Option (Nat × List Char × Mark × Cursor)
  | 0, widest, breaks, stop, c => some (widest, breaks, stop, c)
  | fuel + 1, widest, breaks, stop, c =>
    let spaces := (c.rest.takeWhile (· == ' ')).length
    let c := c.advance (indent.elim spaces fun n => min spaces (n - c.mark.column))
    let widest := max widest c.mark.column
    if c.isAt 0 '\t' && indent.elim true (c.mark.column < ·) then none
    else if c.satisfies 0 isBreakChar then
      let (br, c) := c.takeBreak
      readEmptyLines indent fuel widest (breaks ++ br) c.mark c
    else some (widest, breaks, stop, c)

/-- A block scalar as far as it has been read: its text, the line break of the
last line, the breaks of the empty lines after it, and whether that line began
with a blank. -/
structure BlockText where
  text : List Char := []
  leading : List Char := []
  trailing : List Char := []
  blank : Bool := false

def blockLines (folded : Bool) (indent : Nat) : (fuel : Nat) → BlockText → Mark → Cursor →
    Option (BlockText × Mark × Cursor)
  | 0, t, stop, c => some (t, stop, c)
  | fuel + 1, t, stop, c =>
    if c.mark.column = indent && !c.atEnd then
      let blank := c.satisfies 0 isBlankChar
      let joined :=
        if folded && t.leading = ['\n'] && !t.blank && !blank then
          (if t.trailing.isEmpty then [' '] else [])
        else t.leading
      let (line, c) := c.takeWhile fun ch => !isBreakChar ch
      let (br, c) := c.takeBreak
      match readEmptyLines (some indent) (c.rest.length + 1) 0 [] c.mark c with
      | none => none
      | some (_, breaks, stop, c) =>
        blockLines folded indent fuel ⟨t.text ++ joined ++ t.trailing ++ line, br, breaks, blank⟩
          stop c
    else some (t, stop, c)

/-- Reads a block scalar from its mark on. `outer` is the indentation of what it
stands in, if there is any. -/
def readBlock (folded : Bool) (outer : Option Nat) (c : Cursor) :
    Option (List Char × Mark × Cursor) :=
  match readHeader (c.advance 1) with
  | none => none
  | some (chomping, increment, c) =>
    match c.finishLine with
    | none => none
    | some c =>
      let given := increment.map fun n => outer.getD 0 + n
      match readEmptyLines given (c.rest.length + 1) 0 [] c.mark c with
      | none => none
      | some (widest, breaks, stop, c) =>
        let indent := given.getD (max widest (max (outer.elim 0 (· + 1)) 1))
        match blockLines folded indent (c.rest.length + 1) { trailing := breaks } stop c with
        | none => none
        | some (t, stop, c) =>
          let ending :=
            match chomping with
            | .strip => []
            | .clip => t.leading
            | .keep => t.leading ++ t.trailing
          some (t.text ++ ending, stop, c)

end ModuleOutputs.Yaml
