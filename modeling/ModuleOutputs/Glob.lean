/-!
Patterns for names. `?` stands for one character, `*` for any run of them, a
class in brackets for one of some characters, and `**` alone for everything.
-/

namespace ModuleOutputs.Glob

/-- What a class in brackets lists: characters and ranges of them. -/
inductive Span where
  | one (c : Char)
  | range (first last : Char)
deriving Repr, DecidableEq

namespace Span

/-- Whether a character is listed. -/
def holds (c : Char) : Span → Bool
  | .one d => c == d
  | .range first last => first ≤ c && c ≤ last

end Span

/-- A part of a pattern. -/
inductive Token where
  | literal (c : Char)
  | anyChar
  /-- Any run of characters. -/
  | anyRun
  /-- A whole path, or nothing. -/
  | anyPath
  | oneOf (spans : List Span)
  | noneOf (spans : List Span)
deriving Repr, DecidableEq

/-- A pattern, as its parts in order. -/
abbrev Pattern := List Token

/-- Why a text is no pattern. -/
inductive Problem where
  | stars
  | notAlone
  | badClass
deriving Repr, DecidableEq

/-- Why a text is no pattern, and at which character. -/
structure Fault where
  problem : Problem
  position : Nat
deriving Repr, DecidableEq

namespace Fault

def message (f : Fault) : String :=
  "Pattern syntax error near position " ++ toString f.position ++ ": " ++
    match f.problem with
    | .stars => "wildcards are either regular `*` or recursive `**`"
    | .notAlone => "recursive wildcards must form a single path component"
    | .badClass => "invalid range pattern"

end Fault

/-! ## Reading a pattern -/

/-- The spans that the inside of a class lists. A dash between two characters
makes a range. -/
def spans : List Char → List Span
  | [] => []
  | [a] => [.one a]
  | [a, b] => [.one a, .one b]
  | a :: b :: c :: rest =>
    if b = '-' then .range a c :: spans rest else .one a :: spans (b :: c :: rest)

/-- The inside of a class and what follows its closing bracket. The first
character belongs to the class even if it is a bracket. -/
def classBody : List Char → Option (List Char × List Char)
  | [] => none
  | c :: rest =>
    let inside := rest.takeWhile (· ≠ ']')
    match rest.dropWhile (· ≠ ']') with
    | [] => none
    | _ :: after => some (c :: inside, after)

/-- Reads a class after its opening bracket. -/
def readClass : List Char → Option (Token × List Char)
  | '!' :: rest => (classBody rest).map fun (inside, after) => (.noneOf (spans inside), after)
  | rest => (classBody rest).map fun (inside, after) => (.oneOf (spans inside), after)

/-- Adds a wildcard for whole paths, unless the last part of a longer pattern is
one already. -/
def pushAnyPath (seen : List Token) : List Token :=
  match seen with
  | .anyPath :: _ :: _ => seen
  | _ => .anyPath :: seen

/-- Reads a pattern. `i` is the number of characters read, `last` the one read last,
`seen` the parts read in reverse; each step reads a character, so `fuel` need not
exceed their number. -/
def parseFrom : (fuel : Nat) → (i : Nat) → (last : Option Char) → (seen : List Token) →
    List Char → Except Fault Pattern
  | 0, _, _, seen, _ => .ok seen.reverse
  | _ + 1, _, _, seen, [] => .ok seen.reverse
  | fuel + 1, i, last, seen, c :: rest =>
    match c with
    | '?' => parseFrom fuel (i + 1) (some c) (.anyChar :: seen) rest
    | '*' =>
      let count := 1 + (rest.takeWhile (· == '*')).length
      let after := rest.dropWhile (· == '*')
      if 2 < count then .error ⟨.stars, i + 2⟩
      else if count = 1 then parseFrom fuel (i + 1) (some c) (.anyRun :: seen) rest
      else if last = none || last = some '/' then
        match after with
        | '/' :: after' => parseFrom fuel (i + 3) (some '/') (pushAnyPath seen) after'
        | [] => .ok (pushAnyPath seen).reverse
        | _ => .error ⟨.notAlone, i + 2⟩
      else .error ⟨.notAlone, i - 1⟩
    | '[' =>
      match readClass rest with
      | some (token, after) =>
        parseFrom fuel (i + 1 + (rest.length - after.length)) (some ']') (token :: seen) after
      | none => .error ⟨.badClass, i⟩
    | c => parseFrom fuel (i + 1) (some c) (.literal c :: seen) rest

/-- The pattern that a text spells, or why it spells none. -/
def parse (text : String) : Except Fault Pattern :=
  parseFrom (text.length + 1) 0 none [] text.toList

/-! ## Matching -/

/-- Whether a part stands for a character. -/
def Token.holds (c : Char) : Token → Bool
  | .literal d => c == d
  | .anyChar => true
  | .oneOf spans => spans.any (·.holds c)
  | .noneOf spans => !spans.any (·.holds c)
  | .anyRun | .anyPath => false

/-- Whether some end of a text, the whole text included, has a property. -/
def someEnd (p : List Char → Bool) : List Char → Bool
  | [] => p []
  | c :: rest => p (c :: rest) || someEnd p rest

/-- Whether a pattern stands for the whole of a name. A name has no slash in it,
so a wildcard for paths stands for nothing or for all the rest. -/
def admits : Pattern → List Char → Bool
  | [], cs => cs.isEmpty
  | .anyRun :: rest, cs => someEnd (admits rest) cs
  | .anyPath :: rest, cs => admits rest cs || admits rest []
  | token :: rest, c :: cs => token.holds c && admits rest cs
  | _ :: _, [] => false

end ModuleOutputs.Glob
