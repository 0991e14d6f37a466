import ModuleOutputs.Json.Lexeme

/-!
Passing over a value that nobody asks for. Its form is checked, at any depth,
but its strings need not spell characters and its numbers have no size.
-/

namespace ModuleOutputs.Json

open Text (Piece)

/-- Passes over a string after its opening quote. Each step takes a piece. -/
def skipString : (fuel : Nat) → List Piece → Except Fault (List Piece)
  | 0, ps => .error (faultAt .endInString ps)
  | _ + 1, [] => .error (faultAt .endInString [])
  | fuel + 1, .char c :: ps =>
    if c = '"' then .ok ps
    else if c = '\\' then
      match ps with
      | [] => .error (faultAt .endInString [])
      | .char 'u' :: ps' => do
        let (_, rest) ← hexEscape ps'
        skipString fuel rest
      | p :: ps' =>
        if (p.char?.bind shortEscape?).isSome then skipString fuel ps'
        else .error (faultBefore .invalidEscape (p :: ps'))
    else if isControl c then .error (faultAt .controlCharacter (.char c :: ps))
    else skipString fuel ps
  | fuel + 1, .stray _ :: ps => skipString fuel ps

/-- Passes over a key and its colon, from the opening quote on. -/
def skipKey (fuel : Nat) (ps : List Piece) : Except Fault (List Piece) :=
  match skipSpace ps with
  | [] => .error (faultAt .endInObject [])
  | .char '"' :: ps' => do
    let rest ← skipString fuel ps'
    match skipSpace rest with
    | [] => .error (faultAt .endInObject [])
    | .char ':' :: rest' => .ok rest'
    | rest' => .error (faultBefore .expectedColon rest')
  | ps' => .error (faultBefore .keyNotString ps')

mutual

/-- Passes over a value and the white space before it. `fuel` bounds the steps:
a step takes a piece or hands on to one that does. -/
def skipValue : (fuel : Nat) → List Piece → Except Fault (List Piece)
  | 0, ps => .error (faultAt .endInValue ps)
  | fuel + 1, ps =>
    match skipSpace ps with
    | [] => .error (faultAt .endInValue [])
    | .char 'n' :: rest => (expectWord ['u', 'l', 'l'] rest).map (·.2)
    | .char 't' :: rest => (expectWord ['r', 'u', 'e'] rest).map (·.2)
    | .char 'f' :: rest => (expectWord ['a', 'l', 's', 'e'] rest).map (·.2)
    | .char '"' :: rest => skipString (rest.length + 1) rest
    | .char '[' :: rest =>
      match skipSpace rest with
      | [] => .error (faultAt .endInList [])
      | .char ']' :: rest' => .ok rest'
      | _ => skipItems fuel rest
    | .char '\x7b' :: rest =>
      match skipSpace rest with
      | [] => .error (faultAt .endInObject [])
      | .char '\x7d' :: rest' => .ok rest'
      | _ => skipMembers fuel rest
    | p :: rest =>
      if isDigit p || p = .char '-' then (numeral (p :: rest)).map (·.2)
      else .error (faultBefore .expectedValue (p :: rest))

/-- Passes over the items of a list, up to its end. -/
def skipItems : (fuel : Nat) → List Piece → Except Fault (List Piece)
  | 0, ps => .error (faultAt .endInValue ps)
  | fuel + 1, ps =>
    match skipValue fuel ps with
    | .error f => .error f
    | .ok rest =>
      match skipSpace rest with
      | [] => .error (faultAt .endInList [])
      | .char ',' :: rest' => skipItems fuel rest'
      | .char ']' :: rest' => .ok rest'
      | rest' => .error (faultBefore .expectedCommaOrBracket rest')

/-- Passes over the members of an object, up to its end. -/
def skipMembers : (fuel : Nat) → List Piece → Except Fault (List Piece)
  | 0, ps => .error (faultAt .endInValue ps)
  | fuel + 1, ps =>
    match skipKey (ps.length + 1) ps with
    | .error f => .error f
    | .ok rest =>
      match skipValue fuel rest with
      | .error f => .error f
      | .ok rest' =>
        match skipSpace rest' with
        | [] => .error (faultAt .endInObject [])
        | .char ',' :: rest'' => skipMembers fuel rest''
        | .char '\x7d' :: rest'' => .ok rest''
        | rest'' => .error (faultBefore .expectedCommaOrBrace rest'')

end

/-- Passes over a value. -/
def skip (ps : List Piece) : Except Fault (List Piece) :=
  skipValue (2 * ps.length + 2) ps

end ModuleOutputs.Json
