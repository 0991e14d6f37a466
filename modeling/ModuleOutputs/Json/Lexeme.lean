import ModuleOutputs.Decimal.Shortest
import ModuleOutputs.Json.Fault

/-!
The words of JSON: white space, literals, strings and numbers. Each reader
begins where its word begins and returns what follows it.
-/

namespace ModuleOutputs.Json

open Text (Piece Bytes)

/-- White space between words. -/
def isSpace : Piece → Bool
  | .char c => c == ' ' || c == '\n' || c == '\t' || c == '\r'
  | .stray _ => false

/-- What follows the white space. -/
def skipSpace (ps : List Piece) : List Piece :=
  ps.dropWhile isSpace

/-- Reads the rest of a literal: the given characters in order. -/
def expectWord : List Char → List Piece → Parsed Unit
  | [], ps => .ok ((), ps)
  | _ :: _, [] => .error (faultAt .endInValue [])
  | c :: cs, p :: ps =>
    if p = .char c then expectWord cs ps else .error (faultBefore .expectedWord (p :: ps))

/-! ## Strings -/

/-- The value of a hexadecimal digit. -/
def hexValue? (c : Char) : Option Nat :=
  if '0' ≤ c && c ≤ '9' then some (c.toNat - 48)
  else if 'a' ≤ c && c ≤ 'f' then some (c.toNat - 87)
  else if 'A' ≤ c && c ≤ 'F' then some (c.toNat - 55)
  else none

/-- The bytes that follow, cut into single ones: a character beyond ASCII counts
as several places and none of them is a digit. -/
def hexDigits? (ps : List Piece) : Option Nat :=
  (ps.mapM fun (p : Piece) => p.char?.bind hexValue?).map fun ds => ds.foldl (fun n d => 16 * n + d) 0

/-- Reads the four digits of an escape by code unit. Four bytes are taken
together, and the fault lies after all of them. -/
def hexEscape (ps : List Piece) : Parsed Nat :=
  if byteCount ps < 4 then .error ⟨.endInString, ps, byteCount ps⟩
  else
    match hexDigits? (ps.take 4) with
    | some n => .ok (n, ps.drop 4)
    | none => .error ⟨.invalidEscape, ps, 4⟩

/-- Whether a code unit is the first of a pair. -/
def isLeading (n : Nat) : Bool :=
  0xD800 ≤ n && n < 0xDC00

/-- Whether a code unit is the second of a pair. -/
def isTrailing (n : Nat) : Bool :=
  0xDC00 ≤ n && n < 0xE000

/-- The character of a pair of code units. -/
def pairChar (first second : Nat) : Char :=
  Char.ofNat (0x10000 + (first - 0xD800) * 0x400 + (second - 0xDC00))

/-- Reads the character of an escape by code unit, after the `u`. -/
def unicodeEscape (ps : List Piece) : Except Fault (Char × List Piece) := do
  let (first, rest) ← hexEscape ps
  if isTrailing first then .error (faultAt .loneSurrogate rest)
  else if isLeading first then
    match rest with
    | [] => .error (faultAt .endInString [])
    | .char '\\' :: [] => .error (faultAt .endInString [])
    | .char '\\' :: .char 'u' :: rest' => do
      let (second, rest'') ← hexEscape rest'
      if isTrailing second then .ok (pairChar first second, rest'')
      else .error (faultAt .loneSurrogate rest'')
    | .char '\\' :: rest' => .error (faultBefore .endOfHexEscape rest')
    | _ => .error (faultBefore .endOfHexEscape rest)
  else .ok (Char.ofNat first, rest)

/-- The character that a one-letter escape stands for. -/
def shortEscape? (c : Char) : Option Char :=
  match c with
  | '"' => some '"'
  | '\\' => some '\\'
  | '/' => some '/'
  | 'b' => some '\x08'
  | 'f' => some '\x0c'
  | 'n' => some '\n'
  | 'r' => some '\r'
  | 't' => some '\t'
  | _ => none

/-- Whether a character must be escaped in a string. -/
def isControl (c : Char) : Bool :=
  c.toNat < 0x20

/-- Reads a string after its opening quote, `seen` being what was read of it in
reverse. Each step takes at least one piece, so `fuel` need not exceed their
number. Damaged encodings show only at the end of the string. -/
def stringFrom : (fuel : Nat) → (seen : List Piece) → List Piece →
    Except Fault (String × List Piece)
  | 0, _, ps => .error (faultAt .endInString ps)
  | _ + 1, _, [] => .error (faultAt .endInString [])
  | fuel + 1, seen, .char c :: ps =>
    if c = '"' then
      match seen.reverse.mapM Piece.char? with
      | some cs => .ok (String.ofList cs, ps)
      | none => .error (faultAt .invalidCharacter (.char c :: ps))
    else if c = '\\' then
      match ps with
      | [] => .error (faultAt .endInString [])
      | .char 'u' :: ps' => do
        let (decoded, rest) ← unicodeEscape ps'
        stringFrom fuel (.char decoded :: seen) rest
      | p :: ps' =>
        match p.char?.bind shortEscape? with
        | some decoded => stringFrom fuel (.char decoded :: seen) ps'
        | none => .error (faultBefore .invalidEscape (p :: ps'))
    else if isControl c then .error (faultBefore .controlCharacter (.char c :: ps))
    else stringFrom fuel (.char c :: seen) ps
  | fuel + 1, seen, .stray bs :: ps => stringFrom fuel (.stray bs :: seen) ps

/-- Reads a string after its opening quote. -/
def string (ps : List Piece) : Parsed String :=
  stringFrom (ps.length + 1) [] ps

/-! ## Numbers -/

def isDigit : Piece → Bool
  | .char c => c.isDigit
  | .stray _ => false

def digitValue : Piece → Nat
  | .char c => c.toNat - 48
  | .stray _ => 0

/-- The digits at the front, and what follows them. -/
def digits (ps : List Piece) : List Nat × List Piece :=
  ((ps.takeWhile isDigit).map digitValue, ps.dropWhile isDigit)

/-- A number as it is written: its sign, the digits before and behind the point,
and its exponent with its sign. -/
structure Numeral where
  negative : Bool
  whole : List Nat
  fraction : Option (List Nat)
  exponent : Option (Bool × List Nat)
deriving Repr, DecidableEq

/-- Reads the digits behind a point. -/
def fractionPart (ps : List Piece) : Parsed (Option (List Nat)) :=
  match ps with
  | .char '.' :: ps' =>
    match digits ps' with
    | ([], []) => .error (faultAt .endInValue [])
    | ([], rest) => .error (faultBefore .invalidNumber rest)
    | (ds, rest) => .ok (some ds, rest)
  | _ => .ok (none, ps)

/-- Reads the sign and the digits of an exponent. -/
def exponentDigits (ps : List Piece) : Parsed (Bool × List Nat) :=
  let (negative, ps') :=
    match ps with
    | .char '+' :: rest => (false, rest)
    | .char '-' :: rest => (true, rest)
    | _ => (false, ps)
  match digits ps' with
  | ([], []) => .error (faultAt .endInValue [])
  | ([], rest) => .error (faultBefore .invalidNumber rest)
  | (ds, rest) => .ok ((negative, ds), rest)

/-- Reads an exponent, if there is one. -/
def exponentPart (ps : List Piece) :
    Except Fault (Option (Bool × List Nat) × List Piece) :=
  match ps with
  | .char 'e' :: ps' | .char 'E' :: ps' => do
    let (e, rest) ← exponentDigits ps'
    .ok (some e, rest)
  | _ => .ok (none, ps)

/-- Reads the digits before the point: a zero is not followed by another digit. -/
def wholePart (ps : List Piece) : Parsed (List Nat) :=
  match digits ps with
  | ([], []) => .error (faultAt .endInValue [])
  | ([], rest) => .error (faultBefore .invalidNumber rest)
  | ([0], rest) => .ok ([0], rest)
  | (0 :: _, _) => .error (faultBefore .invalidNumber (ps.drop 1))
  | (ds, rest) => .ok (ds, rest)

/-- Reads a number. -/
def numeral (ps : List Piece) : Except Fault (Numeral × List Piece) := do
  let (negative, ps) :=
    match ps with
    | .char '-' :: rest => (true, rest)
    | _ => (false, ps)
  let (whole, ps) ← wholePart ps
  let (fraction, ps) ← fractionPart ps
  let (exponent, ps) ← exponentPart ps
  .ok (⟨negative, whole, fraction, exponent⟩, ps)

/-! ### The value of a number in a message -/

/-- The greatest whole number that is kept exactly. -/
def wholeLimit : Nat :=
  Nat.pow 2 64 - 1

/-- Takes digits into a significand as long as it stays exact. Returns it with
the number of digits taken. -/
def takeDigits (significand : Nat) : List Nat → Nat × Nat
  | [] => (significand, 0)
  | d :: ds =>
    if 10 * significand + d ≤ wholeLimit then
      let (n, k) := takeDigits (10 * significand + d) ds
      (n, k + 1)
    else (significand, 0)

def spelled (ds : List Nat) : Nat :=
  ds.foldl (fun n d => 10 * n + d) 0

/-- A power of ten as a double, up to 308. -/
def tenTo (n : Nat) : Float :=
  Float.ofScientific 1 false n

/-- Scales a double by a power of ten, in steps of at most 308. The value is
rounded at each step. Nothing is returned if it grows out of range. -/
def scaled : (steps : Nat) → Float → Int → Option Float
  | 0, f, _ => some f
  | steps + 1, f, e =>
    if e.natAbs ≤ 308 then
      if 0 ≤ e then
        let g := f * tenTo e.natAbs
        if g.isInf then none else some g
      else some (f / tenTo e.natAbs)
    else if f == 0.0 then some f
    else if 0 ≤ e then none
    else scaled steps (f / tenTo 308) (e + 308)

/-- The greatest exponent that is read. -/
def exponentLimit : Nat :=
  Nat.pow 2 31 - 1

/-- How many digits of an exponent are read: up to the first with which it
exceeds the limit. -/
def exponentDigitsRead (ds : List Nat) : Nat :=
  ((List.range ds.length).find? fun k => exponentLimit < spelled (ds.take (k + 1))).elim
    ds.length (· + 1)

/-- What a message says about a number: a whole number of sixty-four bits, or a
double. Nothing is returned if it is out of range. -/
def Numeral.found? (n : Numeral) : Option Found :=
  let (significand, taken) := takeDigits 0 n.whole
  let dropped := n.whole.length - taken
  match n.fraction, n.exponent with
  | none, none =>
    if dropped = 0 && !n.negative then some (.integer (toString significand))
    else if dropped = 0 && significand != 0 && significand ≤ Nat.pow 2 63 then
      some (.integer ("-" ++ toString significand))
    else double significand dropped
  | fraction, exponent =>
    let (significand, shift) :=
      match fraction with
      | none => (significand, (dropped : Int))
      | some ds =>
        let (s, k) := takeDigits significand ds
        (s, (dropped : Int) - k)
    match exponent with
    | none => double significand shift
    | some (negative, ds) =>
      let e := spelled ds
      if e ≤ exponentLimit then double significand (if negative then shift - e else shift + e)
      else if significand != 0 && !negative then none
      else some (.floating (signed 0.0))
where
  signed (f : Float) : String :=
    Decimal.render .short (if n.negative then -f else f)
  double (significand : Nat) (e : Int) : Option Found :=
    (scaled 64 (Float.ofNat significand) e).map fun f => .floating (signed f)

/-- How many digits at the end of a number out of range are not looked at. -/
def Numeral.unread (n : Numeral) : Nat :=
  match n.exponent with
  | none => 0
  | some (_, ds) => ds.length - exponentDigitsRead ds

/-- Reads a number, as what a message says about it. -/
def numberFound (ps : List Piece) : Except Fault (Found × List Piece) := do
  let (n, rest) ← numeral ps
  match n.found? with
  | some found => .ok (found, rest)
  | none => .error (faultAt .numberOutOfRange (ps.drop (ps.length - rest.length - n.unread)))

end ModuleOutputs.Json
