import ModuleOutputs.Decimal.Shortest
import ModuleOutputs.Text.Quoted
import ModuleOutputs.Yaml.Node

/-!
What scalars stand for. A plain scalar is nothing, a truth value or a number if it
is spelled like one; other scalars are text, unless a tag says otherwise.
-/

namespace ModuleOutputs.Yaml

/-- How many bits a whole number takes. -/
inductive Width where
  | unsigned64
  | signed64
  | unsigned128
  | signed128
deriving Repr, DecidableEq

namespace Width

/-- Whether numbers below zero are of the kind. -/
def signed : Width → Bool
  | .unsigned64 => false
  | .signed64 => true
  | .unsigned128 => false
  | .signed128 => true

/-- How many bits there are beside the sign. -/
def bits : Width → Nat
  | .unsigned64 => 64
  | .signed64 => 63
  | .unsigned128 => 128
  | .signed128 => 127

/-- Whether a number fits. The bits beside the sign spell it, or, below zero, how far
it is below minus one. -/
def holds (w : Width) : Int → Bool
  | .ofNat n => n < Nat.pow 2 w.bits
  | .negSucc n => w.signed && n < Nat.pow 2 w.bits

end Width

/-! ## Spellings -/

/-- Whether a scalar spells out that there is nothing. -/
def isNull (s : String) : Bool :=
  s == "null" || s == "Null" || s == "NULL" || s == "~"

/-- The truth value that a scalar spells. -/
def boolean? (s : String) : Option Bool :=
  if s == "true" || s == "True" || s == "TRUE" then some true
  else if s == "false" || s == "False" || s == "FALSE" then some false
  else none

/-- The value of a digit in any base up to sixteen. -/
def digitIn? (base : Nat) (c : Char) : Option Nat :=
  let value :=
    if c.isDigit then some (c.toNat - 48)
    else if 'a' ≤ c && c ≤ 'f' then some (c.toNat - 87)
    else if 'A' ≤ c && c ≤ 'F' then some (c.toNat - 55)
    else none
  value.filter (· < base)

/-- The number that digits spell in a base. -/
def digitsIn? (base : Nat) (cs : List Char) : Option Nat :=
  if cs.isEmpty then none
  else (cs.mapM (digitIn? base)).map fun ds => ds.foldl (fun n d => base * n + d) 0

/-- The number that digits spell behind the sign of their base, or in base ten. -/
def basedNumber? : List Char → Option Nat
  | '0' :: 'x' :: ds => digitsIn? 16 ds
  | '0' :: 'o' :: ds => digitsIn? 8 ds
  | '0' :: 'b' :: ds => digitsIn? 2 ds
  | ds => if ds.head? == some '0' && ds.length > 1 then none else digitsIn? 10 ds

/-- The number that a scalar spells, if it is of a width. A scalar with a minus
spells no number of a kind without sign. -/
def integer? (width : Width) (s : List Char) : Option Int :=
  let n : Option Int :=
    match s with
    | '-' :: ds => if width.signed then (basedNumber? ds).map fun n => -(n : Int) else none
    | '+' :: ds => (basedNumber? ds).map fun n => (n : Int)
    | ds => (basedNumber? ds).map fun n => (n : Int)
  n.filter width.holds

/-- The widths in the order in which they are tried. -/
def widths : List Width :=
  [.unsigned64, .signed64, .unsigned128, .signed128]

/-- The whole number that a scalar spells, with the first width that it fits. -/
def anyInteger? (s : List Char) : Option (Width × Int) :=
  widths.findSome? fun w => (integer? w s).map fun n => (w, n)

/-- Whether a scalar has a zero before other digits, and so spells no number. -/
def hasLeadingZero (s : List Char) : Bool :=
  let ds := if s.head? == some '-' || s.head? == some '+' then s.drop 1 else s
  ds.length > 1 && ds.head? == some '0' && ds.all Char.isDigit

def leadingDigits (cs : List Char) : List Nat × List Char :=
  ((cs.takeWhile Char.isDigit).map fun c => c.toNat - 48, cs.dropWhile Char.isDigit)

/-- The exponent that ends a number, zero if there is none. -/
def exponent? : List Char → Option Int
  | [] => some 0
  | c :: rest =>
    if c = 'e' || c = 'E' then
      match rest with
      | '-' :: ds => (digitsIn? 10 ds).map fun n => -(n : Int)
      | '+' :: ds => (digitsIn? 10 ds).map fun n => (n : Int)
      | ds => (digitsIn? 10 ds).map fun n => (n : Int)
    else none

/-- The double nearest to a significand times a power of ten. Nothing is returned
if it is out of range. -/
def finiteDouble? (digits : List Nat) (exponent : Int) : Option Float :=
  let digits := digits.dropWhile (· == 0)
  let significand := digits.foldl (fun n d => 10 * n + d) 0
  let lead := exponent + digits.length
  if significand = 0 || lead < -400 then some 0.0
  else if lead > 400 then none
  else
    let x := Float.ofScientific significand (exponent < 0) exponent.natAbs
    if x.isInf then none else some x

/-- The double that a scalar without a sign spells in decimals. -/
def decimal? (cs : List Char) : Option Float :=
  let (whole, rest) := leadingDigits cs
  let (fraction, rest) :=
    match rest with
    | '.' :: rest => leadingDigits rest
    | rest => ([], rest)
  if whole.isEmpty && fraction.isEmpty then none
  else
    match exponent? rest with
    | none => none
    | some e => finiteDouble? (whole ++ fraction) (e - fraction.length)

/-- Whether a scalar spells infinity behind its sign. -/
def isInfinity (cs : List Char) : Bool :=
  cs == ".inf".toList || cs == ".Inf".toList || cs == ".INF".toList

def isNotANumber (cs : List Char) : Bool :=
  cs == ".nan".toList || cs == ".NaN".toList || cs == ".NAN".toList

/-- The double that a scalar spells. -/
def float? (s : List Char) : Option Float :=
  let infinity : Float := 1.0 / 0.0
  if isNotANumber s then some (0.0 / 0.0)
  else
    match s with
    | '-' :: rest => if isInfinity rest then some (-infinity) else (decimal? rest).map (-·)
    | '+' :: rest => if isInfinity rest then some infinity else decimal? rest
    | rest => if isInfinity rest then some infinity else decimal? rest

/-! ## Meanings -/

/-- What a scalar stands for. -/
inductive CoreScalar where
  | null
  | boolean (b : Bool)
  | integer (width : Width) (n : Int)
  | float (x : Float)
  | text (s : String)

namespace CoreScalar

def ofPlain (s : String) : CoreScalar :=
  let cs := s.toList
  if s.isEmpty || isNull s then .null
  else
    match boolean? s, anyInteger? cs with
    | some b, _ => .boolean b
    | none, some (width, n) => .integer width n
    | none, none => if hasLeadingZero cs then .text s else (float? cs).elim (.text s) .float

/-- What the tags of the core types begin with. -/
def coreTag (name : String) : String :=
  "tag:yaml.org,2002:" ++ name

/-- What a scalar stands for. A tag that names a type of the core asks for a
spelling of that type, and if the scalar has another one, what was asked for is
returned. Under a tag of the document's own a plain scalar stands for what it would
without; under any other it is text. -/
def ofScalar (tag : Option String) (style : ScalarStyle) (s : String) :
    Except String CoreScalar :=
  let asked (name : String) (c : Option CoreScalar) : Except String CoreScalar :=
    c.elim (.error name) .ok
  let plain := if style = .plain then ofPlain s else .text s
  match tag with
  | none => .ok plain
  | some tag =>
    if tag = coreTag "bool" then asked "a boolean" ((boolean? s).map .boolean)
    else if tag = coreTag "int" then
      asked "an integer" ((anyInteger? s.toList).map fun (w, n) => .integer w n)
    else if tag = coreTag "float" then asked "a float" ((float? s.toList).map .float)
    else if tag = coreTag "null" then asked "null" (if isNull s then some .null else none)
    else if tag.startsWith "!" then .ok plain
    else .ok (.text s)

/-- What a message calls a scalar. -/
def description : CoreScalar → String
  | .null => "unit value"
  | .boolean b => "boolean \x60" ++ (if b then "true" else "false") ++ "\x60"
  | .integer .unsigned128 n => "integer \x60" ++ toString n ++ "\x60 as u128"
  | .integer .signed128 n => "integer \x60" ++ toString n ++ "\x60 as i128"
  | .integer _ n => "integer \x60" ++ toString n ++ "\x60"
  | .float x => "floating point \x60" ++ Decimal.render .long x ++ "\x60"
  | .text s => "string " ++ Text.quoted s

end CoreScalar

end ModuleOutputs.Yaml
