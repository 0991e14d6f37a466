import ModuleOutputs.Text.Utf8

/-!
Message bodies as text. A byte order mark at the front says how a body is
encoded and is not part of it; without one it is UTF-8. Damage is replaced.
-/

namespace ModuleOutputs.Text

/-- The code units of two bytes each that bytes spell. A byte left over is kept
as a unit of its own kind. -/
def units (bigEndian : Bool) : Bytes → List (Option Nat)
  | [] => []
  | [_] => [none]
  | a :: b :: rest =>
    some (if bigEndian then a.toNat * 256 + b.toNat else b.toNat * 256 + a.toNat) ::
      units bigEndian rest

/-- Whether a unit is the first of a pair. -/
def isHighUnit (n : Nat) : Bool :=
  0xD800 ≤ n && n < 0xDC00

/-- Whether a unit is the second of a pair. -/
def isLowUnit (n : Nat) : Bool :=
  0xDC00 ≤ n && n < 0xE000

/-- The characters that code units spell. A unit of a pair that stands alone is
replaced, and so is a byte left over, both together where they meet. -/
def unitChars : List (Option Nat) → List Char
  | [] => []
  | none :: rest => '\uFFFD' :: unitChars rest
  | some n :: rest =>
    if isHighUnit n then
      match rest with
      | [] => ['\uFFFD']
      | none :: rest => '\uFFFD' :: unitChars rest
      | some m :: rest =>
        if isLowUnit m then
          Char.ofNat (0x10000 + (n - 0xD800) * 0x400 + (m - 0xDC00)) :: unitChars rest
        else '\uFFFD' :: unitChars (some m :: rest)
    else (if isLowUnit n then '\uFFFD' else Char.ofNat n) :: unitChars rest

def bodyText : Bytes → String
  | 0xEF :: 0xBB :: 0xBF :: rest => lossy rest
  | 0xFF :: 0xFE :: rest => String.ofList (unitChars (units false rest))
  | 0xFE :: 0xFF :: rest => String.ofList (unitChars (units true rest))
  | body => lossy body

end ModuleOutputs.Text
