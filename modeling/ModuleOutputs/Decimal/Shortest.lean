/-!
The shortest decimal that reads back as a given binary floating-point number.
Of the decimals with the fewest digits the nearest one is taken, and of two
equally near ones the one with an even last digit.
-/

namespace ModuleOutputs.Decimal

/-- The number `digits * 10 ^ exponent`. -/
structure Scaled where
  digits : Nat
  exponent : Int
deriving Repr, DecidableEq

/-- The number `significand * 2 ^ exponent`. `lower` says that the next smaller
number of the format is only half as far away as the next larger one. -/
structure Binary where
  significand : Nat
  exponent : Int
  lower : Bool
deriving Repr, DecidableEq

namespace Binary

/-- The magnitude that the bits of a finite double stand for. -/
def ofBits (bits : Nat) : Binary :=
  let fraction : Nat := bits % Nat.pow 2 52
  let scale : Nat := bits / Nat.pow 2 52 % Nat.pow 2 11
  if scale = 0 then ⟨fraction, -1074, false⟩
  else ⟨Nat.pow 2 52 + fraction, (scale : Int) - 1075, fraction = 0 && scale != 1⟩

/-- Four times the significand, so that half-way points are whole numbers too. -/
def quarter (b : Binary) : Nat :=
  4 * b.significand

/-- The lower end of the numbers that round to `b`, in quarters. -/
def lowEnd (b : Binary) : Nat :=
  if b.lower then b.quarter - 1 else b.quarter - 2

/-- The upper end of the numbers that round to `b`, in quarters. -/
def highEnd (b : Binary) : Nat :=
  b.quarter + 2

end Binary

/-- `2 ^ e` as a quotient of whole numbers. -/
def powTwo (e : Int) : Nat × Nat :=
  (Nat.pow 2 e.toNat, Nat.pow 2 (-e).toNat)

/-- `10 ^ e` as a quotient of whole numbers. -/
def powTen (e : Int) : Nat × Nat :=
  (Nat.pow 10 e.toNat, Nat.pow 10 (-e).toNat)

/-- The decimal with the given last place that is nearest to `b`, if it reads
back as `b`. -/
def onGrid (b : Binary) (place : Int) : Option Scaled :=
  let (num, den) := powTwo (b.exponent - 2)
  let (up, down) := powTen place
  let value := b.quarter * num * down
  let unit := up * den
  let low := b.lowEnd * num * down
  let high := b.highEnd * num * down
  let reads (d : Nat) : Bool :=
    if b.significand % 2 = 0 then low ≤ d * unit && d * unit ≤ high
    else low < d * unit && d * unit < high
  let below := value / unit
  let distBelow := value - below * unit
  let distAbove := (below + 1) * unit - value
  let belowFirst := distBelow < distAbove || (distBelow == distAbove && below % 2 == 0)
  if belowFirst && reads below then some ⟨below, place⟩
  else if reads (below + 1) then some ⟨below + 1, place⟩
  else if reads below then some ⟨below, place⟩
  else none

/-- The exponent of the leading digit of a positive number. -/
def leadingExponent (b : Binary) : Int :=
  let (num, den) := powTwo b.exponent
  ((Nat.toDigits 10 (b.significand * num * Nat.pow 10 400 / den)).length : Int) - 401

/-- The shortest decimal that reads back as a positive number: seventeen digits
are always enough. -/
def shortest (b : Binary) : Scaled :=
  let lead := leadingExponent b
  ((List.range 17).findSome? fun (n : Nat) => onGrid b (lead - n)).getD ⟨b.significand, 0⟩

/-- The decimal without zeros at the end of its digits. -/
def strip (d : Scaled) : Scaled :=
  let digits := Nat.toDigits 10 d.digits
  let zeros := (digits.reverse.takeWhile (· == '0')).length
  ⟨d.digits / Nat.pow 10 zeros, d.exponent + zeros⟩

/-- Positional notation, always with a point and a digit behind it. -/
def positional (d : Scaled) : List Char :=
  let digits := Nat.toDigits 10 d.digits
  if 0 ≤ d.exponent then digits ++ List.replicate d.exponent.toNat '0' ++ ['.', '0']
  else
    let behind := (-d.exponent).toNat
    if behind < digits.length then
      digits.take (digits.length - behind) ++ '.' :: digits.drop (digits.length - behind)
    else '0' :: '.' :: (List.replicate (behind - digits.length) '0' ++ digits)

/-- Scientific notation: one digit before the point, an exponent with a sign and
at least two digits. -/
def scientific (d : Scaled) : List Char :=
  let digits := Nat.toDigits 10 d.digits
  let exponent := d.exponent + digits.length - 1
  let exponentDigits := Nat.toDigits 10 exponent.natAbs
  let fraction := if digits.length ≤ 1 then [] else '.' :: digits.drop 1
  digits.take 1 ++ fraction ++ ['e', if exponent < 0 then '-' else '+'] ++
    List.replicate (2 - exponentDigits.length) '0' ++ exponentDigits

/-- How numbers are written: the exponents of the leading digit for which
notation is positional. -/
structure Style where
  least : Int
  greatest : Int

/-- Numbers in messages about JSON: scientific when they are long. -/
def Style.short : Style :=
  ⟨-5, 15⟩

/-- Numbers in messages about configuration files: never scientific. -/
def Style.long : Style :=
  ⟨-400, 400⟩

def render (style : Style) (x : Float) : String :=
  if x.isNaN then "NaN"
  else
    let sign := if x.toBits.toNat ≥ Nat.pow 2 63 then "-" else ""
    if x.isInf then sign ++ "inf"
    else
      let b := Binary.ofBits (x.toBits.toNat % Nat.pow 2 63)
      if b.significand = 0 then sign ++ "0.0"
      else
        let d := strip (shortest b)
        let lead := d.exponent + (Nat.toDigits 10 d.digits).length - 1
        let positionally := style.least ≤ lead && lead ≤ style.greatest
        sign ++ String.ofList (if positionally then positional d else scientific d)

end ModuleOutputs.Decimal
