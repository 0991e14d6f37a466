/-!
UTF-8 as a list of pieces. Any byte list splits into characters and stray runs,
where a stray run is one longest start of an encoding that its next byte does
not continue. Lossy decoding writes U+FFFD for a stray run, strict decoding
refuses it.
-/

namespace ModuleOutputs.Text

/-- A file content, a file name or a message body before it is read as text. -/
abbrev Bytes := List UInt8

/-- The UTF-8 encoding of a list of characters. -/
def encode (cs : List Char) : Bytes :=
  cs.flatMap String.utf8EncodeChar

def utf8 (s : String) : Bytes :=
  encode s.toList

/-- One step of reading bytes as text. -/
inductive Piece where
  /-- A well-formed encoding of a character. -/
  | char (c : Char)
  /-- Bytes that begin an encoding, or can begin none, and end before it is complete. -/
  | stray (bytes : Bytes)
deriving Repr, DecidableEq

namespace Piece

def bytes : Piece → Bytes
  | .char c => String.utf8EncodeChar c
  | .stray bs => bs

/-- The character shown for a piece when damage is replaced. -/
def shown : Piece → Char
  | .char c => c
  | .stray _ => '\uFFFD'

/-- The character of a piece, if it is well formed. -/
def char? : Piece → Option Char
  | .char c => some c
  | .stray _ => none

end Piece

/-- An encoding that has begun: the bytes seen, the value they spell, how many
are missing, and the range in which the next one must lie. -/
structure Pending where
  seen : Bytes
  value : Nat
  missing : Nat
  low : Nat
  high : Nat

/-- What the first byte of an encoding announces: a complete piece, or more bytes. -/
def begin (b : UInt8) : Piece ⊕ Pending :=
  let n := b.toNat
  if n < 0x80 then .inl (.char (Char.ofNat n))
  else if n < 0xC2 then .inl (.stray [b])
  else if n < 0xE0 then .inr ⟨[b], n - 0xC0, 1, 0x80, 0xBF⟩
  else if n < 0xF0 then
    .inr ⟨[b], n - 0xE0, 2, if n = 0xE0 then 0xA0 else 0x80, if n = 0xED then 0x9F else 0xBF⟩
  else if n < 0xF5 then
    .inr ⟨[b], n - 0xF0, 3, if n = 0xF0 then 0x90 else 0x80, if n = 0xF4 then 0x8F else 0xBF⟩
  else .inl (.stray [b])

namespace Pending

/-- Whether a byte continues the encoding. -/
def accepts (p : Pending) (b : UInt8) : Bool :=
  p.low ≤ b.toNat && b.toNat ≤ p.high

/-- The value spelled once `b` is added. -/
def extend (p : Pending) (b : UInt8) : Nat :=
  p.value * 64 + (b.toNat - 0x80)

/-- The encoding with one more byte seen. -/
def push (p : Pending) (b : UInt8) : Pending :=
  ⟨p.seen ++ [b], p.extend b, p.missing - 1, 0x80, 0xBF⟩

end Pending

/-- Splits bytes into pieces, going on from an encoding that may have begun. -/
def piecesFrom : Option Pending → Bytes → List Piece
  | none, [] => []
  | some p, [] => [.stray p.seen]
  | none, b :: rest =>
    match begin b with
    | .inl piece => piece :: piecesFrom none rest
    | .inr p => piecesFrom (some p) rest
  | some p, b :: rest =>
    if p.accepts b then
      if p.missing ≤ 1 then .char (Char.ofNat (p.extend b)) :: piecesFrom none rest
      else piecesFrom (some (p.push b)) rest
    else
      .stray p.seen ::
        match begin b with
        | .inl piece => piece :: piecesFrom none rest
        | .inr q => piecesFrom (some q) rest

/-- The pieces of a byte list, in order. -/
def pieces (bs : Bytes) : List Piece :=
  piecesFrom none bs

def piecesOf (s : String) : List Piece :=
  s.toList.map .char

/-- Reads bytes as text, with U+FFFD for every stray run. -/
def lossy (bs : Bytes) : String :=
  String.ofList ((pieces bs).map Piece.shown)

/-- Reads bytes as text, if they are the encoding of one. -/
def strict (bs : Bytes) : Option String :=
  ((pieces bs).mapM Piece.char?).map String.ofList

end ModuleOutputs.Text
