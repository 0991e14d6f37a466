import Mathlib.Data.List.DropRight
import ModuleOutputs.Json.Lexeme

/-!
JSON as a grammar. A relation says that pieces begin with a phrase of some kind, and what
follows the phrase. White space may stand between words and nowhere else. A value is kept
as it is written, apart from white space and from how the characters of a string are
escaped: a number as its word, a string as its code units.
-/

namespace ModuleOutputs.Json

open Text (Piece)

/-! ## Strings -/

/-- The code units that a string stands for. A damaged encoding counts as one that is none. -/
abbrev Units := List (Option Nat)

/-- The code units of a character: one, or a pair beyond U+FFFF. -/
def unitsOf (c : Char) : Units :=
  if c.toNat < 0x10000 then [some c.toNat]
  else [some (0xD800 + (c.toNat - 0x10000) / 0x400), some (0xDC00 + (c.toNat - 0x10000) % 0x400)]

/-- The characters that code units spell, where none stands for half a character or for
nothing. -/
def Units.chars? : Units → Option (List Char)
  | [] => some []
  | none :: _ => none
  | some n :: rest =>
    if isTrailing n then none
    else if isLeading n then
      match rest with
      | some m :: rest => if isTrailing m then (chars? rest).map (pairChar n m :: ·) else none
      | _ => none
    else (chars? rest).map (Char.ofNat n :: ·)

def Units.text? (us : Units) : Option String :=
  us.chars?.map String.ofList

/-- The rest of a string after its opening quote, with its closing quote. -/
inductive SpellsString : Units → List Piece → List Piece → Prop
  | close {rest : List Piece} : SpellsString [] (.char '"' :: rest) rest
  | plain {c : Char} {us : Units} {ps rest : List Piece} (noQuote : c ≠ '"')
      (noEscape : c ≠ '\\') (noControl : isControl c = false) (next : SpellsString us ps rest) :
      SpellsString (unitsOf c ++ us) (.char c :: ps) rest
  | stray {bytes : Text.Bytes} {us : Units} {ps rest : List Piece}
      (next : SpellsString us ps rest) : SpellsString (none :: us) (.stray bytes :: ps) rest
  | short {c d : Char} {us : Units} {ps rest : List Piece} (escape : shortEscape? c = some d)
      (next : SpellsString us ps rest) :
      SpellsString (unitsOf d ++ us) (.char '\\' :: .char c :: ps) rest
  /-- Four hexadecimal digits, of either case. -/
  | code {digits : List Piece} {n : Nat} {us : Units} {ps ps' rest : List Piece}
      (four : digits.length = 4) (value : hexDigits? digits = some n) (split : ps = digits ++ ps')
      (next : SpellsString us ps' rest) :
      SpellsString (some n :: us) (.char '\\' :: .char 'u' :: ps) rest

/-! ## Numbers -/

/-- One digit or more. -/
def IsDigits (word : List Piece) : Prop :=
  word ≠ [] ∧ ∀ p ∈ word, isDigit p = true

/-- The digits before the point: a zero stands alone. -/
inductive IsWhole : List Piece → Prop
  | zero : IsWhole [.char '0']
  | more {p : Piece} {ps : List Piece} (digits : IsDigits (p :: ps)) (noZero : p ≠ .char '0') :
      IsWhole (p :: ps)

inductive IsFraction : List Piece → Prop
  | none : IsFraction []
  | some {word : List Piece} (digits : IsDigits word) : IsFraction (.char '.' :: word)

inductive IsExponent : List Piece → Prop
  | none : IsExponent []
  | some {e : Char} {sign word : List Piece} (letter : e = 'e' ∨ e = 'E')
      (isSign : sign = [] ∨ sign = [.char '+'] ∨ sign = [.char '-']) (digits : IsDigits word) :
      IsExponent (.char e :: (sign ++ word))

/-- A number, of any size. -/
inductive IsNumber : List Piece → Prop
  | mk {sign whole fraction exponent : List Piece} (isSign : sign = [] ∨ sign = [.char '-'])
      (isWhole : IsWhole whole) (isFraction : IsFraction fraction)
      (isExponent : IsExponent exponent) : IsNumber (sign ++ (whole ++ (fraction ++ exponent)))

/-! ## Values -/

/-- A value. -/
inductive Value where
  | null
  | flag (value : Bool)
  | number (word : List Piece)
  | text (units : Units)
  | list (items : List Value)
  | object (members : List (Units × Value))

/-- What a text is made of: values, members, and the items of a list or the members of an
object up to its end, of which there is at least one. -/
inductive Phrase where
  | value (v : Value)
  | member (us : Units) (v : Value)
  | items (vs : List Value)
  | members (ms : List (Units × Value))

/-- The pieces of a phrase, and those that follow it. -/
inductive Spells : Phrase → List Piece → List Piece → Prop
  | null {rest : List Piece} :
      Spells (.value .null) (.char 'n' :: .char 'u' :: .char 'l' :: .char 'l' :: rest) rest
  | yes {rest : List Piece} :
      Spells (.value (.flag true)) (.char 't' :: .char 'r' :: .char 'u' :: .char 'e' :: rest) rest
  | no {rest : List Piece} :
      Spells (.value (.flag false))
        (.char 'f' :: .char 'a' :: .char 'l' :: .char 's' :: .char 'e' :: rest) rest
  | number {word ps rest : List Piece} (isNumber : IsNumber word) (split : ps = word ++ rest) :
      Spells (.value (.number word)) ps rest
  | text {us : Units} {ps rest : List Piece} (string : SpellsString us ps rest) :
      Spells (.value (.text us)) (.char '"' :: ps) rest
  | emptyList {ps rest : List Piece} (close : skipSpace ps = .char ']' :: rest) :
      Spells (.value (.list [])) (.char '[' :: ps) rest
  | list {vs : List Value} {ps rest : List Piece} (items : Spells (.items vs) ps rest) :
      Spells (.value (.list vs)) (.char '[' :: ps) rest
  | emptyObject {ps rest : List Piece} (close : skipSpace ps = .char '\x7d' :: rest) :
      Spells (.value (.object [])) (.char '\x7b' :: ps) rest
  | object {ms : List (Units × Value)} {ps rest : List Piece}
      (members : Spells (.members ms) ps rest) :
      Spells (.value (.object ms)) (.char '\x7b' :: ps) rest
  | lastItem {v : Value} {ps ps' rest : List Piece} (first : Spells (.value v) (skipSpace ps) ps')
      (close : skipSpace ps' = .char ']' :: rest) : Spells (.items [v]) ps rest
  | moreItems {v : Value} {vs : List Value} {ps ps' ps'' rest : List Piece}
      (first : Spells (.value v) (skipSpace ps) ps') (comma : skipSpace ps' = .char ',' :: ps'')
      (next : Spells (.items vs) ps'' rest) : Spells (.items (v :: vs)) ps rest
  | member {us : Units} {v : Value} {ps ps₁ ps₂ ps₃ rest : List Piece}
      (opening : skipSpace ps = .char '"' :: ps₁) (key : SpellsString us ps₁ ps₂)
      (colon : skipSpace ps₂ = .char ':' :: ps₃) (value : Spells (.value v) (skipSpace ps₃) rest) :
      Spells (.member us v) ps rest
  | lastMember {us : Units} {v : Value} {ps ps' rest : List Piece}
      (first : Spells (.member us v) ps ps') (close : skipSpace ps' = .char '\x7d' :: rest) :
      Spells (.members [(us, v)]) ps rest
  | moreMembers {us : Units} {v : Value} {ms : List (Units × Value)} {ps ps' ps'' rest : List Piece}
      (first : Spells (.member us v) ps ps') (comma : skipSpace ps' = .char ',' :: ps'')
      (next : Spells (.members ms) ps'' rest) : Spells (.members ((us, v) :: ms)) ps rest

/-- A text that is one value, with nothing but white space around it. -/
def IsDocument (v : Value) (ps : List Piece) : Prop :=
  ∃ rest, Spells (.value v) (skipSpace ps) rest ∧ skipSpace rest = []

/-! ## White space -/

variable {ps rest : List Piece}

theorem length_skipSpace_le (ps : List Piece) : (skipSpace ps).length ≤ ps.length :=
  (List.dropWhile_sublist _).length_le

theorem length_of_skipSpace {p : Piece} (h : skipSpace ps = p :: rest) :
    rest.length < ps.length := by
  have hlength := length_skipSpace_le ps
  rwa [h, List.length_cons] at hlength

@[simp] theorem skipSpace_idem (ps : List Piece) : skipSpace (skipSpace ps) = skipSpace ps :=
  List.dropWhile_idempotent isSpace ps

theorem skipSpace_of_notSpace {p : Piece} (h : isSpace p = false) :
    skipSpace (p :: ps) = p :: ps :=
  List.dropWhile_cons_of_neg (by simp [h])

/-- Whether a number can end where these pieces follow: what comes next is white space or
goes on in a list or an object, if anything comes next at all. -/
def IsEnd (ps : List Piece) : Prop :=
  ∀ p ∈ ps.head?, isSpace p = true ∨ p ∈ [Piece.char ',', .char ']', .char '\x7d']

theorem isEnd_of_skipSpace (h : IsEnd (skipSpace ps)) : IsEnd ps := by
  cases ps with
  | nil => exact h
  | cons p ps =>
      rintro _ ⟨⟩
      by_cases hp : isSpace p = true
      · exact .inl hp
      · rw [skipSpace_of_notSpace (by simpa using hp)] at h
        exact h p rfl

theorem isEnd_nil : IsEnd [] := nofun

theorem isEnd_of_next {p : Piece} (h : skipSpace ps = p :: rest)
    (hp : p ∈ [Piece.char ',', .char ']', .char '\x7d']) : IsEnd ps := by
  refine isEnd_of_skipSpace ?_
  rw [h]
  rintro _ ⟨⟩
  exact .inr hp

/-! ## Lengths -/

theorem SpellsString.length_lt {us : Units} (h : SpellsString us ps rest) :
    rest.length < ps.length := by
  induction h with
  | close => exact Nat.lt_succ_self _
  | plain _ _ _ _ ih | stray _ ih => exact Nat.lt_succ_of_lt ih
  | short _ _ ih => exact Nat.lt_succ_of_lt (Nat.lt_succ_of_lt ih)
  | code _ _ split _ ih =>
      rw [split, List.length_cons, List.length_cons, List.length_append]
      omega

/-- Characters that need no escape stand for themselves. -/
theorem SpellsString.append_plain {us : Units} (cs : List Char)
    (plain : ∀ c ∈ cs, c ≠ '"' ∧ c ≠ '\\' ∧ isControl c = false) (next : SpellsString us ps rest) :
    SpellsString (cs.flatMap unitsOf ++ us) (cs.map .char ++ ps) rest := by
  induction cs with
  | nil => exact next
  | cons c cs ih =>
      obtain ⟨⟨noQuote, noEscape, noControl⟩, hothers⟩ := List.forall_mem_cons.mp plain
      rw [List.flatMap_cons, List.append_assoc]
      exact .plain noQuote noEscape noControl (ih hothers)

theorem IsNumber.exists_cons {word : List Piece} (h : IsNumber word) :
    ∃ p ps, word = p :: ps ∧ (isDigit p = true ∨ p = .char '-') := by
  obtain ⟨isSign, isWhole, -, -⟩ := h
  rcases isSign with rfl | rfl
  · cases isWhole with
    | zero => exact ⟨_, _, rfl, .inl rfl⟩
    | more digits => exact ⟨_, _, rfl, .inl (digits.2 _ List.mem_cons_self)⟩
  · exact ⟨_, _, rfl, .inr rfl⟩

theorem Spells.length_lt {phrase : Phrase} (h : Spells phrase ps rest) :
    rest.length < ps.length := by
  induction h with
  | null | yes | no => simp only [List.length_cons]; omega
  | number isNumber split =>
      obtain ⟨p, ps, rfl, -⟩ := isNumber.exists_cons
      rw [split, List.length_append, List.length_cons]
      omega
  | text string => exact Nat.lt_succ_of_lt string.length_lt
  | emptyList close | emptyObject close => exact Nat.lt_succ_of_lt (length_of_skipSpace close)
  | list _ ih | object _ ih => exact Nat.lt_succ_of_lt ih
  | @lastItem v ps ps' rest _ close ih =>
      have := length_of_skipSpace close
      have := length_skipSpace_le ps
      omega
  | @moreItems v vs ps ps' ps'' rest _ comma _ ih ih' =>
      have := length_of_skipSpace comma
      have := length_skipSpace_le ps
      omega
  | @member us v ps ps₁ ps₂ ps₃ rest opening key colon _ ih =>
      have := length_of_skipSpace opening
      have := key.length_lt
      have := length_of_skipSpace colon
      have := length_skipSpace_le ps₃
      omega
  | lastMember _ close ih =>
      have := length_of_skipSpace close
      omega
  | moreMembers _ comma _ ih ih' =>
      have := length_of_skipSpace comma
      omega

end ModuleOutputs.Json
