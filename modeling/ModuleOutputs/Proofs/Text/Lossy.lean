import ModuleOutputs.Text.Utf8

/-!
Reading bytes as text, with a sign for what is damaged. What encodes a text is read as that text.
A byte of ASCII is never part of an encoding that has begun, so it is read as its own character
and what comes before it cannot change how the rest is read.
-/

namespace ModuleOutputs.Text

/-- Whether bytes begin with a character of ASCII, if they begin with anything. -/
def BeginsAscii (bs : Bytes) : Prop :=
  ∀ b ∈ bs.head?, b.toNat < 0x80

instance (bs : Bytes) : Decidable (BeginsAscii bs) :=
  inferInstanceAs (Decidable (∀ b ∈ bs.head?, b.toNat < 0x80))

/-- The characters of ASCII among others, in order. -/
def asciiIn (cs : List Char) : List Char :=
  cs.filter fun c => c.toNat < 0x80

/-- The bytes of ASCII among others, in order, as characters. -/
def asciiOf (bs : Bytes) : List Char :=
  (bs.filter fun b => b.toNat < 0x80).map fun b => Char.ofNat b.toNat

/-! ## Encodings that have begun -/

namespace Pending

/-- Whether an encoding that has begun can only become that of a character beyond ASCII. -/
inductive IsSound : Pending → Prop
  | last {p : Pending} (missing : p.missing ≤ 1) (low : 0x80 ≤ p.low)
      (spells : ∀ b, p.accepts b = true → 0x80 ≤ p.extend b ∧ (p.extend b).isValidChar) : IsSound p
  | more {p : Pending} (missing : 1 < p.missing) (low : 0x80 ≤ p.low)
      (next : ∀ b, p.accepts b = true → IsSound (p.push b)) : IsSound p

variable {p : Pending} {b : UInt8}

theorem accepts_iff : p.accepts b = true ↔ p.low ≤ b.toNat ∧ b.toNat ≤ p.high := by
  simp [accepts]

theorem IsSound.low_le (h : p.IsSound) : 0x80 ≤ p.low := by
  cases h <;> assumption

/-- No byte of ASCII goes on with an encoding. -/
theorem IsSound.accepts_eq_false (h : p.IsSound) (hb : b.toNat < 0x80) : p.accepts b = false := by
  have hlow := h.low_le
  rw [Bool.eq_false_iff, ne_eq, accepts_iff]
  omega

end Pending

/-- An encoding of two bytes. -/
theorem isSound_two {seen : Bytes} {n : Nat} (hn : 0xC2 ≤ n ∧ n < 0xE0) :
    Pending.IsSound ⟨seen, n - 0xC0, 1, 0x80, 0xBF⟩ := by
  refine .last (by simp) (by simp) ?_
  intro b hb
  rw [Pending.accepts_iff] at hb
  unfold Pending.extend Nat.isValidChar
  dsimp only at hb ⊢
  omega

/-- An encoding of three bytes, which is not too long and spells no half of a pair. -/
theorem isSound_three {seen : Bytes} {n : Nat} (hn : 0xE0 ≤ n ∧ n < 0xF0) :
    Pending.IsSound ⟨seen, n - 0xE0, 2, if n = 0xE0 then 0xA0 else 0x80,
      if n = 0xED then 0x9F else 0xBF⟩ := by
  refine .more (by simp) (by dsimp only; split <;> omega) fun b₂ hb₂ => ?_
  refine .last (by simp [Pending.push]) (by simp [Pending.push]) fun b₃ hb₃ => ?_
  rw [Pending.accepts_iff] at hb₂ hb₃
  unfold Pending.extend Nat.isValidChar
  dsimp only [Pending.push, Pending.extend] at hb₂ hb₃ ⊢
  split at hb₂ <;> split at hb₂ <;> omega

/-- An encoding of four bytes, which is not too long and spells nothing out of range. -/
theorem isSound_four {seen : Bytes} {n : Nat} (hn : 0xF0 ≤ n ∧ n < 0xF5) :
    Pending.IsSound ⟨seen, n - 0xF0, 3, if n = 0xF0 then 0x90 else 0x80,
      if n = 0xF4 then 0x8F else 0xBF⟩ := by
  refine .more (by simp) (by dsimp only; split <;> omega) fun b₂ hb₂ => ?_
  refine .more (by simp [Pending.push]) (by simp [Pending.push]) fun b₃ hb₃ => ?_
  refine .last (by simp [Pending.push]) (by simp [Pending.push]) fun b₄ hb₄ => ?_
  rw [Pending.accepts_iff] at hb₂ hb₃ hb₄
  unfold Pending.extend Nat.isValidChar
  dsimp only [Pending.push, Pending.extend] at hb₂ hb₃ hb₄ ⊢
  split at hb₂ <;> split at hb₂ <;> omega

/-! ## First bytes -/

section

variable {b : UInt8}

theorem begin_one (h : b.toNat < 0x80) : begin b = .inl (.char (Char.ofNat b.toNat)) :=
  if_pos h

theorem begin_two (h : 0xC2 ≤ b.toNat ∧ b.toNat < 0xE0) :
    begin b = .inr ⟨[b], b.toNat - 0xC0, 1, 0x80, 0xBF⟩ := by
  unfold begin
  dsimp only
  rw [if_neg (by omega), if_neg (by omega), if_pos (by omega)]

theorem begin_three (h : 0xE0 ≤ b.toNat ∧ b.toNat < 0xF0) :
    begin b = .inr ⟨[b], b.toNat - 0xE0, 2, if b.toNat = 0xE0 then 0xA0 else 0x80,
      if b.toNat = 0xED then 0x9F else 0xBF⟩ := by
  unfold begin
  dsimp only
  rw [if_neg (by omega), if_neg (by omega), if_neg (by omega), if_pos (by omega)]

theorem begin_four (h : 0xF0 ≤ b.toNat ∧ b.toNat < 0xF5) :
    begin b = .inr ⟨[b], b.toNat - 0xF0, 3, if b.toNat = 0xF0 then 0x90 else 0x80,
      if b.toNat = 0xF4 then 0x8F else 0xBF⟩ := by
  unfold begin
  dsimp only
  rw [if_neg (by omega), if_neg (by omega), if_neg (by omega), if_neg (by omega),
    if_pos (by omega)]

theorem begin_stray (h : 0x80 ≤ b.toNat ∧ b.toNat < 0xC2 ∨ 0xF5 ≤ b.toNat) :
    begin b = .inl (.stray [b]) := by
  unfold begin
  dsimp only
  obtain h | h := h
  · rw [if_neg (by omega), if_pos (by omega)]
  · rw [if_neg (by omega), if_neg (by omega), if_neg (by omega), if_neg (by omega),
      if_neg (by omega)]

/-- A byte of ASCII is a character. Any other is stray, or begins an encoding. -/
theorem begin_cases (b : UInt8) :
    b.toNat < 0x80 ∧ begin b = .inl (.char (Char.ofNat b.toNat)) ∨
      0x80 ≤ b.toNat ∧
        (begin b = .inl (.stray [b]) ∨ ∃ p, begin b = .inr p ∧ p.IsSound) := by
  by_cases hone : b.toNat < 0x80
  · exact .inl ⟨hone, begin_one hone⟩
  refine .inr ⟨by omega, ?_⟩
  by_cases htwo : 0xC2 ≤ b.toNat ∧ b.toNat < 0xE0
  · exact .inr ⟨_, begin_two htwo, isSound_two htwo⟩
  by_cases hthree : 0xE0 ≤ b.toNat ∧ b.toNat < 0xF0
  · exact .inr ⟨_, begin_three hthree, isSound_three hthree⟩
  by_cases hfour : 0xF0 ≤ b.toNat ∧ b.toNat < 0xF5
  · exact .inr ⟨_, begin_four hfour, isSound_four hfour⟩
  · exact .inl (begin_stray (by omega))

end

/-! ## One byte more -/

section

variable {p : Pending} {b : UInt8} {rest : Bytes}

theorem piecesFrom_complete (haccepts : p.accepts b = true) (hmissing : p.missing ≤ 1) :
    piecesFrom (some p) (b :: rest) = .char (Char.ofNat (p.extend b)) :: piecesFrom none rest := by
  rw [piecesFrom, if_pos haccepts, if_pos hmissing]

theorem piecesFrom_push (haccepts : p.accepts b = true) (hmissing : 1 < p.missing) :
    piecesFrom (some p) (b :: rest) = piecesFrom (some (p.push b)) rest := by
  rw [piecesFrom, if_pos haccepts, if_neg (by omega)]

/-- An encoding that does not go on is stray, and the byte behind it may begin another one. -/
theorem piecesFrom_stray (haccepts : p.accepts b = false) :
    piecesFrom (some p) (b :: rest) = .stray p.seen :: piecesFrom none (b :: rest) := by
  simp only [piecesFrom, haccepts, Bool.false_eq_true, if_false]

theorem piecesFrom_begin_inl {piece : Piece} (h : begin b = .inl piece) :
    piecesFrom none (b :: rest) = piece :: piecesFrom none rest := by
  rw [piecesFrom, h]

theorem piecesFrom_begin_inr (h : begin b = .inr p) :
    piecesFrom none (b :: rest) = piecesFrom (some p) rest := by
  rw [piecesFrom, h]

end

/-! ## Bytes in two parts -/

/-- What stands before a byte of ASCII and what follows from it on are read apart, whether an
encoding has begun or not. -/
theorem piecesFrom_append {front back : Bytes} (hback : BeginsAscii back) :
    piecesFrom none (front ++ back) = piecesFrom none front ++ piecesFrom none back ∧
      ∀ p : Pending, p.IsSound → piecesFrom (some p) (front ++ back) =
        piecesFrom (some p) front ++ piecesFrom none back := by
  -- Both states go through one induction: an encoding that ends or breaks off leaves none begun.
  induction front with
  | nil =>
      -- What has begun is stray at the end of the bytes as well as before a byte of ASCII.
      refine ⟨rfl, fun p hp => ?_⟩
      cases back with
      | nil => rfl
      | cons b back => exact piecesFrom_stray (hp.accepts_eq_false (hback b rfl))
  | cons b front ih =>
      rw [List.cons_append]
      have hbegins : piecesFrom none (b :: (front ++ back)) =
          piecesFrom none (b :: front) ++ piecesFrom none back := by
        obtain ⟨-, hchar⟩ | ⟨-, hstray | ⟨p, hpending, hp⟩⟩ := begin_cases b
        · rw [piecesFrom_begin_inl hchar, piecesFrom_begin_inl hchar, ih.1, List.cons_append]
        · rw [piecesFrom_begin_inl hstray, piecesFrom_begin_inl hstray, ih.1, List.cons_append]
        · rw [piecesFrom_begin_inr hpending, piecesFrom_begin_inr hpending, ih.2 p hp]
      refine ⟨hbegins, fun p hp => ?_⟩
      cases haccepts : p.accepts b with
      | false =>
          rw [piecesFrom_stray haccepts, piecesFrom_stray haccepts, hbegins, List.cons_append]
      | true =>
          cases hp with
          | last hmissing =>
              rw [piecesFrom_complete haccepts hmissing, piecesFrom_complete haccepts hmissing,
                ih.1, List.cons_append]
          | more hmissing _ next =>
              rw [piecesFrom_push haccepts hmissing, piecesFrom_push haccepts hmissing,
                ih.2 _ (next b haccepts)]

/-- What is damaged in front of a byte of ASCII does not touch what follows. -/
theorem lossy_append {front back : Bytes} (hback : BeginsAscii back) :
    lossy (front ++ back) = lossy front ++ lossy back := by
  rw [lossy, pieces, (piecesFrom_append hback).1, List.map_append, String.ofList_append]
  rfl

/-! ## Characters of ASCII -/

section

variable {c : Char} {cs : List Char} {b : UInt8} {bs : Bytes}

theorem asciiIn_cons_of_lt (h : c.toNat < 0x80) : asciiIn (c :: cs) = c :: asciiIn cs :=
  List.filter_cons_of_pos (by simpa using h)

theorem asciiIn_cons_of_le (h : 0x80 ≤ c.toNat) : asciiIn (c :: cs) = asciiIn cs :=
  List.filter_cons_of_neg (by simpa using h)

theorem asciiOf_cons_of_lt (h : b.toNat < 0x80) :
    asciiOf (b :: bs) = Char.ofNat b.toNat :: asciiOf bs := by
  rw [asciiOf, List.filter_cons_of_pos (by simpa using h), List.map_cons]
  rfl

theorem asciiOf_cons_of_le (h : 0x80 ≤ b.toNat) : asciiOf (b :: bs) = asciiOf bs := by
  rw [asciiOf, List.filter_cons_of_neg (by simpa using h)]
  rfl

/-- The sign for damage is no character of ASCII. -/
theorem asciiIn_stray (seen : Bytes) :
    asciiIn ((Piece.stray seen).shown :: cs) = asciiIn cs :=
  asciiIn_cons_of_le (by simp [Piece.shown])

theorem toNat_ofNat_of_isValidChar {n : Nat} (h : n.isValidChar) : (Char.ofNat n).toNat = n := by
  rw [Char.ofNat, dif_pos h]
  rfl

theorem Pending.IsSound.le_of_accepts {p : Pending} (h : p.IsSound)
    (haccepts : p.accepts b = true) : 0x80 ≤ b.toNat :=
  Nat.le_trans h.low_le (Pending.accepts_iff.mp haccepts).1

end

/-- Every byte of ASCII is read as its own character, and nothing else is read as one, whether an
encoding has begun or not. -/
theorem asciiIn_piecesFrom (bs : Bytes) :
    asciiIn ((piecesFrom none bs).map Piece.shown) = asciiOf bs ∧
      ∀ p : Pending, p.IsSound →
        asciiIn ((piecesFrom (some p) bs).map Piece.shown) = asciiOf bs := by
  induction bs with
  | nil => exact ⟨rfl, fun p _ => asciiIn_stray p.seen⟩
  | cons b bs ih =>
      have hbegins : asciiIn ((piecesFrom none (b :: bs)).map Piece.shown) = asciiOf (b :: bs) := by
        obtain ⟨hb, hchar⟩ | ⟨hb, hstray | ⟨p, hpending, hp⟩⟩ := begin_cases b
        · have hvalid : b.toNat.isValidChar := .inl (by omega)
          rw [piecesFrom_begin_inl hchar, List.map_cons, Piece.shown, asciiIn_cons_of_lt, ih.1,
            asciiOf_cons_of_lt hb]
          rwa [toNat_ofNat_of_isValidChar hvalid]
        · rw [piecesFrom_begin_inl hstray, List.map_cons, asciiIn_stray, ih.1,
            asciiOf_cons_of_le hb]
        · rw [piecesFrom_begin_inr hpending, ih.2 p hp, asciiOf_cons_of_le hb]
      refine ⟨hbegins, fun p hp => ?_⟩
      cases haccepts : p.accepts b with
      | false => rw [piecesFrom_stray haccepts, List.map_cons, asciiIn_stray, hbegins]
      | true =>
          rw [asciiOf_cons_of_le (hp.le_of_accepts haccepts)]
          cases hp with
          | last hmissing _ spells =>
              obtain ⟨hbeyond, hvalid⟩ := spells b haccepts
              rw [piecesFrom_complete haccepts hmissing, List.map_cons, Piece.shown,
                asciiIn_cons_of_le, ih.1]
              rwa [toNat_ofNat_of_isValidChar hvalid]
          | more hmissing _ next =>
              rw [piecesFrom_push haccepts hmissing, ih.2 _ (next b haccepts)]

theorem asciiIn_lossy (bs : Bytes) : asciiIn (lossy bs).toList = asciiOf bs := by
  rw [lossy, String.toList_ofList]
  exact (asciiIn_piecesFrom bs).1

/-! ## Encodings of texts -/

section

variable {b b₂ b₃ b₄ : UInt8} {n : Nat} {rest : Bytes}

theorem piecesFrom_two (hn : 0x80 ≤ n ∧ n < 0x800) (hb : b.toNat = n / 64 + 0xC0)
    (hb₂ : b₂.toNat = n % 64 + 0x80) :
    piecesFrom none (b :: b₂ :: rest) = .char (Char.ofNat n) :: piecesFrom none rest := by
  rw [piecesFrom_begin_inr (begin_two (by omega)), piecesFrom_complete _ (by simp)]
  · have hvalue : (b.toNat - 0xC0) * 64 + (b₂.toNat - 0x80) = n := by omega
    unfold Pending.extend
    dsimp only
    rw [hvalue]
  · rw [Pending.accepts_iff]
    dsimp only
    omega

theorem piecesFrom_three (hn : 0x800 ≤ n ∧ n < 0x10000) (hvalid : n < 0xD800 ∨ 0xDFFF < n)
    (hb : b.toNat = n / 4096 + 0xE0) (hb₂ : b₂.toNat = n / 64 % 64 + 0x80)
    (hb₃ : b₃.toNat = n % 64 + 0x80) :
    piecesFrom none (b :: b₂ :: b₃ :: rest) = .char (Char.ofNat n) :: piecesFrom none rest := by
  rw [piecesFrom_begin_inr (begin_three (by omega)), piecesFrom_push _ (by simp),
    piecesFrom_complete _ (by simp [Pending.push])]
  · have hvalue : ((b.toNat - 0xE0) * 64 + (b₂.toNat - 0x80)) * 64 + (b₃.toNat - 0x80) = n := by
      omega
    unfold Pending.push Pending.extend
    dsimp only
    rw [hvalue]
  · rw [Pending.accepts_iff]
    dsimp only [Pending.push]
    omega
  · rw [Pending.accepts_iff]
    dsimp only
    split <;> split <;> omega

theorem piecesFrom_four (hn : 0x10000 ≤ n ∧ n < 0x110000) (hb : b.toNat = n / 262144 + 0xF0)
    (hb₂ : b₂.toNat = n / 4096 % 64 + 0x80) (hb₃ : b₃.toNat = n / 64 % 64 + 0x80)
    (hb₄ : b₄.toNat = n % 64 + 0x80) :
    piecesFrom none (b :: b₂ :: b₃ :: b₄ :: rest) =
      .char (Char.ofNat n) :: piecesFrom none rest := by
  rw [piecesFrom_begin_inr (begin_four (by omega)), piecesFrom_push _ (by simp),
    piecesFrom_push _ (by simp [Pending.push]), piecesFrom_complete _ (by simp [Pending.push])]
  · have hvalue : (((b.toNat - 0xF0) * 64 + (b₂.toNat - 0x80)) * 64 + (b₃.toNat - 0x80)) * 64 +
        (b₄.toNat - 0x80) = n := by
      omega
    unfold Pending.push Pending.extend
    dsimp only
    rw [hvalue]
  · rw [Pending.accepts_iff]
    dsimp only [Pending.push]
    omega
  · rw [Pending.accepts_iff]
    dsimp only [Pending.push]
    omega
  · rw [Pending.accepts_iff]
    dsimp only
    split <;> split <;> omega

end

/-- What encodes a character is read as that character. -/
theorem piecesFrom_encodeChar (c : Char) (rest : Bytes) :
    piecesFrom none (String.utf8EncodeChar c ++ rest) = .char c :: piecesFrom none rest := by
  have hvalid : c.val.toNat < 0xD800 ∨ 0xDFFF < c.val.toNat ∧ c.val.toNat < 0x110000 := c.valid
  have hchar : Char.ofNat c.val.toNat = c := Char.ofNat_toNat c
  unfold String.utf8EncodeChar
  dsimp only
  generalize c.val.toNat = n at hvalid hchar ⊢
  subst hchar
  split
  · have hb : (UInt8.ofNat n).toNat = n := by
      rw [UInt8.toNat_ofNat']
      omega
    rw [List.singleton_append, piecesFrom_begin_inl (begin_one (by omega)), hb]
  split
  · refine piecesFrom_two (n := n) (by omega) ?_ ?_ <;> rw [UInt8.toNat_ofNat'] <;> omega
  split
  · refine piecesFrom_three (n := n) (by omega) (by omega) ?_ ?_ ?_ <;>
      rw [UInt8.toNat_ofNat'] <;> omega
  · refine piecesFrom_four (n := n) (by omega) ?_ ?_ ?_ ?_ <;> rw [UInt8.toNat_ofNat'] <;> omega

/-- What encodes a text is read as that text. -/
theorem lossy_utf8 (s : String) : lossy (utf8 s) = s := by
  have hpieces : ∀ cs : List Char, piecesFrom none (encode cs) = cs.map .char := by
    intro cs
    induction cs with
    | nil => rfl
    | cons c cs ih =>
        rw [encode, List.flatMap_cons, piecesFrom_encodeChar, List.map_cons, ← ih, encode]
  rw [lossy, pieces, utf8, hpieces, List.map_map]
  simp [Function.comp_def, Piece.shown]

end ModuleOutputs.Text
