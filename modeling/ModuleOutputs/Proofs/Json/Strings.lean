import ModuleOutputs.Json.Skip
import ModuleOutputs.Proofs.Json.Grammar

/-!
The readers of literals and strings, against the grammar. What a reader takes is a word of
its kind, and it takes every such word. A string that is read must spell characters; one
that is passed over need not.
-/

namespace ModuleOutputs.Json

open Text (Piece)

variable {ps rest : List Piece} {us : Units} {n : Nat} {fuel : Nat}

/-- How two readers in a row succeed. -/
theorem bind_eq_ok_iff {ε α β : Type} {x : Except ε α} {f : α → Except ε β} {b : β} :
    (x >>= f) = .ok b ↔ ∃ a, x = .ok a ∧ f a = .ok b := by
  cases x with
  | error e => exact ⟨nofun, fun ⟨_, h, _⟩ => nomatch h⟩
  | ok a => exact ⟨fun h => ⟨a, rfl, h⟩, fun ⟨_, rfl, h⟩ => h⟩

theorem map_eq_ok_iff {ε α β : Type} {x : Except ε α} {f : α → β} {b : β} :
    x.map f = .ok b ↔ ∃ a, x = .ok a ∧ f a = b := by
  cases x <;> simp [Except.map]

theorem expectWord_eq_ok_iff {cs : List Char} :
    expectWord cs ps = .ok ((), rest) ↔ ps = cs.map .char ++ rest := by
  induction cs generalizing ps with
  | nil => simp [expectWord, eq_comm]
  | cons c cs ih =>
      cases ps with
      | nil => simp [expectWord]
      | cons p ps =>
          rw [expectWord]
          split
          · next hp => simp [hp, ih]
          · next hp => simp [hp]

/-! ## Escapes by code unit -/

theorem exists_of_hexDigits {digits : List Piece} (h : hexDigits? digits = some n) :
    ∀ p ∈ digits, ∃ c, p = .char c ∧ (hexValue? c).isSome = true := by
  obtain ⟨values, hvalues, -⟩ := Option.map_eq_some_iff.mp h
  clear h
  induction digits generalizing values with
  | nil => nofun
  | cons p digits ih =>
      rw [List.mapM_cons, Option.bind_eq_bind, Option.bind_eq_some_iff] at hvalues
      obtain ⟨d, hd, hrest⟩ := hvalues
      rw [Option.bind_eq_bind, Option.bind_eq_some_iff] at hrest
      obtain ⟨ds, hds, -⟩ := hrest
      refine List.forall_mem_cons.mpr ⟨?_, ih ds hds⟩
      cases p with
      | char c => exact ⟨c, rfl, Option.isSome_iff_exists.mpr ⟨d, hd⟩⟩
      | stray bytes => cases hd

/-- A hexadecimal digit is one byte. -/
theorem length_bytes_of_hexValue {c : Char} (h : (hexValue? c).isSome = true) :
    (Piece.char c).bytes.length = 1 := by
  have hc : c.toNat < 128 := by
    have hle : ∀ {d : Char}, c ≤ d → c.toNat ≤ d.toNat := id
    unfold hexValue? at h
    split at h
    · next hdigit => exact Nat.lt_of_le_of_lt (hle (by simp_all : c ≤ '9')) (by decide)
    split at h
    · next hlower => exact Nat.lt_of_le_of_lt (hle (by simp_all : c ≤ 'f')) (by decide)
    split at h
    · next hupper => exact Nat.lt_of_le_of_lt (hle (by simp_all : c ≤ 'F')) (by decide)
    · cases h
  have hval : c.val ≤ 127 := Nat.le_of_lt_succ hc
  rw [Piece.bytes, String.length_utf8EncodeChar]
  exact if_pos hval

theorem byteCount_hexDigits {digits : List Piece} (h : hexDigits? digits = some n)
    (rest : List Piece) : byteCount (digits ++ rest) = digits.length + byteCount rest := by
  have hdigits := exists_of_hexDigits h
  clear h
  induction digits with
  | nil => simp
  | cons p digits ih =>
      obtain ⟨⟨c, rfl, hc⟩, hrest⟩ := List.forall_mem_cons.mp hdigits
      have hcons : ∀ qs, byteCount (.char c :: qs) = (Piece.char c).bytes.length + byteCount qs :=
        fun qs => by simp [byteCount]
      rw [List.cons_append, hcons, length_bytes_of_hexValue hc, ih hrest, List.length_cons]
      omega

theorem hexEscape_eq_ok_iff :
    hexEscape ps = .ok (n, rest) ↔
      ∃ digits, digits.length = 4 ∧ hexDigits? digits = some n ∧ ps = digits ++ rest := by
  unfold hexEscape
  constructor
  · intro h
    split at h
    · cases h
    next hcount =>
    split at h
    · next m hdigits =>
        cases h
        refine ⟨ps.take 4, ?_, hdigits, (List.take_append_drop 4 ps).symm⟩
        -- Fewer than four digits would be fewer than four bytes.
        by_contra hfour
        rw [List.length_take] at hfour
        have hall : ps.take 4 = ps := List.take_of_length_le (by omega)
        have hbytes := byteCount_hexDigits hdigits []
        rw [List.append_nil, hall] at hbytes
        have hnone : byteCount [] = 0 := rfl
        omega
    · cases h
  · rintro ⟨digits, hfour, hdigits, rfl⟩
    have htake : (digits ++ rest).take 4 = digits := by rw [← hfour, List.take_left]
    have hdrop : (digits ++ rest).drop 4 = rest := by rw [← hfour, List.drop_left]
    rw [if_neg, htake, hdrop, hdigits]
    rw [byteCount_hexDigits hdigits]
    omega

/-- An escape by code unit is one unit that is no half of a pair, or the two halves. -/
theorem unicodeEscape_eq_ok_iff {c : Char} :
    unicodeEscape ps = .ok (c, rest) ↔
      ∃ n tail, hexEscape ps = .ok (n, tail) ∧ isTrailing n = false ∧
        (isLeading n = false ∧ c = Char.ofNat n ∧ tail = rest ∨
          isLeading n = true ∧ ∃ m tail', tail = .char '\\' :: .char 'u' :: tail' ∧
            hexEscape tail' = .ok (m, rest) ∧ isTrailing m = true ∧ c = pairChar n m) := by
  simp only [unicodeEscape, bind_eq_ok_iff, Prod.exists]
  refine exists_congr fun n => exists_congr fun tail => and_congr_right fun _ => ?_
  cases isTrailing n
  case true => exact ⟨nofun, nofun⟩
  cases isLeading n
  case false => 
    rw [if_neg Bool.false_ne_true, if_neg Bool.false_ne_true]
    constructor
    · intro h
      obtain ⟨rfl, rfl⟩ := Prod.mk.inj (Except.ok.inj h)
      exact ⟨rfl, .inl ⟨rfl, rfl, rfl⟩⟩
    · rintro ⟨-, ⟨-, rfl, rfl⟩ | ⟨⟨⟩, -⟩⟩
      rfl
  rw [if_neg Bool.false_ne_true, if_pos rfl]
  constructor
  · intro h
    refine ⟨rfl, .inr ⟨rfl, ?_⟩⟩
    split at h
    · cases h
    · cases h
    · next tail' _ =>
        obtain ⟨⟨m, tail''⟩, hsecond, h⟩ := bind_eq_ok_iff.mp h
        dsimp only at h
        split at h
        · next hm =>
            obtain ⟨rfl, rfl⟩ := Prod.mk.inj (Except.ok.inj h)
            exact ⟨m, tail', rfl, hsecond, hm, rfl⟩
        · cases h
    · cases h
    · cases h
  · rintro ⟨-, ⟨⟨⟩, -⟩ | ⟨-, m, tail', rfl, hsecond, hm, hpair⟩⟩
    rw [hpair]
    exact bind_eq_ok_iff.mpr ⟨_, hsecond, if_pos hm⟩

/-! ## Strings -/

/-- Code units spell a character one at a time, or as the two halves of a pair. -/
theorem Units.chars?_cons_eq_some_iff {cs : List Char} :
    Units.chars? (some n :: us) = some cs ↔
      isTrailing n = false ∧
        ((isLeading n = false ∧ ∃ cs', us.chars? = some cs' ∧ cs = Char.ofNat n :: cs') ∨
          isLeading n = true ∧ ∃ m us' cs', us = some m :: us' ∧ isTrailing m = true ∧
            Units.chars? us' = some cs' ∧ cs = pairChar n m :: cs') := by
  rw [Units.chars?.eq_def]
  dsimp only
  cases isTrailing n
  case true => exact ⟨nofun, nofun⟩
  cases isLeading n
  case false =>
    rw [if_neg Bool.false_ne_true, if_neg Bool.false_ne_true, Option.map_eq_some_iff]
    constructor
    · rintro ⟨cs', hcs', heq⟩
      exact ⟨rfl, .inl ⟨rfl, cs', hcs', heq.symm⟩⟩
    · rintro ⟨-, ⟨-, cs', hcs', heq⟩ | ⟨⟨⟩, -⟩⟩
      exact ⟨cs', hcs', heq.symm⟩
  rw [if_neg Bool.false_ne_true, if_pos rfl]
  constructor
  · intro h
    split at h
    · next m us' =>
        split at h
        · next hm =>
            obtain ⟨cs', hcs', heq⟩ := Option.map_eq_some_iff.mp h
            exact ⟨rfl, .inr ⟨rfl, m, us', cs', rfl, hm, hcs', heq.symm⟩⟩
        · cases h
    · cases h
  · rintro ⟨-, ⟨⟨⟩, -⟩ | ⟨-, m, us', cs', rfl, hm, hcs', heq⟩⟩
    dsimp only
    rw [if_pos hm, hcs', heq, Option.map_some]

theorem isLeading_eq_true_iff : isLeading n = true ↔ 0xD800 ≤ n ∧ n < 0xDC00 := by
  simp [isLeading]

theorem isTrailing_eq_true_iff : isTrailing n = true ↔ 0xDC00 ≤ n ∧ n < 0xE000 := by
  simp [isTrailing]

/-- The code units of a character: one that is no half of a pair, or a pair. -/
theorem unitsOf_cases (c : Char) :
    unitsOf c = [some c.toNat] ∧ isTrailing c.toNat = false ∧ isLeading c.toNat = false ∨
      ∃ high low, unitsOf c = [some high, some low] ∧ isTrailing high = false ∧
        isLeading high = true ∧ isTrailing low = true ∧ pairChar high low = c := by
  have hvalid : c.toNat < 0xD800 ∨ 0xDFFF < c.toNat ∧ c.toNat < 0x110000 := c.valid
  simp only [← Bool.not_eq_true, isLeading_eq_true_iff, isTrailing_eq_true_iff]
  unfold unitsOf
  split
  · exact .inl ⟨rfl, by omega, by omega⟩
  · refine .inr ⟨_, _, rfl, by omega, by omega, by omega, ?_⟩
    generalize hhigh : 0xD800 + (c.toNat - 0x10000) / 0x400 = high
    generalize hlow : 0xDC00 + (c.toNat - 0x10000) % 0x400 = low
    have hvalue : 0x10000 + (high - 0xD800) * 0x400 + (low - 0xDC00) = c.toNat := by omega
    rw [pairChar, hvalue, Char.ofNat_toNat]

/-- A character is what its code units spell. -/
theorem Units.chars?_unitsOf_append {c : Char} {cs : List Char} :
    Units.chars? (unitsOf c ++ us) = some cs ↔ ∃ cs', us.chars? = some cs' ∧ cs = c :: cs' := by
  rcases unitsOf_cases c with
    ⟨hunits, htrailing, hleading⟩ | ⟨high, low, hunits, hhigh, hleading, hlow, rfl⟩
  · rw [hunits, List.singleton_append, chars?_cons_eq_some_iff]
    simp [htrailing, hleading]
  · rw [hunits, List.cons_append, List.singleton_append, chars?_cons_eq_some_iff]
    simp [hhigh, hleading, hlow]

/-- The characters of pieces that were read in reverse, where none is damaged. -/
def seenChars? (seen : List Piece) : Option (List Char) :=
  seen.reverse.mapM Piece.char?

@[simp] theorem seenChars?_nil : seenChars? [] = some [] := rfl

@[simp] theorem seenChars?_char (c : Char) (seen : List Piece) :
    seenChars? (.char c :: seen) = (seenChars? seen).map (· ++ [c]) := by
  rw [seenChars?, seenChars?, List.reverse_cons, List.mapM_append]
  cases seen.reverse.mapM Piece.char? <;> rfl

@[simp] theorem seenChars?_stray (bytes : Text.Bytes) (seen : List Piece) :
    seenChars? (.stray bytes :: seen) = none := by
  rw [seenChars?, List.reverse_cons, List.mapM_append]
  cases seen.reverse.mapM Piece.char? <;> rfl

theorem length_of_hexEscape (h : hexEscape ps = .ok (n, rest)) : ps.length = 4 + rest.length := by
  obtain ⟨digits, four, -, rfl⟩ := hexEscape_eq_ok_iff.mp h
  rw [List.length_append, four]

theorem SpellsString.of_hexEscape {tail : List Piece} (h : hexEscape ps = .ok (n, tail))
    (next : SpellsString us tail rest) :
    SpellsString (some n :: us) (.char '\\' :: .char 'u' :: ps) rest := by
  obtain ⟨digits, four, value, split⟩ := hexEscape_eq_ok_iff.mp h
  exact .code four value split next

theorem stringFrom_sound {seen : List Piece} {s : String}
    (h : stringFrom fuel seen ps = .ok (s, rest)) :
    ∃ us front cs, SpellsString us ps rest ∧ seenChars? seen = some front ∧
      us.chars? = some cs ∧ s = String.ofList (front ++ cs) := by
  induction fuel generalizing seen ps with
  | zero => cases h
  | succ fuel ih =>
      -- What is decoded in a step is seen in the next one.
      have hstep : ∀ {c : Char} {ps' : List Piece},
          stringFrom fuel (.char c :: seen) ps' = .ok (s, rest) → ∃ us front cs,
            SpellsString us ps' rest ∧ seenChars? seen = some front ∧ us.chars? = some cs ∧
              s = String.ofList (front ++ c :: cs) := by
        intro c ps' h
        obtain ⟨us, front, cs, hus, hfront, hcs, hs⟩ := ih h
        obtain ⟨front', hfront', rfl⟩ := Option.map_eq_some_iff.mp (seenChars?_char c seen ▸ hfront)
        exact ⟨us, front', cs, hus, hfront', hcs, by rw [hs, List.append_assoc]; rfl⟩
      match ps with
      | [] => cases h
      | .stray bytes :: ps =>
          rw [stringFrom] at h
          obtain ⟨us, front, cs, -, hfront, -⟩ := ih h
          rw [seenChars?_stray] at hfront
          cases hfront
      | .char c :: ps =>
          rw [stringFrom.eq_def] at h
          dsimp only at h
          split at h
          · next hquote =>
              subst hquote
              split at h
              · next front hfront =>
                  cases h
                  exact ⟨[], front, [], .close, hfront, rfl, by rw [List.append_nil]⟩
              · cases h
          next hquote =>
          split at h
          · next hescape =>
              subst hescape
              split at h
              · cases h
              · next ps' =>
                  obtain ⟨⟨d, tail⟩, hdecoded, h⟩ := bind_eq_ok_iff.mp h
                  obtain ⟨us, front, cs, hus, hfront, hcs, hs⟩ := hstep h
                  obtain ⟨n, tail', hfirst, hno,
                    ⟨hno', hd, rfl⟩ | ⟨hlead, m, ps'', rfl, hsecond, hm, hd⟩⟩ :=
                    unicodeEscape_eq_ok_iff.mp hdecoded
                  · refine ⟨some n :: us, front, d :: cs, .of_hexEscape hfirst hus, hfront, ?_, hs⟩
                    exact Units.chars?_cons_eq_some_iff.mpr
                      ⟨hno, .inl ⟨hno', cs, hcs, by rw [hd]⟩⟩
                  · refine ⟨some n :: some m :: us, front, d :: cs,
                      .of_hexEscape hfirst (.of_hexEscape hsecond hus), hfront, ?_, hs⟩
                    exact Units.chars?_cons_eq_some_iff.mpr
                      ⟨hno, .inr ⟨hlead, m, us, cs, rfl, hm, hcs, by rw [hd]⟩⟩
              · next p ps' _ =>
                  split at h
                  · next d hd =>
                      obtain ⟨us, front, cs, hus, hfront, hcs, hs⟩ := hstep h
                      obtain ⟨e, he, hshort⟩ := Option.bind_eq_some_iff.mp hd
                      cases p with
                      | stray bytes => cases he
                      | char e' =>
                          cases he
                          exact ⟨unitsOf d ++ us, front, d :: cs, .short hshort hus, hfront,
                            Units.chars?_unitsOf_append.mpr ⟨cs, hcs, rfl⟩, hs⟩
                  · cases h
          next hescape =>
          split at h
          · cases h
          · next hcontrol =>
              obtain ⟨us, front, cs, hus, hfront, hcs, hs⟩ := hstep h
              exact ⟨unitsOf c ++ us, front, c :: cs,
                .plain hquote hescape (by simpa using hcontrol) hus, hfront,
                Units.chars?_unitsOf_append.mpr ⟨cs, hcs, rfl⟩, hs⟩

/-- The second half of a pair is an escape of its own. -/
theorem SpellsString.hexEscape_of_trailing (h : SpellsString (some n :: us) ps rest)
    (hn : isTrailing n = true) : ∃ ps' tail, ps = .char '\\' :: .char 'u' :: ps' ∧
      hexEscape ps' = .ok (n, tail) ∧ SpellsString us tail rest := by
  have hunits : ∀ c us', unitsOf c ++ us' ≠ some n :: us := by
    intro c us' heq
    rcases unitsOf_cases c with ⟨hc, hno, -⟩ | ⟨high, low, hc, hno, -⟩ <;>
      rw [hc] at heq <;> cases heq <;> rw [hn] at hno <;> cases hno
  generalize hus : some n :: us = us' at h
  cases h with
  | close | stray => cases hus
  | plain | short => exact absurd hus.symm (hunits _ _)
  | code four value split next =>
      cases hus
      exact ⟨_, _, rfl, hexEscape_eq_ok_iff.mpr ⟨_, four, value, split⟩, next⟩

theorem stringFrom_code {seen : List Piece} :
    stringFrom (fuel + 1) seen (.char '\\' :: .char 'u' :: ps) =
      unicodeEscape ps >>= fun (d, rest) => stringFrom fuel (.char d :: seen) rest := by
  rw [stringFrom.eq_def]
  rfl

theorem ne_of_shortEscape {c d : Char} (h : shortEscape? c = some d) : c ≠ 'u' := by
  rintro rfl
  cases h

theorem stringFrom_short {seen : List Piece} {c d : Char} (h : shortEscape? c = some d) :
    stringFrom (fuel + 1) seen (.char '\\' :: .char c :: ps) =
      stringFrom fuel (.char d :: seen) ps := by
  rw [stringFrom.eq_def]
  dsimp only
  rw [if_neg (by decide), if_pos rfl]
  split
  · next heq => cases heq
  · next heq =>
      cases heq
      exact absurd rfl (ne_of_shortEscape h)
  · next heq =>
      cases heq
      rw [Piece.char?, Option.bind_some, h]

theorem stringFrom_complete {seen : List Piece} {front cs : List Char}
    (h : SpellsString us ps rest) (hseen : seenChars? seen = some front)
    (hchars : us.chars? = some cs) (hfuel : ps.length < fuel) :
    stringFrom fuel seen ps = .ok (String.ofList (front ++ cs), rest) := by
  induction fuel generalizing seen front us cs ps with
  | zero => exact absurd hfuel (Nat.not_lt_zero _)
  | succ fuel ih =>
      have hstep : ∀ {c : Char} {us : Units} {ps' : List Piece} {cs : List Char},
          SpellsString us ps' rest → us.chars? = some cs → ps'.length < fuel →
            stringFrom fuel (.char c :: seen) ps' =
              .ok (String.ofList (front ++ c :: cs), rest) := by
        intro c us ps' cs hus hcs hlength
        rw [ih hus (by rw [seenChars?_char, hseen]; rfl) hcs hlength, List.append_assoc]
        rfl
      cases h with
      | close =>
          cases hchars
          have hmap : seen.reverse.mapM Piece.char? = some front := hseen
          rw [stringFrom.eq_def]
          dsimp only
          rw [if_pos rfl, hmap, List.append_nil]
      | stray => cases hchars
      | plain noQuote noEscape noControl next =>
          obtain ⟨cs', hcs', rfl⟩ := Units.chars?_unitsOf_append.mp hchars
          rw [stringFrom.eq_def]
          dsimp only
          rw [if_neg noQuote, if_neg noEscape, noControl, if_neg Bool.false_ne_true,
            hstep next hcs' (Nat.lt_of_succ_lt_succ hfuel)]
      | @short c d us ps _ escape next =>
          obtain ⟨cs', hcs', rfl⟩ := Units.chars?_unitsOf_append.mp hchars
          have hlength : ps.length < fuel := Nat.lt_of_succ_lt (Nat.lt_of_succ_lt_succ hfuel)
          rw [stringFrom_short escape, hstep next hcs' hlength]
      | @code digits n us ps ps' _ four value split next =>
          have hfirst : hexEscape ps = .ok (n, ps') :=
            hexEscape_eq_ok_iff.mpr ⟨digits, four, value, split⟩
          have hlength : ps'.length < fuel := by
            rw [split, List.length_cons, List.length_cons, List.length_append] at hfuel
            omega
          rw [stringFrom_code]
          obtain ⟨hno, ⟨hno', cs', hcs', rfl⟩ | ⟨hlead, m, us', cs', rfl, hm, hcs', rfl⟩⟩ :=
            Units.chars?_cons_eq_some_iff.mp hchars
          · have hdecoded := unicodeEscape_eq_ok_iff.mpr
              ⟨n, ps', hfirst, hno, .inl ⟨hno', rfl, rfl⟩⟩
            exact bind_eq_ok_iff.mpr ⟨_, hdecoded, hstep next hcs' hlength⟩
          · obtain ⟨ps₂, tail, rfl, hsecond, next'⟩ := next.hexEscape_of_trailing hm
            have hdecoded := unicodeEscape_eq_ok_iff.mpr
              ⟨n, _, hfirst, hno, .inr ⟨hlead, m, ps₂, rfl, hsecond, hm, rfl⟩⟩
            have hlength' := length_of_hexEscape hsecond
            rw [List.length_cons, List.length_cons] at hlength
            exact bind_eq_ok_iff.mpr ⟨_, hdecoded, hstep next' hcs' (by omega)⟩

/-- A string is read iff its code units spell characters. -/
theorem string_eq_ok_iff {s : String} :
    string ps = .ok (s, rest) ↔ ∃ us, SpellsString us ps rest ∧ us.text? = some s := by
  constructor
  · intro h
    obtain ⟨us, front, cs, hus, hfront, hcs, rfl⟩ := stringFrom_sound h
    cases hfront
    exact ⟨us, hus, by rw [Units.text?, hcs]; rfl⟩
  · rintro ⟨us, hus, htext⟩
    obtain ⟨cs, hcs, rfl⟩ := Option.map_eq_some_iff.mp htext
    exact stringFrom_complete hus seenChars?_nil hcs (Nat.lt_succ_self _)

theorem skipString_sound (h : skipString fuel ps = .ok rest) :
    ∃ us, SpellsString us ps rest := by
  induction fuel generalizing ps with
  | zero => cases h
  | succ fuel ih =>
      match ps with
      | [] => cases h
      | .stray bytes :: ps =>
          obtain ⟨us, hus⟩ := ih h
          exact ⟨_, .stray hus⟩
      | .char c :: ps =>
          rw [skipString.eq_def] at h
          dsimp only at h
          split at h
          · next hquote =>
              subst hquote
              cases h
              exact ⟨_, .close⟩
          next hquote =>
          split at h
          · next hescape =>
              subst hescape
              split at h
              · cases h
              · obtain ⟨⟨n, tail⟩, hcode, h⟩ := bind_eq_ok_iff.mp h
                obtain ⟨us, hus⟩ := ih h
                exact ⟨_, .of_hexEscape hcode hus⟩
              · next p ps' _ =>
                  split at h
                  · next hshort =>
                      obtain ⟨d, hd⟩ := Option.isSome_iff_exists.mp hshort
                      obtain ⟨us, hus⟩ := ih h
                      cases p with
                      | stray bytes => cases hd
                      | char e => exact ⟨_, .short hd hus⟩
                  · cases h
          next hescape =>
          split at h
          · cases h
          · next hcontrol =>
              obtain ⟨us, hus⟩ := ih h
              exact ⟨_, .plain hquote hescape (by simpa using hcontrol) hus⟩

theorem skipString_short {c d : Char} (h : shortEscape? c = some d) :
    skipString (fuel + 1) (.char '\\' :: .char c :: ps) = skipString fuel ps := by
  rw [skipString.eq_def]
  dsimp only
  rw [if_neg (by decide), if_pos rfl]
  split
  · next heq => cases heq
  · next heq =>
      cases heq
      exact absurd rfl (ne_of_shortEscape h)
  · next heq =>
      cases heq
      rw [Piece.char?, Option.bind_some, h, if_pos (Option.isSome_some)]

theorem skipString_complete (h : SpellsString us ps rest) (hfuel : ps.length < fuel) :
    skipString fuel ps = .ok rest := by
  induction fuel generalizing us ps with
  | zero => exact absurd hfuel (Nat.not_lt_zero _)
  | succ fuel ih =>
      cases h with
      | close =>
          rw [skipString.eq_def]
          rfl
      | stray next => exact ih next (Nat.lt_of_succ_lt_succ hfuel)
      | plain noQuote noEscape noControl next =>
          rw [skipString.eq_def]
          dsimp only
          rw [if_neg noQuote, if_neg noEscape, noControl, if_neg Bool.false_ne_true,
            ih next (Nat.lt_of_succ_lt_succ hfuel)]
      | short escape next =>
          rw [skipString_short escape, ih next (Nat.lt_of_succ_lt (Nat.lt_of_succ_lt_succ hfuel))]
      | @code digits n us ps ps' _ four value split next =>
          have hcode : hexEscape ps = .ok (n, ps') :=
            hexEscape_eq_ok_iff.mpr ⟨digits, four, value, split⟩
          have hlength := length_of_hexEscape hcode
          rw [List.length_cons, List.length_cons] at hfuel
          rw [skipString.eq_def]
          exact bind_eq_ok_iff.mpr ⟨_, hcode, ih next (by omega)⟩

end ModuleOutputs.Json
