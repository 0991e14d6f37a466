import ModuleOutputs.Proofs.Json.Strings

/-!
The reader of numbers, against the grammar. What it takes is a number, and it takes a
number whole where one can end.
-/

namespace ModuleOutputs.Json

open Text (Piece)

variable {ps rest word : List Piece}

/-! ## Digits -/

/-- Whether digits end here. -/
def NoDigit (ps : List Piece) : Prop :=
  ∀ p ∈ ps.head?, isDigit p = false

theorem digits_append (hword : ∀ p ∈ word, isDigit p = true) (hrest : NoDigit rest) :
    digits (word ++ rest) = (word.map digitValue, rest) := by
  have hnone : rest.takeWhile isDigit = [] ∧ rest.dropWhile isDigit = rest := by
    cases rest with
    | nil => exact ⟨rfl, rfl⟩
    | cons p rest =>
        have hp : ¬ isDigit p = true := by simp [hrest p rfl]
        exact ⟨List.takeWhile_cons_of_neg hp, List.dropWhile_cons_of_neg hp⟩
  rw [digits, List.takeWhile_append_of_pos hword, List.dropWhile_append_of_pos hword, hnone.1,
    hnone.2, List.append_nil]

theorem exists_of_digits {values : List Nat} (h : digits ps = (values, rest)) :
    ∃ word, ps = word ++ rest ∧ (∀ p ∈ word, isDigit p = true) ∧ values = word.map digitValue := by
  obtain ⟨rfl, rfl⟩ := Prod.mk.inj h
  exact ⟨ps.takeWhile isDigit, List.takeWhile_append_dropWhile.symm,
    fun p hp => List.mem_takeWhile_imp hp, rfl⟩

theorem exists_of_digits_cons {d : Nat} {values : List Nat} (h : digits ps = (d :: values, rest)) :
    ∃ p word, ps = p :: word ++ rest ∧ IsDigits (p :: word) ∧ digitValue p = d ∧
      word.map digitValue = values := by
  obtain ⟨word, rfl, hword, hvalues⟩ := exists_of_digits h
  cases word with
  | nil => cases hvalues
  | cons p word =>
      obtain ⟨rfl, rfl⟩ := List.cons.inj hvalues
      exact ⟨p, word, rfl, ⟨List.cons_ne_nil _ _, hword⟩, rfl, rfl⟩

theorem digits_of_isDigits (h : IsDigits word) (hrest : NoDigit rest) :
    ∃ d values, digits (word ++ rest) = (d :: values, rest) := by
  rw [digits_append h.2 hrest]
  cases word with
  | nil => exact absurd rfl h.1
  | cons p word => exact ⟨_, _, rfl⟩

theorem digitValue_eq_zero_iff {p : Piece} (hp : isDigit p = true) :
    digitValue p = 0 ↔ p = .char '0' := by
  cases p with
  | stray bytes => cases hp
  | char c =>
      have hc : '0'.toNat ≤ c.toNat := by
        have hdigit : c.val ≥ '0'.val ∧ c.val ≤ '9'.val := by simpa [isDigit, Char.isDigit] using hp
        exact hdigit.1
      have hvalue : digitValue (.char c) = c.toNat - '0'.toNat := rfl
      rw [hvalue, Nat.sub_eq_zero_iff_le, Piece.char.injEq, ← Char.toNat_inj]
      omega

/-! ## The parts of a number -/

theorem wholePart_sound {values : List Nat} (h : wholePart ps = .ok (values, rest)) :
    ∃ word, IsWhole word ∧ ps = word ++ rest := by
  rcases hdigits : digits ps with ⟨values', rest'⟩
  rw [wholePart, hdigits] at h
  match values' with
  | [] => cases rest' <;> cases h
  | 0 :: _ :: _ => cases h
  | [0] =>
      cases h
      obtain ⟨p, word, rfl, hword, hp, hnil⟩ := exists_of_digits_cons hdigits
      obtain rfl := List.map_eq_nil_iff.mp hnil
      rw [(digitValue_eq_zero_iff (hword.2 p List.mem_cons_self)).mp hp]
      exact ⟨_, .zero, rfl⟩
  | (d + 1) :: values =>
      cases h
      obtain ⟨p, word, rfl, hword, hp, -⟩ := exists_of_digits_cons hdigits
      refine ⟨p :: word, .more hword fun hzero => ?_, rfl⟩
      rw [(digitValue_eq_zero_iff (hword.2 p List.mem_cons_self)).mpr hzero] at hp
      cases hp

theorem wholePart_complete (h : IsWhole word) (hrest : NoDigit rest) :
    ∃ values, wholePart (word ++ rest) = .ok (values, rest) := by
  cases h with
  | zero =>
      have hdigits : digits ([.char '0'] ++ rest) = ([0], rest) :=
        digits_append (by simp [isDigit]) hrest
      exact ⟨[0], by rw [wholePart, hdigits]; rfl⟩
  | @more p word digits noZero =>
      have hdigits : Json.digits (p :: word ++ rest) =
          (digitValue p :: word.map digitValue, rest) := digits_append digits.2 hrest
      have hp : digitValue p ≠ 0 :=
        mt (digitValue_eq_zero_iff (digits.2 p List.mem_cons_self)).mp noZero
      obtain ⟨d, hd⟩ := Nat.exists_eq_succ_of_ne_zero hp
      exact ⟨_, by rw [wholePart, hdigits, hd]; rfl⟩

theorem fractionPart_sound {o : Option (List Nat)} (h : fractionPart ps = .ok (o, rest)) :
    ∃ word, IsFraction word ∧ ps = word ++ rest := by
  unfold fractionPart at h
  split at h
  · next ps' =>
      rcases hdigits : digits ps' with ⟨values, rest'⟩
      rw [hdigits] at h
      match values with
      | [] => cases rest' <;> cases h
      | d :: values =>
          cases h
          obtain ⟨p, word, rfl, hword, -⟩ := exists_of_digits_cons hdigits
          exact ⟨_, .some hword, rfl⟩
  · cases h
    exact ⟨[], .none, rfl⟩

theorem fractionPart_complete (h : IsFraction word) (hrest : NoDigit rest)
    (hpoint : rest.head? ≠ some (.char '.')) :
    ∃ o, fractionPart (word ++ rest) = .ok (o, rest) := by
  cases h with
  | none =>
      refine ⟨Option.none, ?_⟩
      unfold fractionPart
      split
      · next ps' heq =>
          obtain rfl : rest = .char '.' :: ps' := heq
          exact absurd rfl hpoint
      · rfl
  | some digits =>
      obtain ⟨d, values, hdigits⟩ := digits_of_isDigits digits hrest
      exact ⟨_, by rw [List.cons_append, fractionPart, hdigits]⟩

theorem exponentDigits_sound {e : Bool × List Nat} (h : exponentDigits ps = .ok (e, rest)) :
    ∃ sign word, (sign = [] ∨ sign = [.char '+'] ∨ sign = [.char '-']) ∧ IsDigits word ∧
      ps = sign ++ word ++ rest := by
  unfold exponentDigits at h
  split at h
  next negative ps' hsplit =>
  obtain ⟨word, hword, rfl⟩ : ∃ word, IsDigits word ∧ ps' = word ++ rest := by
    rcases hdigits : digits ps' with ⟨values, rest'⟩
    rw [hdigits] at h
    cases values with
    | nil => cases rest' <;> cases h
    | cons d values =>
        cases h
        obtain ⟨p, word, rfl, hword, -⟩ := exists_of_digits_cons hdigits
        exact ⟨_, hword, rfl⟩
  split at hsplit <;> cases hsplit
  · exact ⟨[.char '+'], word, .inr (.inl rfl), hword, rfl⟩
  · exact ⟨[.char '-'], word, .inr (.inr rfl), hword, rfl⟩
  · exact ⟨[], word, .inl rfl, hword, rfl⟩

theorem IsDigits.append_ne (h : IsDigits word) {c : Char} (hc : isDigit (.char c) = false) :
    word ++ rest ≠ .char c :: ps := by
  obtain ⟨hsome, hdigits⟩ := h
  cases word with
  | nil => exact absurd rfl hsome
  | cons p word =>
      rintro heq
      obtain ⟨rfl, -⟩ := List.cons.inj heq
      rw [hdigits _ List.mem_cons_self] at hc
      cases hc

theorem exponentDigits_complete {sign : List Piece}
    (isSign : sign = [] ∨ sign = [.char '+'] ∨ sign = [.char '-']) (h : IsDigits word)
    (hrest : NoDigit rest) : ∃ e, exponentDigits (sign ++ word ++ rest) = .ok (e, rest) := by
  obtain ⟨d, values, hdigits⟩ := digits_of_isDigits h hrest
  rcases isSign with rfl | rfl | rfl
  · refine ⟨(false, d :: values), ?_⟩
    unfold exponentDigits
    rw [List.nil_append]
    split
    next negative ps' hsplit =>
    split at hsplit
    · next heq => exact absurd heq (h.append_ne rfl)
    · next heq => exact absurd heq (h.append_ne rfl)
    · cases hsplit
      rw [hdigits]
  · exact ⟨(false, d :: values), by
      simp only [exponentDigits, List.cons_append, List.nil_append, hdigits]⟩
  · exact ⟨(true, d :: values), by
      simp only [exponentDigits, List.cons_append, List.nil_append, hdigits]⟩

theorem exponentPart_sound {o : Option (Bool × List Nat)} (h : exponentPart ps = .ok (o, rest)) :
    ∃ word, IsExponent word ∧ ps = word ++ rest := by
  unfold exponentPart at h
  split at h
  · obtain ⟨⟨e, rest'⟩, hread, h⟩ := bind_eq_ok_iff.mp h
    cases h
    obtain ⟨sign, word, hsign, hword, rfl⟩ := exponentDigits_sound hread
    exact ⟨_, .some (.inl rfl) hsign hword, rfl⟩
  · obtain ⟨⟨e, rest'⟩, hread, h⟩ := bind_eq_ok_iff.mp h
    cases h
    obtain ⟨sign, word, hsign, hword, rfl⟩ := exponentDigits_sound hread
    exact ⟨_, .some (.inr rfl) hsign hword, rfl⟩
  · cases h
    exact ⟨[], .none, rfl⟩

theorem exponentPart_complete (h : IsExponent word) (hrest : NoDigit rest)
    (hlower : rest.head? ≠ some (.char 'e')) (hupper : rest.head? ≠ some (.char 'E')) :
    ∃ o, exponentPart (word ++ rest) = .ok (o, rest) := by
  cases h with
  | none =>
      refine ⟨Option.none, ?_⟩
      unfold exponentPart
      split
      · next ps' heq =>
          obtain rfl : rest = .char 'e' :: ps' := heq
          exact absurd rfl hlower
      · next ps' heq =>
          obtain rfl : rest = .char 'E' :: ps' := heq
          exact absurd rfl hupper
      · rfl
  | some letter isSign digits =>
      obtain ⟨e, hread⟩ := exponentDigits_complete isSign digits hrest
      rcases letter with rfl | rfl <;>
        exact ⟨Option.some e, bind_eq_ok_iff.mpr ⟨_, hread, rfl⟩⟩

/-! ## Numbers -/

theorem IsWhole.isDigits (h : IsWhole word) : IsDigits word := by
  cases h with
  | zero => exact ⟨List.cons_ne_nil _ _, by simp [isDigit]⟩
  | more digits => exact digits

theorem numeral_sound {n : Numeral} (h : numeral ps = .ok (n, rest)) :
    ∃ word, IsNumber word ∧ ps = word ++ rest := by
  unfold numeral at h
  split at h
  next negative ps' hsplit =>
  obtain ⟨⟨whole, ps₁⟩, hwhole, h⟩ := bind_eq_ok_iff.mp h
  obtain ⟨⟨fraction, ps₂⟩, hfraction, h⟩ := bind_eq_ok_iff.mp h
  obtain ⟨⟨exponent, ps₃⟩, hexponent, h⟩ := bind_eq_ok_iff.mp h
  cases h
  obtain ⟨whole, isWhole, rfl⟩ := wholePart_sound hwhole
  obtain ⟨fraction, isFraction, rfl⟩ := fractionPart_sound hfraction
  obtain ⟨exponent, isExponent, rfl⟩ := exponentPart_sound hexponent
  split at hsplit <;> cases hsplit
  · exact ⟨_, .mk (.inr rfl) isWhole isFraction isExponent, by simp⟩
  · exact ⟨_, .mk (.inl rfl) isWhole isFraction isExponent, by simp⟩

/-- What may follow a number does not go on in it. -/
theorem IsEnd.head?_ne (h : IsEnd rest) {c : Char} (hspace : isSpace (.char c) = false)
    (hc : c ∉ [',', ']', '\x7d']) : rest.head? ≠ some (.char c) := by
  intro hhead
  rcases h _ hhead with hspace' | hmem
  · rw [hspace] at hspace'
    cases hspace'
  · exact hc (by simpa using hmem)

theorem IsEnd.noDigit (h : IsEnd rest) : NoDigit rest := by
  intro p hp
  rcases h p hp with hspace | hmem
  · cases p with
    | stray bytes => rfl
    | char c =>
        have hc : ((c = ' ' ∨ c = '\n') ∨ c = '\t') ∨ c = '\r' := by simpa [isSpace] using hspace
        rcases hc with ((rfl | rfl) | rfl) | rfl <;> rfl
  · simp only [List.mem_cons, List.not_mem_nil, or_false] at hmem
    rcases hmem with rfl | rfl | rfl <;> rfl

theorem numeral_complete (h : IsNumber word) (hrest : IsEnd rest) :
    ∃ n, numeral (word ++ rest) = .ok (n, rest) := by
  obtain @⟨sign, whole, fraction, exponent, isSign, isWhole, isFraction, isExponent⟩ := h
  obtain ⟨e, hexponent⟩ := exponentPart_complete isExponent hrest.noDigit
    (hrest.head?_ne rfl (by decide)) (hrest.head?_ne rfl (by decide))
  -- No part can be mistaken for one more digit of the part before it.
  have hends : (exponent ++ rest).head? ≠ some (.char '.') ∧ NoDigit (exponent ++ rest) := by
    cases isExponent with
    | none => exact ⟨hrest.head?_ne rfl (by decide), hrest.noDigit⟩
    | some letter _ _ =>
        rcases letter with rfl | rfl <;> exact ⟨by simp, by rintro p ⟨⟩; rfl⟩
  obtain ⟨f, hfraction⟩ := fractionPart_complete isFraction hends.2 hends.1
  have hends' : NoDigit (fraction ++ (exponent ++ rest)) := by
    cases isFraction with
    | none => exact hends.2
    | some _ => rintro p ⟨⟩; rfl
  obtain ⟨values, hwhole⟩ := wholePart_complete isWhole hends'
  rcases isSign with rfl | rfl
  · refine ⟨⟨false, values, f, e⟩, ?_⟩
    rw [List.nil_append, List.append_assoc, List.append_assoc]
    unfold numeral
    split
    next negative ps' hsplit =>
    split at hsplit
    · next heq => exact absurd heq (isWhole.isDigits.append_ne rfl)
    · cases hsplit
      exact bind_eq_ok_iff.mpr ⟨_, hwhole, bind_eq_ok_iff.mpr ⟨_, hfraction,
        bind_eq_ok_iff.mpr ⟨_, hexponent, rfl⟩⟩⟩
  · refine ⟨⟨true, values, f, e⟩, ?_⟩
    rw [List.cons_append, List.nil_append, List.cons_append, List.append_assoc, List.append_assoc]
    exact bind_eq_ok_iff.mpr ⟨_, hwhole, bind_eq_ok_iff.mpr ⟨_, hfraction,
      bind_eq_ok_iff.mpr ⟨_, hexponent, rfl⟩⟩⟩

end ModuleOutputs.Json
