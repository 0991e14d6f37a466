import Mathlib.Data.List.Infix
import ModuleOutputs.Proofs.Text.Runs

/-!
Looking for a run of small ASCII characters in a lower-cased text. Two characters beyond ASCII
become ASCII letters: the Kelvin sign a `k`, and a dotted capital I an `i` that a combining dot
follows. So a run without a `k`, and whose end is no `i`, is found where it stands in the text
once its ASCII capitals are folded, and nowhere else. A character that is not in the run parts
the text in two, and the run is in one of the parts.
-/

namespace ModuleOutputs.Text

variable {part front text lowered : List Char} {c d : Char}

/-! ## Characters that are not in a run -/

theorem prefix_cons_iff_of_notMem (h : d ∉ part) : part <+: d :: text ↔ part = [] := by
  rw [List.prefix_cons_iff, or_iff_left]
  rintro ⟨rest, rfl, -⟩
  exact h List.mem_cons_self

theorem infix_cons_iff_of_notMem (h : d ∉ part) : part <:+: d :: text ↔ part <:+: text := by
  rw [List.infix_cons_iff, prefix_cons_iff_of_notMem h, or_iff_right_of_imp]
  rintro rfl
  exact List.nil_infix

/-- A run that does not begin with a character is not found before what follows that. -/
theorem infix_cons_iff_of_head? (h : part.head? ≠ some d) :
    part <:+: d :: text ↔ part <:+: text := by
  rw [List.infix_cons_iff, List.prefix_cons_iff, or_iff_right_of_imp]
  rintro (rfl | ⟨rest, rfl, -⟩)
  · exact List.nil_infix
  · exact absurd rfl h

/-- A run that does not end with a character is not found behind what stands before that. -/
theorem infix_concat_iff_of_getLast? (h : part.getLast? ≠ some d) :
    part <:+: front ++ [d] ↔ part <:+: front := by
  rw [List.infix_concat_iff, List.suffix_concat_iff, or_iff_right_of_imp]
  rintro (rfl | ⟨rest, rfl, -⟩)
  · exact List.nil_infix
  · exact absurd List.getLast?_concat h

theorem infix_append_iff_of_notMem (h : ∀ d ∈ front, d ∉ part) :
    part <:+: front ++ text ↔ part <:+: text := by
  induction front with
  | nil => rfl
  | cons d front ih =>
      obtain ⟨hd, hfront⟩ := List.forall_mem_cons.mp h
      rw [List.cons_append, infix_cons_iff_of_notMem hd, ih hfront]

theorem prefix_append_cons_iff_of_notMem (h : d ∉ part) :
    part <+: front ++ d :: text ↔ part <+: front := by
  constructor
  · intro hpart
    rcases List.prefix_or_prefix_of_prefix hpart (List.prefix_append front _) with hfront | ⟨s, rfl⟩
    · exact hfront
    · rw [List.prefix_append_right_inj, prefix_cons_iff_of_notMem] at hpart
      · simp [hpart]
      · exact fun hd => h (List.mem_append_right front hd)
  · intro hpart
    exact hpart.trans (List.prefix_append front _)

/-- A run is on one side of a character that is not in it. -/
theorem infix_append_cons_iff_of_notMem (h : d ∉ part) :
    part <:+: front ++ d :: text ↔ part <:+: front ∨ part <:+: text := by
  induction front with
  | nil =>
      rw [List.nil_append, infix_cons_iff_of_notMem h, or_iff_right_of_imp]
      intro hnil
      rw [List.infix_nil.mp hnil]
      exact List.nil_infix
  | cons c front ih =>
      rw [List.cons_append, List.infix_cons_iff, List.infix_cons_iff, ih, ← List.cons_append,
        prefix_append_cons_iff_of_notMem h, or_assoc]

/-! ## Lower-case forms -/

/-- Whether a text is another one in lower case: each character is in its lower-case form, and a
capital sigma may be in the form that it has at the end of a word. -/
inductive Lowers : List Char → List Char → Prop
  | nil : Lowers [] []
  | lower {c : Char} {text lowered : List Char} (rest : Lowers text lowered) :
      Lowers (c :: text) (lowerChars c ++ lowered)
  | finalSigma {text lowered : List Char} (rest : Lowers text lowered) :
      Lowers ('\u03A3' :: text) ('\u03C2' :: lowered)

theorem lowers_lowercase (text : List Char) : Lowers text (lowercase text) := by
  induction text with
  | nil => exact .nil
  | cons c text ih => exact .lower ih

theorem lowerChars_ascii (h : c.toNat < 0x80) : lowerChars c = [c.toLower] := by
  have hall : ∀ n < 0x80, lowerChars (Char.ofNat n) = [(Char.ofNat n).toLower] := by
    decide +kernel
  have hc := hall c.toNat h
  rwa [Char.ofNat_toNat] at hc

theorem toLower_beyond (h : 0x80 ≤ c.toNat) : c.toLower = c := by
  refine dif_neg ?_
  rintro ⟨-, hle⟩
  have hle' : c.toNat ≤ 'Z'.toNat := hle
  exact absurd (Nat.le_trans h hle') (by decide)

/-- The capitals of ASCII, the Kelvin sign, and those whose lower-case letters are beyond ASCII. -/
theorem capitals_cases : ∀ r ∈ capitals, r.last < 0x80 ∨
    r.first = r.last ∧ r.lower = 'k'.toNat ∨
    0x80 ≤ r.lower ∧ (r.lower + (r.last - r.first) < 0xD800 ∨
      0xE000 ≤ r.lower ∧ r.lower + (r.last - r.first) < 0x110000) := by
  decide +kernel

/-- Beyond ASCII, two characters have an ASCII letter in their lower-case form. -/
theorem lowerChars_beyond (h : 0x80 ≤ c.toNat) :
    lowerChars c = ['k'] ∨ lowerChars c = ['i', '\u0307'] ∨
      ∃ d, lowerChars c = [d] ∧ 0x80 ≤ d.toNat := by
  unfold lowerChars
  split
  · exact .inr (.inl rfl)
  split
  · next r hr =>
      have hholds := List.find?_some hr
      simp only [CapitalRun.holds, Bool.and_eq_true, decide_eq_true_eq] at hholds
      obtain ⟨⟨hfirst, hlast⟩, -⟩ := hholds
      have hcases := capitals_cases r (List.mem_of_find?_eq_some hr)
      rcases hcases with hascii | ⟨hone, hk⟩ | ⟨hlow, hvalid⟩
      · omega
      · left
        have hsame : c.toNat - r.first = 0 := by omega
        rw [CapitalRun.lowerOf, hsame, hk]
        rfl
      · refine .inr (.inr ⟨_, rfl, ?_⟩)
        have hchar : (r.lower + (c.toNat - r.first)).isValidChar := by
          unfold Nat.isValidChar
          omega
        rw [CapitalRun.lowerOf, Char.ofNat, dif_pos hchar]
        exact Nat.le_trans hlow (Nat.le_add_right _ _)
  · exact .inr (.inr ⟨c, rfl, h⟩)

/-! ## Plain runs -/

/-- Whether a run is of ASCII characters, none of which comes of another character: it has no `k`,
and no `i` at its end. -/
structure IsPlain (part : List Char) : Prop where
  ascii : ∀ c ∈ part, c.toNat < 0x80
  noKelvin : 'k' ∉ part
  noDotted : part.getLast? ≠ some 'i'

-- The characters are gone through with `all`: over all of `Char` the bound would not evaluate.
instance (part : List Char) : Decidable (IsPlain part) :=
  decidable_of_iff
    (part.all (fun c => decide (c.toNat < 0x80)) = true ∧ 'k' ∉ part ∧ part.getLast? ≠ some 'i')
    ⟨fun ⟨ascii, noKelvin, noDotted⟩ =>
        ⟨fun c hc => of_decide_eq_true (List.all_eq_true.mp ascii c hc), noKelvin, noDotted⟩,
      fun ⟨ascii, noKelvin, noDotted⟩ =>
        ⟨List.all_eq_true.mpr fun c hc => decide_eq_true (ascii c hc), noKelvin, noDotted⟩⟩

namespace IsPlain

theorem tail (h : IsPlain (c :: part)) : IsPlain part where
  ascii := fun d hd => h.ascii d (List.mem_cons_of_mem c hd)
  noKelvin := fun hk => h.noKelvin (List.mem_cons_of_mem c hk)
  noDotted := by
    cases part with
    | nil => simp
    | cons d rest => simpa using h.noDotted

theorem notMem (h : IsPlain part) (hd : 0x80 ≤ d.toNat) : d ∉ part :=
  fun hmem => absurd (h.ascii d hmem) (Nat.not_lt.mpr hd)

/-- A run does not begin at an `i` that a combining dot follows. -/
theorem prefix_dotted_iff (h : IsPlain part) : part <+: 'i' :: '\u0307' :: text ↔ part = [] := by
  rw [List.prefix_cons_iff, or_iff_left]
  rintro ⟨rest, rfl, hrest⟩
  rw [prefix_cons_iff_of_notMem (h.tail.notMem (by decide))] at hrest
  subst hrest
  exact h.noDotted rfl

/-- What comes of a character beyond ASCII neither is in a run nor begins one. -/
theorem infix_lowerChars_iff (h : IsPlain part) (hc : 0x80 ≤ c.toNat) :
    part <:+: lowerChars c ++ text ↔ part <:+: text := by
  rcases lowerChars_beyond hc with heq | heq | ⟨d, heq, hd⟩ <;> rw [heq]
  · exact infix_cons_iff_of_notMem h.noKelvin
  · rw [List.cons_append, List.infix_cons_iff, List.singleton_append, h.prefix_dotted_iff,
      infix_cons_iff_of_notMem (h.notMem (by decide)), or_iff_right_of_imp]
    rintro rfl
    exact List.nil_infix
  · exact infix_cons_iff_of_notMem (h.notMem hd)

theorem prefix_lowerChars_iff (h : IsPlain part) (hc : 0x80 ≤ c.toNat) :
    part <+: lowerChars c ++ text ↔ part = [] := by
  rcases lowerChars_beyond hc with heq | heq | ⟨d, heq, hd⟩ <;> rw [heq]
  · exact prefix_cons_iff_of_notMem h.noKelvin
  · exact h.prefix_dotted_iff
  · exact prefix_cons_iff_of_notMem (h.notMem hd)

theorem prefix_lowers_iff (h : IsPlain part) (hlowers : Lowers text lowered) :
    part <+: lowered ↔ part <+: text.map Char.toLower := by
  induction hlowers generalizing part with
  | nil => rfl
  | @lower c text lowered rest ih =>
      rw [List.map_cons]
      by_cases hc : c.toNat < 0x80
      · rw [lowerChars_ascii hc, List.singleton_append, List.prefix_cons_iff, List.prefix_cons_iff]
        refine or_congr_right (exists_congr fun part' => and_congr_right fun hpart => ?_)
        exact ih (hpart ▸ h).tail
      · have hbeyond := Nat.not_lt.mp hc
        rw [h.prefix_lowerChars_iff hbeyond, toLower_beyond hbeyond,
          prefix_cons_iff_of_notMem (h.notMem hbeyond)]
  | finalSigma =>
      rw [List.map_cons, prefix_cons_iff_of_notMem (h.notMem (by decide)),
        prefix_cons_iff_of_notMem (h.notMem (by decide))]

/-- A run is found in a text in lower case exactly if it is found once the ASCII capitals are
folded. -/
theorem infix_lowers_iff (h : IsPlain part) (hlowers : Lowers text lowered) :
    part <:+: lowered ↔ part <:+: text.map Char.toLower := by
  induction hlowers with
  | nil => rfl
  | @lower c text lowered rest ih =>
      rw [List.map_cons]
      by_cases hc : c.toNat < 0x80
      · have hprefix := h.prefix_lowers_iff (Lowers.lower (c := c) rest)
        rw [lowerChars_ascii hc, List.singleton_append, List.map_cons] at hprefix
        rw [lowerChars_ascii hc, List.singleton_append, List.infix_cons_iff, List.infix_cons_iff,
          hprefix, ih]
      · have hbeyond := Nat.not_lt.mp hc
        rw [h.infix_lowerChars_iff hbeyond, toLower_beyond hbeyond,
          infix_cons_iff_of_notMem (h.notMem hbeyond), ih]
  | finalSigma rest ih =>
      rw [List.map_cons, infix_cons_iff_of_notMem (h.notMem (by decide)),
        infix_cons_iff_of_notMem (h.notMem (by decide)), ih]

end IsPlain

end ModuleOutputs.Text
