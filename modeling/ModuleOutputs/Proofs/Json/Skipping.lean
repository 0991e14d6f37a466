import ModuleOutputs.Proofs.Json.Numbers

/-!
Passing over a value, against the grammar. What is passed over is a value, whatever it
holds and however deep it goes, and every value is passed over whole. The bound on the
steps is never reached: a step takes a piece, or hands on to one that does.
-/

namespace ModuleOutputs.Json

open Text (Piece)

variable {ps rest : List Piece} {fuel : Nat}

/-- A key and its colon. -/
def SpellsKey (us : Units) (ps rest : List Piece) : Prop :=
  ∃ ps₁ ps₂, skipSpace ps = .char '"' :: ps₁ ∧ SpellsString us ps₁ ps₂ ∧
    skipSpace ps₂ = .char ':' :: rest

theorem skipKey_sound (h : skipKey fuel ps = .ok rest) : ∃ us, SpellsKey us ps rest := by
  unfold skipKey at h
  split at h
  · cases h
  · next ps₁ hopening =>
      obtain ⟨ps₂, hstring, h⟩ := bind_eq_ok_iff.mp h
      obtain ⟨us, hus⟩ := skipString_sound hstring
      split at h
      · cases h
      · next hcolon =>
          cases h
          exact ⟨us, ps₁, ps₂, hopening, hus, hcolon⟩
      · cases h
  · cases h

theorem skipKey_complete {us : Units} (h : SpellsKey us ps rest) (hfuel : ps.length < fuel) :
    skipKey fuel ps = .ok rest := by
  obtain ⟨ps₁, ps₂, hopening, hus, hcolon⟩ := h
  have hlength := length_skipSpace_le ps
  rw [hopening, List.length_cons] at hlength
  unfold skipKey
  rw [hopening]
  refine bind_eq_ok_iff.mpr ⟨ps₂, skipString_complete hus (by omega), ?_⟩
  rw [hcolon]
  rfl

/-- A value that is passed over is one, and so are the items and the members. -/
theorem skip_sound (fuel : Nat) :
    (∀ ps rest, skipValue fuel ps = .ok rest → ∃ v, Spells (.value v) (skipSpace ps) rest) ∧
      (∀ ps rest, skipItems fuel ps = .ok rest → ∃ vs, Spells (.items vs) ps rest) ∧
      ∀ ps rest, skipMembers fuel ps = .ok rest → ∃ ms, Spells (.members ms) ps rest := by
  induction fuel with
  | zero => exact ⟨nofun, nofun, nofun⟩
  | succ fuel ih =>
      obtain ⟨ihValue, ihItems, ihMembers⟩ := ih
      refine ⟨fun ps rest h => ?_, fun ps rest h => ?_, fun ps rest h => ?_⟩
      · rw [skipValue] at h
        have hword : ∀ {cs : List Char} {ps' : List Piece},
            (expectWord cs ps').map (·.2) = .ok rest → ps' = cs.map .char ++ rest := by
          intro cs ps' h
          obtain ⟨⟨⟨⟩, _⟩, hword, rfl⟩ := map_eq_ok_iff.mp h
          exact expectWord_eq_ok_iff.mp hword
        split at h
        · cases h
        · next hspace =>
            rw [hspace, hword h]
            exact ⟨_, .null⟩
        · next hspace =>
            rw [hspace, hword h]
            exact ⟨_, .yes⟩
        · next hspace =>
            rw [hspace, hword h]
            exact ⟨_, .no⟩
        · next hspace =>
            obtain ⟨us, hus⟩ := skipString_sound h
            rw [hspace]
            exact ⟨_, .text hus⟩
        · next hspace =>
            rw [hspace]
            split at h
            · cases h
            · next hclose =>
                cases h
                exact ⟨_, .emptyList hclose⟩
            · obtain ⟨vs, hvs⟩ := ihItems _ _ h
              exact ⟨_, .list hvs⟩
        · next hspace =>
            rw [hspace]
            split at h
            · cases h
            · next hclose =>
                cases h
                exact ⟨_, .emptyObject hclose⟩
            · obtain ⟨ms, hms⟩ := ihMembers _ _ h
              exact ⟨_, .object hms⟩
        · next hspace =>
            split at h
            · obtain ⟨⟨n, _⟩, hnumeral, rfl⟩ := map_eq_ok_iff.mp h
              obtain ⟨word, hnumber, hsplit⟩ := numeral_sound hnumeral
              exact ⟨_, .number hnumber (hspace.trans hsplit)⟩
            · cases h
      · rw [skipItems] at h
        cases hvalue : skipValue fuel ps with
        | error f =>
            rw [hvalue] at h
            cases h
        | ok ps' =>
            rw [hvalue] at h
            obtain ⟨v, hv⟩ := ihValue _ _ hvalue
            dsimp only at h
            split at h
            · cases h
            · next hcomma =>
                obtain ⟨vs, hvs⟩ := ihItems _ _ h
                exact ⟨v :: vs, .moreItems hv hcomma hvs⟩
            · next hclose =>
                cases h
                exact ⟨[v], .lastItem hv hclose⟩
            · cases h
      · rw [skipMembers] at h
        cases hkey : skipKey (ps.length + 1) ps with
        | error f =>
            rw [hkey] at h
            cases h
        | ok ps' =>
        rw [hkey] at h
        dsimp only at h
        obtain ⟨us, ps₁, ps₂, hopening, hus, hcolon⟩ := skipKey_sound hkey
        cases hvalue : skipValue fuel ps' with
        | error f =>
            rw [hvalue] at h
            cases h
        | ok ps'' =>
        rw [hvalue] at h
        dsimp only at h
        obtain ⟨v, hv⟩ := ihValue _ _ hvalue
        have hmember : Spells (.member us v) ps ps'' := .member hopening hus hcolon hv
        split at h
        · cases h
        · next hcomma =>
            obtain ⟨ms, hms⟩ := ihMembers _ _ h
            exact ⟨(us, v) :: ms, .moreMembers hmember hcomma hms⟩
        · next hclose =>
            cases h
            exact ⟨[(us, v)], .lastMember hmember hclose⟩
        · cases h

/-- A value begins with none of the pieces that go on in a list or an object. -/
theorem Spells.exists_cons {v : Value} (h : Spells (.value v) ps rest) :
    ∃ p tail, ps = p :: tail ∧ p ∉ [Piece.char ',', .char ']', .char '\x7d', .char ':'] := by
  cases h with
  | number isNumber split =>
      obtain ⟨p, word, rfl, hp⟩ := isNumber.exists_cons
      refine ⟨p, word ++ rest, split, ?_⟩
      rcases hp with hp | rfl
      · intro hmem
        simp only [List.mem_cons, List.not_mem_nil, or_false] at hmem
        rcases hmem with rfl | rfl | rfl | rfl <;> cases hp
      · simp
  | _ => exact ⟨_, _, rfl, by simp⟩

section

variable {p : Piece} {qs tail : List Piece}

theorem skipValue_number (h : skipSpace qs = p :: ps) (hp : isDigit p = true ∨ p = .char '-') :
    skipValue (fuel + 1) qs = (numeral (p :: ps)).map (·.2) := by
  rw [skipValue, h]
  rcases hp with hp | rfl
  · split
    case h_1 heq => cases heq
    all_goals
      next heq =>
        cases heq
        first
          | cases hp
          | simp only [hp, Bool.true_or, if_true]
  · rfl

theorem skipValue_emptyList (h : skipSpace qs = .char '[' :: ps)
    (hclose : skipSpace ps = .char ']' :: rest) : skipValue (fuel + 1) qs = .ok rest := by
  rw [skipValue, h]
  simp only [hclose]

theorem skipValue_list (h : skipSpace qs = .char '[' :: ps) (hopen : skipSpace ps = p :: tail)
    (hp : p ≠ .char ']') : skipValue (fuel + 1) qs = skipItems fuel ps := by
  rw [skipValue, h]
  simp only [hopen]
  split
  · next heq => cases heq
  · next heq =>
      cases heq
      exact absurd rfl hp
  · rfl

theorem skipValue_emptyObject (h : skipSpace qs = .char '\x7b' :: ps)
    (hclose : skipSpace ps = .char '\x7d' :: rest) : skipValue (fuel + 1) qs = .ok rest := by
  rw [skipValue, h]
  simp only [hclose]

theorem skipValue_object (h : skipSpace qs = .char '\x7b' :: ps) (hopen : skipSpace ps = p :: tail)
    (hp : p ≠ .char '\x7d') : skipValue (fuel + 1) qs = skipMembers fuel ps := by
  rw [skipValue, h]
  simp only [hopen]
  split
  · next heq => cases heq
  · next heq =>
      cases heq
      exact absurd rfl hp
  · rfl

end

/-- The first of several items, and the first of several members. -/
theorem Spells.exists_item {vs : List Value} (h : Spells (.items vs) ps rest) :
    ∃ p tail, skipSpace ps = p :: tail ∧ p ≠ .char ']' := by
  cases h with
  | lastItem first | moreItems first =>
      obtain ⟨p, tail, hp, hnone⟩ := first.exists_cons
      exact ⟨p, tail, hp, fun heq => hnone (by simp [heq])⟩

theorem Spells.exists_member {ms : List (Units × Value)} (h : Spells (.members ms) ps rest) :
    ∃ tail, skipSpace ps = .char '"' :: tail := by
  cases h with
  | lastMember first | moreMembers first =>
      cases first with
      | member opening => exact ⟨_, opening⟩

/-- Whether a phrase is passed over whole, with steps enough for its pieces. -/
def IsSkipped : Phrase → List Piece → List Piece → Prop
  | .value _, ps, rest => IsEnd rest → ∀ fuel qs, skipSpace qs = ps → 2 * ps.length < fuel →
      skipValue fuel qs = .ok rest
  | .member _ _, ps, rest => IsEnd rest → ∃ ps', ps'.length < ps.length ∧
      skipKey (ps.length + 1) ps = .ok ps' ∧
        ∀ fuel, 2 * ps'.length < fuel → skipValue fuel ps' = .ok rest
  | .items _, ps, rest => ∀ fuel, 2 * ps.length + 1 < fuel → skipItems fuel ps = .ok rest
  | .members _, ps, rest => ∀ fuel, 2 * ps.length + 1 < fuel → skipMembers fuel ps = .ok rest

theorem Spells.isSkipped {phrase : Phrase} (h : Spells phrase ps rest) :
    IsSkipped phrase ps rest := by
  have hsucc : ∀ {n fuel : Nat}, n < fuel → ∃ fuel', fuel = fuel' + 1 := fun h =>
    ⟨_, (Nat.succ_pred_eq_of_pos (Nat.zero_lt_of_lt h)).symm⟩
  induction h with
  | null | yes | no =>
      intro _ fuel qs hqs hfuel
      obtain ⟨fuel, rfl⟩ := hsucc hfuel
      rw [skipValue, hqs]
      exact map_eq_ok_iff.mpr ⟨_, expectWord_eq_ok_iff.mpr rfl, rfl⟩
  | text string =>
      intro _ fuel qs hqs hfuel
      obtain ⟨fuel, rfl⟩ := hsucc hfuel
      rw [skipValue, hqs]
      exact skipString_complete string (Nat.lt_succ_self _)
  | number isNumber split =>
      intro hend fuel qs hqs hfuel
      obtain ⟨fuel, rfl⟩ := hsucc hfuel
      obtain ⟨n, hnumeral⟩ := numeral_complete isNumber hend
      obtain ⟨p, word, rfl, hp⟩ := isNumber.exists_cons
      rw [skipValue_number (hqs.trans split) hp]
      exact map_eq_ok_iff.mpr ⟨_, hnumeral, rfl⟩
  | emptyList close =>
      intro _ fuel qs hqs hfuel
      obtain ⟨fuel, rfl⟩ := hsucc hfuel
      exact skipValue_emptyList hqs close
  | emptyObject close =>
      intro _ fuel qs hqs hfuel
      obtain ⟨fuel, rfl⟩ := hsucc hfuel
      exact skipValue_emptyObject hqs close
  | list items ih =>
      intro _ fuel qs hqs hfuel
      obtain ⟨fuel, rfl⟩ := hsucc hfuel
      obtain ⟨p, tail, hopen, hp⟩ := items.exists_item
      rw [List.length_cons] at hfuel
      rw [skipValue_list hqs hopen hp, ih fuel (by omega)]
  | object members ih =>
      intro _ fuel qs hqs hfuel
      obtain ⟨fuel, rfl⟩ := hsucc hfuel
      obtain ⟨tail, hopen⟩ := members.exists_member
      rw [List.length_cons] at hfuel
      rw [skipValue_object hqs hopen (by decide), ih fuel (by omega)]
  | @lastItem v ps ps' rest first close ih =>
      intro fuel hfuel
      obtain ⟨fuel, rfl⟩ := hsucc hfuel
      have hlength := length_skipSpace_le ps
      have hend : IsEnd ps' := isEnd_of_next close (by simp)
      rw [skipItems, ih hend fuel ps rfl (by omega)]
      simp only [close]
  | @moreItems v vs ps ps' ps'' rest first comma next ih ih' =>
      intro fuel hfuel
      obtain ⟨fuel, rfl⟩ := hsucc hfuel
      have hlength := length_skipSpace_le ps
      have hcomma := length_of_skipSpace comma
      have hfirst := first.length_lt
      have hend : IsEnd ps' := isEnd_of_next comma (by simp)
      rw [skipItems, ih hend fuel ps rfl (by omega)]
      simp only [comma]
      exact ih' fuel (by omega)
  | @member us v ps ps₁ ps₂ ps₃ rest opening key colon value ih =>
      intro hend
      have hkey : SpellsKey us ps ps₃ := ⟨ps₁, ps₂, opening, key, colon⟩
      have hopening := length_of_skipSpace opening
      have hstring := key.length_lt
      have hcolon := length_of_skipSpace colon
      refine ⟨ps₃, by omega, skipKey_complete hkey (Nat.lt_succ_self _), fun fuel hfuel => ?_⟩
      have hlength := length_skipSpace_le ps₃
      exact ih hend fuel ps₃ rfl (by omega)
  | @lastMember us v ps ps' rest first close ih =>
      intro fuel hfuel
      obtain ⟨fuel, rfl⟩ := hsucc hfuel
      have hend : IsEnd ps' := isEnd_of_next close (by simp)
      obtain ⟨qs, hlength, hkey, hvalue⟩ := ih hend
      rw [skipMembers, hkey]
      simp only [hvalue fuel (by omega), close]
  | @moreMembers us v ms ps ps' ps'' rest first comma next ih ih' =>
      intro fuel hfuel
      obtain ⟨fuel, rfl⟩ := hsucc hfuel
      have hcomma := length_of_skipSpace comma
      have hfirst := first.length_lt
      have hend : IsEnd ps' := isEnd_of_next comma (by simp)
      obtain ⟨qs, hlength, hkey, hvalue⟩ := ih hend
      rw [skipMembers, hkey]
      simp only [hvalue fuel (by omega), comma]
      exact ih' fuel (by omega)

/-- A value is passed over iff there is one. -/
theorem skip_eq_ok_of_spells {v : Value} (h : Spells (.value v) (skipSpace ps) rest)
    (hend : IsEnd rest) : skip ps = .ok rest := by
  have hlength := length_skipSpace_le ps
  exact h.isSkipped hend _ ps rfl (by omega)

theorem spells_of_skip (h : skip ps = .ok rest) : ∃ v, Spells (.value v) (skipSpace ps) rest :=
  (skip_sound _).1 ps rest h

end ModuleOutputs.Json
