import ModuleOutputs.Proofs.Json.Skipping

/-!
A text is at most one value. The first piece of a value tells its kind, a string ends at its
first bare quote, and a number ends where one can end.
-/

namespace ModuleOutputs.Json

open Text (Piece)

variable {ps rest rest' : List Piece}

theorem SpellsString.unique {us us' : Units} (h : SpellsString us ps rest)
    (h' : SpellsString us' ps rest') : us' = us ∧ rest' = rest := by
  induction h generalizing us' with
  | close =>
      cases h' with
      | close => exact ⟨rfl, rfl⟩
      | plain noQuote => exact absurd rfl noQuote
  | plain noQuote noEscape noControl next ih =>
      cases h' with
      | close => exact absurd rfl noQuote
      | plain _ _ _ next' =>
          obtain ⟨rfl, rfl⟩ := ih next'
          exact ⟨rfl, rfl⟩
      | short | code => exact absurd rfl noEscape
  | stray next ih =>
      cases h' with
      | stray next' =>
          obtain ⟨rfl, rfl⟩ := ih next'
          exact ⟨rfl, rfl⟩
  | short escape next ih =>
      cases h' with
      | plain _ noEscape => exact absurd rfl noEscape
      | short escape' next' =>
          obtain ⟨rfl, rfl⟩ := ih next'
          rw [escape] at escape'
          cases escape'
          exact ⟨rfl, rfl⟩
      | code => exact absurd rfl (ne_of_shortEscape escape)
  | code four value split next ih =>
      cases h' with
      | plain _ noEscape => exact absurd rfl noEscape
      | short escape => exact absurd rfl (ne_of_shortEscape escape)
      | code four' value' split' next' =>
          obtain ⟨rfl, rfl⟩ := List.append_inj (split.symm.trans split') (four.trans four'.symm)
          obtain ⟨rfl, rfl⟩ := ih next'
          rw [value] at value'
          cases value'
          exact ⟨rfl, rfl⟩

theorem IsNumber.unique {word word' : List Piece} (h : IsNumber word) (h' : IsNumber word')
    (hrest : IsEnd rest) (hrest' : IsEnd rest') (heq : word ++ rest = word' ++ rest') :
    word' = word ∧ rest' = rest := by
  obtain ⟨n, hread⟩ := numeral_complete h hrest
  obtain ⟨n', hread'⟩ := numeral_complete h' hrest'
  rw [heq, hread'] at hread
  cases hread
  exact ⟨(List.append_cancel_right heq).symm, rfl⟩

/-- Whether a phrase is the only one of its kind with which some pieces begin. -/
def IsOnly : Phrase → List Piece → List Piece → Prop
  | .value v, ps, rest => IsEnd rest → ∀ v' rest', Spells (.value v') ps rest' → IsEnd rest' →
      v' = v ∧ rest' = rest
  | .member us v, ps, rest => IsEnd rest → ∀ us' v' rest', Spells (.member us' v') ps rest' →
      IsEnd rest' → (us' = us ∧ v' = v) ∧ rest' = rest
  | .items vs, ps, rest => ∀ vs' rest', Spells (.items vs') ps rest' → vs' = vs ∧ rest' = rest
  | .members ms, ps, rest => ∀ ms' rest', Spells (.members ms') ps rest' →
      ms' = ms ∧ rest' = rest

theorem Spells.isOnly {phrase : Phrase} (h : Spells phrase ps rest) :
    IsOnly phrase ps rest := by
  -- A number begins like no other value.
  have hnumber : ∀ {p : Piece} {word ps rest : List Piece}, IsNumber word → p :: ps = word ++ rest →
      isDigit p = true ∨ p = .char '-' := by
    intro p word ps rest hword hsplit
    obtain ⟨p', word', rfl, hp⟩ := hword.exists_cons
    cases hsplit
    exact hp
  have hclose : ∀ {p p' : Piece} {ps tail tail' : List Piece}, skipSpace ps = p :: tail →
      skipSpace ps = p' :: tail' → p' = p ∧ tail' = tail := by
    intro p p' ps tail tail' h h'
    rw [h] at h'
    cases h'
    exact ⟨rfl, rfl⟩
  induction h with
  | null =>
      intro _ v' rest' h' _
      cases h' with
      | null => exact ⟨rfl, rfl⟩
      | number isNumber split => rcases hnumber isNumber split with hp | hp <;> cases hp
  | yes =>
      intro _ v' rest' h' _
      cases h' with
      | yes => exact ⟨rfl, rfl⟩
      | number isNumber split => rcases hnumber isNumber split with hp | hp <;> cases hp
  | no =>
      intro _ v' rest' h' _
      cases h' with
      | no => exact ⟨rfl, rfl⟩
      | number isNumber split => rcases hnumber isNumber split with hp | hp <;> cases hp
  | number isNumber split =>
      intro hend v' rest' h' hend'
      cases h' with
      | number isNumber' split' =>
          obtain ⟨rfl, rfl⟩ := isNumber.unique isNumber' hend hend' (split.symm.trans split')
          exact ⟨rfl, rfl⟩
      | _ => rcases hnumber isNumber split with hp | hp <;> cases hp
  | text string =>
      intro _ v' rest' h' _
      cases h' with
      | text string' =>
          obtain ⟨rfl, rfl⟩ := string.unique string'
          exact ⟨rfl, rfl⟩
      | number isNumber split => rcases hnumber isNumber split with hp | hp <;> cases hp
  | emptyList close =>
      intro _ v' rest' h' _
      cases h' with
      | emptyList close' => exact ⟨rfl, (hclose close close').2⟩
      | list items =>
          obtain ⟨p, tail, hspace, hp⟩ := items.exists_item
          exact absurd (hclose close hspace).1 hp
      | number isNumber split => rcases hnumber isNumber split with hp | hp <;> cases hp
  | list items ih =>
      intro _ v' rest' h' _
      cases h' with
      | emptyList close =>
          obtain ⟨p, tail, hspace, hp⟩ := items.exists_item
          exact absurd (hclose close hspace).1 hp
      | list items' =>
          obtain ⟨rfl, rfl⟩ := ih _ _ items'
          exact ⟨rfl, rfl⟩
      | number isNumber split => rcases hnumber isNumber split with hp | hp <;> cases hp
  | emptyObject close =>
      intro _ v' rest' h' _
      cases h' with
      | emptyObject close' => exact ⟨rfl, (hclose close close').2⟩
      | object members =>
          obtain ⟨tail, hspace⟩ := members.exists_member
          cases (hclose close hspace).1
      | number isNumber split => rcases hnumber isNumber split with hp | hp <;> cases hp
  | object members ih =>
      intro _ v' rest' h' _
      cases h' with
      | emptyObject close =>
          obtain ⟨tail, hspace⟩ := members.exists_member
          cases (hclose close hspace).1
      | object members' =>
          obtain ⟨rfl, rfl⟩ := ih _ _ members'
          exact ⟨rfl, rfl⟩
      | number isNumber split => rcases hnumber isNumber split with hp | hp <;> cases hp
  | lastItem first close ih =>
      intro vs' rest' h'
      cases h' with
      | lastItem first' close' =>
          obtain ⟨rfl, rfl⟩ := ih (isEnd_of_next close (by simp)) _ _ first'
            (isEnd_of_next close' (by simp))
          exact ⟨rfl, (hclose close close').2⟩
      | moreItems first' comma' =>
          obtain ⟨rfl, rfl⟩ := ih (isEnd_of_next close (by simp)) _ _ first'
            (isEnd_of_next comma' (by simp))
          cases (hclose close comma').1
  | moreItems first comma next ih ih' =>
      intro vs' rest' h'
      cases h' with
      | lastItem first' close' =>
          obtain ⟨rfl, rfl⟩ := ih (isEnd_of_next comma (by simp)) _ _ first'
            (isEnd_of_next close' (by simp))
          cases (hclose comma close').1
      | moreItems first' comma' next' =>
          obtain ⟨rfl, rfl⟩ := ih (isEnd_of_next comma (by simp)) _ _ first'
            (isEnd_of_next comma' (by simp))
          obtain ⟨-, rfl⟩ := hclose comma comma'
          obtain ⟨rfl, rfl⟩ := ih' _ _ next'
          exact ⟨rfl, rfl⟩
  | member opening key colon value ih =>
      intro hend us' v' rest' h' hend'
      cases h' with
      | member opening' key' colon' value' =>
          obtain ⟨-, rfl⟩ := hclose opening opening'
          obtain ⟨rfl, rfl⟩ := key.unique key'
          obtain ⟨-, rfl⟩ := hclose colon colon'
          obtain ⟨rfl, rfl⟩ := ih hend _ _ value' hend'
          exact ⟨⟨rfl, rfl⟩, rfl⟩
  | lastMember first close ih =>
      intro ms' rest' h'
      cases h' with
      | lastMember first' close' =>
          obtain ⟨⟨rfl, rfl⟩, rfl⟩ := ih (isEnd_of_next close (by simp)) _ _ _ first'
            (isEnd_of_next close' (by simp))
          exact ⟨rfl, (hclose close close').2⟩
      | moreMembers first' comma' =>
          obtain ⟨-, rfl⟩ := ih (isEnd_of_next close (by simp)) _ _ _ first'
            (isEnd_of_next comma' (by simp))
          cases (hclose close comma').1
  | moreMembers first comma next ih ih' =>
      intro ms' rest' h'
      cases h' with
      | lastMember first' close' =>
          obtain ⟨-, rfl⟩ := ih (isEnd_of_next comma (by simp)) _ _ _ first'
            (isEnd_of_next close' (by simp))
          cases (hclose comma close').1
      | moreMembers first' comma' next' =>
          obtain ⟨⟨rfl, rfl⟩, rfl⟩ := ih (isEnd_of_next comma (by simp)) _ _ _ first'
            (isEnd_of_next comma' (by simp))
          obtain ⟨-, rfl⟩ := hclose comma comma'
          obtain ⟨rfl, rfl⟩ := ih' _ _ next'
          exact ⟨rfl, rfl⟩

/-- A text is one value at most. -/
theorem IsDocument.unique {v v' : Value} (h : IsDocument v ps) (h' : IsDocument v' ps) :
    v' = v := by
  obtain ⟨rest, hv, hend⟩ := h
  obtain ⟨rest', hv', hend'⟩ := h'
  refine (hv.isOnly (isEnd_of_skipSpace ?_) _ _ hv' (isEnd_of_skipSpace ?_)).1
  · rw [hend]
    exact isEnd_nil
  · rw [hend']
    exact isEnd_nil

end ModuleOutputs.Json
