import Mathlib.Data.List.Forall2
import ModuleOutputs.Json.Read
import ModuleOutputs.Proofs.Json.Skipping

/-!
Readers, against the grammar. A reader has a meaning: what it makes of a value, if it makes
anything of it. It reads what spells a value of which its meaning makes something, and
nothing else, so the result depends on the value alone and not on how it is spelled.
-/

namespace ModuleOutputs.Json

open Text (Piece)

variable {α : Type} {ps ps' rest tail : List Piece} {depth fuel : Nat}

/-- Whether a reader reads the values of which `means` makes something, as what it makes of
them. -/
structure Means (read : Reader α) (means : Nat → Value → Option α) : Prop where
  sound {depth : Nat} {ps rest : List Piece} {a : α} (h : read depth ps = .ok (a, rest)) :
    ∃ v, Spells (.value v) (skipSpace ps) rest ∧ means depth v = some a
  complete {depth : Nat} {ps rest : List Piece} {v : Value} {a : α}
    (h : Spells (.value v) (skipSpace ps) rest) (hv : means depth v = some a) :
    read depth ps = .ok (a, rest)

/-- Pieces are read as what their value means. -/
theorem Means.decodePieces_eq_ok_iff {read : Reader α} {means : Nat → Value → Option α}
    (h : Means read means) {a : α} :
    decodePieces read ps = .ok a ↔ ∃ v, IsDocument v ps ∧ means depthLimit v = some a := by
  unfold decodePieces
  constructor
  · intro hdecode
    split at hdecode
    · cases hdecode
    · next b rest hread =>
        obtain ⟨v, hv, hmeans⟩ := h.sound hread
        split at hdecode
        · next hend =>
            cases hdecode
            exact ⟨v, ⟨rest, hv, hend⟩, hmeans⟩
        · cases hdecode
  · rintro ⟨v, ⟨rest, hv, hend⟩, hmeans⟩
    rw [h.complete hv hmeans]
    simp only [hend]

/-- A text is read as what its value means. -/
theorem Means.decode_eq_ok_iff {read : Reader α} {means : Nat → Value → Option α}
    (h : Means read means) {text : String} {a : α} :
    decode read text = .ok a ↔
      ∃ v, IsDocument v (Text.piecesOf text) ∧ means depthLimit v = some a :=
  h.decodePieces_eq_ok_iff

theorem Means.map {β : Type} {read : Reader α} {means : Nat → Value → Option α}
    (h : Means read means) (f : α → β) :
    Means (fun depth ps => (read depth ps).map fun (a, rest) => (f a, rest))
      fun depth v => (means depth v).map f where
  sound hread := by
    obtain ⟨⟨a, rest'⟩, hread, heq⟩ := map_eq_ok_iff.mp hread
    cases heq
    obtain ⟨v, hv, hmeans⟩ := h.sound hread
    exact ⟨v, hv, by rw [hmeans]; rfl⟩
  complete hv hmeans := by
    obtain ⟨a, ha, rfl⟩ := Option.map_eq_some_iff.mp hmeans
    exact map_eq_ok_iff.mpr ⟨_, h.complete hv ha, rfl⟩

/-! ## Texts -/

def Value.text? : Value → Option String
  | .text us => us.text?
  | _ => none

theorem readText_means : Means readText fun _ => Value.text? where
  sound h := by
    unfold readText at h
    split at h
    · next hspace =>
        obtain ⟨us, hus, htext⟩ := string_eq_ok_iff.mp h
        exact ⟨.text us, hspace ▸ .text hus, htext⟩
    · cases h
  complete h hv := by
    unfold readText
    generalize skipSpace _ = qs at h ⊢
    cases h with
    | text string => exact string_eq_ok_iff.mpr ⟨_, string, hv⟩
    | _ => cases hv

def Value.option? (means : Value → Option α) : Value → Option (Option α)
  | .null => some none
  | v => (means v).map some

/-- Nothing else begins like `null`. -/
theorem eq_null_of_spells {v : Value} (h : Spells (.value v) (.char 'n' :: ps) rest) :
    v = .null := by
  cases h with
  | null => rfl
  | number isNumber split =>
      obtain ⟨p, word, rfl, hp⟩ := isNumber.exists_cons
      cases split
      rcases hp with hp | hp <;> cases hp

theorem readOption_means {read : Reader α} {means : Nat → Value → Option α} (h : Means read means)
    (hnull : ∀ depth, means depth .null = none) :
    Means (readOption read) fun depth => Value.option? (means depth) where
  sound {depth ps rest o} hread := by
    unfold readOption at hread
    split at hread
    · next hspace =>
        obtain ⟨⟨⟨⟩, rest'⟩, hword, heq⟩ := map_eq_ok_iff.mp hread
        cases heq
        rw [hspace, expectWord_eq_ok_iff.mp hword]
        exact ⟨.null, .null, rfl⟩
    · obtain ⟨⟨a, rest'⟩, hvalue, heq⟩ := map_eq_ok_iff.mp hread
      cases heq
      obtain ⟨v, hv, hmeans⟩ := h.sound hvalue
      rw [skipSpace_idem] at hv
      refine ⟨v, hv, ?_⟩
      cases v with
      | null =>
          rw [hnull] at hmeans
          cases hmeans
      | _ => simp only [Value.option?, hmeans, Option.map_some]
  complete {depth ps rest v o} hv hmeans := by
    unfold readOption
    split
    · next hspace =>
        rw [hspace] at hv
        obtain rfl := eq_null_of_spells hv
        cases hmeans
        cases hv with
        | null => exact map_eq_ok_iff.mpr ⟨_, expectWord_eq_ok_iff.mpr rfl, rfl⟩
    · next hother =>
        cases v with
        | null =>
            generalize skipSpace ps = qs at hv hother
            cases hv with
            | null => exact absurd rfl (hother _)
        | _ =>
            obtain ⟨a, ha, rfl⟩ := Option.map_eq_some_iff.mp hmeans
            exact map_eq_ok_iff.mpr ⟨_, h.complete (by rwa [skipSpace_idem]) ha, rfl⟩

/-- A string, where `null` stands for the empty one. -/
def Value.textOrNull? : Value → Option String
  | .null => some ""
  | .text us => us.text?
  | _ => none

theorem readTextOrNull_means : Means readTextOrNull fun _ => Value.textOrNull? := by
  have hmeans := (readOption_means readText_means fun _ => rfl).map (·.getD "")
  have hvalue : ∀ v : Value, (Value.option? Value.text? v).map (·.getD "") = v.textOrNull? := by
    intro v
    cases v with
    | text us => cases h : us.text? <;> simp [Value.textOrNull?, Value.option?, Value.text?, h]
    | _ => rfl
  simp only [hvalue] at hmeans
  exact hmeans

/-! ## Lists -/

/-- Where the next item or member begins: at once if it is the first, or behind a comma. -/
def GoesOn (first : Bool) (ps ps' : List Piece) : Prop :=
  if first then ps' = ps else skipSpace ps = .char ',' :: ps'

theorem nextItem_sound {first more : Bool} (h : nextItem first ps = .ok (more, rest)) :
    more = false ∧ skipSpace ps = .char ']' :: rest ∨
      more = true ∧ ∃ ps', GoesOn first ps ps' ∧ rest = skipSpace ps' := by
  unfold nextItem at h
  split at h
  · cases h
  · next hclose =>
      cases h
      exact .inl ⟨rfl, hclose⟩
  · next p tail _ hspace =>
      split at h
      · next hfirst =>
          cases h
          exact .inr ⟨rfl, ps, by rw [hfirst]; rfl, hspace.symm⟩
      next hfirst =>
      split at h
      · next hcomma =>
          subst hcomma
          split at h
          · cases h
          · cases h
          · next hspace' =>
              cases h
              refine .inr ⟨rfl, tail, ?_, rfl⟩
              rw [GoesOn, if_neg hfirst]
              exact hspace
      · cases h

theorem nextItem_of_close (first : Bool) (h : skipSpace ps = .char ']' :: rest) :
    nextItem first ps = .ok (false, rest) := by
  rw [nextItem, h]
  rfl

theorem nextItem_of_goesOn {first : Bool} {p : Piece} (h : GoesOn first ps ps')
    (hspace : skipSpace ps' = p :: tail) (hp : p ≠ .char ']') :
    nextItem first ps = .ok (true, p :: tail) := by
  unfold nextItem
  cases first with
  | true =>
      obtain rfl : ps' = ps := h
      rw [hspace]
      split
      · next heq => cases heq
      · next heq =>
          cases heq
          exact absurd rfl hp
      · next heq =>
          cases heq
          rfl
  | false =>
      have hcomma : skipSpace ps = .char ',' :: ps' := h
      rw [hcomma]
      split
      · next heq => cases heq
      · next heq => cases heq
      · next heq =>
          cases heq
          rw [if_neg Bool.false_ne_true, if_pos rfl, hspace]
          split
          · next heq => cases heq
          · next heq =>
              cases heq
              exact absurd rfl hp
          · rfl

theorem mapM_eq_some_iff {β : Type} {f : α → Option β} {as : List α} {bs : List β} :
    as.mapM f = some bs ↔ List.Forall₂ (fun a b => f a = some b) as bs := by
  induction as generalizing bs with
  | nil => simp [eq_comm]
  | cons a as ih =>
      simp only [List.mapM_cons, Option.bind_eq_bind, Option.bind_eq_some_iff, Option.pure_def,
        Option.some.injEq, ih, List.forall₂_cons_left_iff]
      constructor
      · rintro ⟨b, hb, bs', hbs', rfl⟩
        exact ⟨b, bs', hb, hbs', rfl⟩
      · rintro ⟨b, bs', hb, hbs', rfl⟩
        exact ⟨b, hb, bs', hbs', rfl⟩

def Value.list? (means : Value → Option α) : Value → Option (List α)
  | .list vs => vs.mapM means
  | _ => none

/-- Lists, which are opened as long as the depth allows. -/
def listMeaning (means : Nat → Value → Option α) : Nat → Value → Option (List α)
  | 0, _ => none
  | depth + 1, v => v.list? (means depth)

theorem listMeaning_eq_some_iff {means : Nat → Value → Option α} {v : Value} {as : List α} :
    listMeaning means (depth + 1) v = some as ↔
      ∃ vs, v = .list vs ∧ List.Forall₂ (fun v a => means depth v = some a) vs as := by
  rw [listMeaning]
  cases v with
  | list vs => simp [Value.list?, mapM_eq_some_iff]
  | _ => exact ⟨nofun, fun ⟨_, h, _⟩ => nomatch h⟩

theorem itemsFrom_sound {read : Reader α} {means : Nat → Value → Option α} (h : Means read means)
    {first : Bool} {as : List α}
    (hread : itemsFrom (read depth) fuel first ps = .ok (as, rest)) :
    skipSpace ps = .char ']' :: rest ∧ as = [] ∨ ∃ ps' vs, GoesOn first ps ps' ∧
      Spells (.items vs) ps' rest ∧ List.Forall₂ (fun v a => means depth v = some a) vs as := by
  induction fuel generalizing first ps as with
  | zero => cases hread
  | succ fuel ih =>
      obtain ⟨⟨more, tail⟩, hnext, hread⟩ := bind_eq_ok_iff.mp hread
      rcases nextItem_sound hnext with ⟨rfl, hclose⟩ | ⟨rfl, ps', hgoes, rfl⟩
      · cases hread
        exact .inl ⟨hclose, rfl⟩
      · obtain ⟨⟨a, ps₁⟩, hfirst, hread⟩ := bind_eq_ok_iff.mp hread
        obtain ⟨⟨as', rest'⟩, hothers, heq⟩ := bind_eq_ok_iff.mp hread
        cases heq
        obtain ⟨v, hv, hmeans⟩ := h.sound hfirst
        rw [skipSpace_idem] at hv
        refine .inr ⟨ps', ?_⟩
        rcases ih hothers with ⟨hclose, rfl⟩ | ⟨ps₂, vs, hcomma, hvs, hmeans'⟩
        · exact ⟨[v], hgoes, .lastItem hv hclose, .cons hmeans .nil⟩
        · exact ⟨v :: vs, hgoes, .moreItems hv hcomma hvs, .cons hmeans hmeans'⟩

theorem itemsFrom_of_close (read : List Piece → Except Fault (α × List Piece)) (first : Bool)
    (h : skipSpace ps = .char ']' :: rest) : itemsFrom read (fuel + 1) first ps = .ok ([], rest) :=
  bind_eq_ok_iff.mpr ⟨_, nextItem_of_close first h, rfl⟩

theorem itemsFrom_complete {read : Reader α} {means : Nat → Value → Option α}
    (h : Means read means) {first : Bool} {vs : List Value} {as : List α}
    (hvs : Spells (.items vs) ps' rest) (hgoes : GoesOn first ps ps')
    (hmeans : List.Forall₂ (fun v a => means depth v = some a) vs as) (hfuel : ps'.length < fuel) :
    itemsFrom (read depth) fuel first ps = .ok (as, rest) := by
  induction fuel generalizing first ps ps' vs as with
  | zero => exact absurd hfuel (Nat.not_lt_zero _)
  | succ fuel ih =>
      obtain ⟨p, tail, hspace, hp⟩ := hvs.exists_item
      have hnext := nextItem_of_goesOn hgoes hspace hp
      have hlength := length_skipSpace_le ps'
      -- The first item is read, and the others where it ends.
      have hfirst : ∀ {v ps₁ a as'}, Spells (.value v) (skipSpace ps') ps₁ →
          means depth v = some a → itemsFrom (read depth) fuel false ps₁ = .ok (as', rest) →
            itemsFrom (read depth) (fuel + 1) first ps = .ok (a :: as', rest) := by
        intro v ps₁ a as' hv ha hothers
        rw [← skipSpace_idem, hspace] at hv
        exact bind_eq_ok_iff.mpr ⟨_, hnext, bind_eq_ok_iff.mpr ⟨_, h.complete hv ha,
          bind_eq_ok_iff.mpr ⟨_, hothers, rfl⟩⟩⟩
      cases hvs with
      | lastItem hv close =>
          obtain ⟨a, as', ha, hnil, rfl⟩ := List.forall₂_cons_left_iff.mp hmeans
          obtain rfl := List.forall₂_nil_left_iff.mp hnil
          have hlength' := hv.length_lt
          obtain ⟨fuel, rfl⟩ : ∃ fuel', fuel = fuel' + 1 := ⟨fuel - 1, by omega⟩
          exact hfirst hv ha (itemsFrom_of_close _ false close)
      | moreItems hv comma hothers =>
          obtain ⟨a, as', ha, has', rfl⟩ := List.forall₂_cons_left_iff.mp hmeans
          have hlength' := hv.length_lt
          have hcomma := length_of_skipSpace comma
          exact hfirst hv ha (ih hothers comma has' (by omega))

theorem readList_means {read : Reader α} {means : Nat → Value → Option α} (h : Means read means) :
    Means (readList read) (listMeaning means) where
  sound {depth ps rest as} hread := by
    unfold readList at hread
    split at hread
    · next tail hspace =>
        split at hread
        · cases hread
        · next depth =>
            rcases itemsFrom_sound h hread with ⟨hclose, rfl⟩ | ⟨_, vs, rfl, hvs, hmeans⟩
            · exact ⟨.list [], hspace ▸ .emptyList hclose, rfl⟩
            · exact ⟨.list vs, hspace ▸ .list hvs, mapM_eq_some_iff.mpr hmeans⟩
    · cases hread
  complete {depth ps rest v as} hv hmeans := by
    cases depth with
    | zero => cases hmeans
    | succ depth =>
        unfold readList
        generalize skipSpace ps = qs at hv ⊢
        cases hv with
        | emptyList close =>
            cases hmeans
            exact itemsFrom_of_close _ true close
        | list items =>
            exact itemsFrom_complete h items rfl (mapM_eq_some_iff.mp hmeans) (Nat.lt_succ_self _)
        | _ => cases hmeans

end ModuleOutputs.Json
