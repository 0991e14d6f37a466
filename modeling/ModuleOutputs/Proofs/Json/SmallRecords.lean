import ModuleOutputs.Proofs.Json.Records

/-!
Records of one field, and records of two fields of one kind that may be missing. A record is
written as an object or as a list, and either way it means what the values given for its fields
mean.
-/

namespace ModuleOutputs.Json

variable {α β : Type} {depth : Nat}

/-! ## Records of one field -/

/-- Whether a value gives these values for the one field of a record: under its key in an object,
or as the items of a list. -/
inductive Gives (key : String) : Value → List Value → Prop
  | object {ms : List (Units × Value)} {vs : List Value} (keys : KeysSpell ms)
      (values : valuesOf key ms = vs) : Gives key (.object ms) vs
  | list {vs : List Value} : Gives key (.list vs) vs

theorem Gives.unique {key : String} {v : Value} {vs vs' : List Value} (h : Gives key v vs)
    (h' : Gives key v vs') : vs = vs' := by
  cases h with
  | object _ hvalues =>
      cases h' with
      | object _ hvalues' => exact hvalues.symm.trans hvalues'
  | list =>
      cases h' with
      | list => rfl

namespace Shape

variable {shape : Shape α} {key : String} {required : Bool} {read : Reader (α → α)}
  {field : Nat → Value → Option β} {set : β → α} {v : Value} {a : α}

/-- What a value makes of a record as the one field of it, which says all there is. -/
def onlyMeaning (key : String) (field : Nat → Value → Option β) (set : β → α) (key' : String)
    (depth : Nat) (v : Value) : Option (α → α) :=
  if key' = key then (field depth v).map fun x _ => set x else none

theorem holds_only : Holds (onlyMeaning key field set) depth key id
    fun v => (field depth v).map set where
  own {v change} h := by
    rw [onlyMeaning, if_pos rfl] at h
    obtain ⟨x, hx, rfl⟩ := Option.map_eq_some_iff.mp h
    exact ⟨set x, by rw [hx]; rfl, fun _ => rfl⟩
  other hne h _ := by
    rw [onlyMeaning, if_neg hne] at h
    cases h

/-- Whether this record is what the values given for its one field make of it. -/
def IsOnly (shape : Shape α) (required : Bool) (field : Value → Option β) (set : β → α)
    (vs : List Value) (a : α) : Prop :=
  vs = [] ∧ required = false ∧ a = shape.blank ∨
    ∃ v x, vs = [v] ∧ field v = some x ∧ a = set x

theorem ofMembers_only_eq_some_iff (only : shape.members = [⟨key, required, read⟩])
    {ms : List (Units × Value)} :
    shape.ofMembers (onlyMeaning key field set) depth ms shape.blank [] = some a ↔
      KeysSpell ms ∧ shape.IsOnly required (field depth) set (valuesOf key ms) a := by
  have hmeans : ∀ v, onlyMeaning key field set key depth v =
      (field depth v).map fun x _ => set x := fun v => if_pos rfl
  have hsound : ∀ {a}, shape.ofMembers (onlyMeaning key field set) depth ms shape.blank [] =
      some a → shape.IsOnly required (field depth) set (valuesOf key ms) a := by
    intro a h
    have hfits := (ofMembers_isSome_iff.mp (Option.isSome_of_mem h)).2 _
      (only ▸ List.mem_singleton_self _)
    obtain ⟨hnone, hblank⟩ | ⟨v, x, hvalues, hv, ha⟩ :=
      holds_only.of_ofMembers (by simp [only]) h
    · refine .inl ⟨hnone, ?_, hblank⟩
      by_contra hrequired
      rw [Bool.not_eq_false] at hrequired
      exact (hfits.found hrequired).elim (by simp) fun hne => hne hnone
    · obtain ⟨y, hy, rfl⟩ := Option.map_eq_some_iff.mp hv
      exact .inr ⟨v, y, hvalues, hy, ha⟩
  constructor
  · intro h
    exact ⟨(ofMembers_isSome_iff.mp (Option.isSome_of_mem h)).1, hsound h⟩
  · rintro ⟨hkeys, honly⟩
    have hsome : (shape.ofMembers (onlyMeaning key field set) depth ms shape.blank []).isSome := by
      refine ofMembers_isSome_iff.mpr ⟨hkeys, ?_⟩
      rw [only]
      refine List.forall_mem_singleton.mpr ?_
      rcases honly with ⟨hnone, hrequired, -⟩ | ⟨v, x, hvalues, hx, -⟩
      · exact ⟨by simp [hnone], by simp [hnone], by simp [hrequired]⟩
      · exact ⟨by simp [hvalues], by simp [hvalues, hmeans, hx], by simp [hvalues]⟩
    obtain ⟨a', ha'⟩ := Option.isSome_iff_exists.mp hsome
    rw [ha']
    rcases honly with ⟨hnone, -, rfl⟩ | ⟨v, x, hvalues, hx, rfl⟩
    · rcases hsound ha' with ⟨-, -, rfl⟩ | ⟨w, y, hvalues, -⟩
      · rfl
      · cases hnone.symm.trans hvalues
    · rcases hsound ha' with ⟨hnone, -⟩ | ⟨w, y, hvalues', hy, rfl⟩
      · cases hvalues.symm.trans hnone
      · obtain rfl : v = w := by simpa using hvalues.symm.trans hvalues'
        rw [Option.some.inj (hx.symm.trans hy)]

theorem ofItems_only_eq_some_iff (only : shape.members = [⟨key, required, read⟩])
    {vs : List Value} :
    ofItems (onlyMeaning key field set) depth shape.members vs shape.blank = some a ↔
      shape.IsOnly required (field depth) set vs a := by
  have hblank : (some shape.blank = some a) ↔ a = shape.blank :=
    Option.some_inj.trans eq_comm
  have hset : ∀ x, (some (set x) = some a) ↔ a = set x := fun x =>
    Option.some_inj.trans eq_comm
  rw [only]
  match vs with
  | [] => cases required <;> simp [ofItems, IsOnly, hblank]
  | [v] => cases hv : field depth v <;> simp [ofItems, IsOnly, onlyMeaning, hv, hset]
  | v :: _ :: _ => cases hv : field depth v <;> simp [ofItems, IsOnly, onlyMeaning, hv]

/-- A record of one field means what the one value given for it means. Without a value it is
blank, unless the field must be there. -/
theorem meaning_only_eq_some_iff (only : shape.members = [⟨key, required, read⟩]) :
    shape.meaning (onlyMeaning key field set) (depth + 1) v = some a ↔
      ∃ vs, Gives key v vs ∧ shape.IsOnly required (field depth) set vs a := by
  cases v with
  | object ms =>
      refine (ofMembers_only_eq_some_iff only).trans ⟨?_, ?_⟩
      · rintro ⟨hkeys, honly⟩
        exact ⟨_, .object hkeys rfl, honly⟩
      · rintro ⟨_, ⟨hkeys, rfl⟩, honly⟩
        exact ⟨hkeys, honly⟩
  | list vs =>
      refine (ofItems_only_eq_some_iff only).trans ⟨?_, ?_⟩
      · intro honly
        exact ⟨vs, .list, honly⟩
      · rintro ⟨_, ⟨⟩, honly⟩
        exact honly
  | _ => exact ⟨nofun, fun ⟨_, hgives, _⟩ => nomatch hgives⟩

end Shape

/-! ## Records of two fields of one kind -/

/-- Whether this is what a field holds by the values given for it, of which there is one at most.
Without a value it holds what it held before. -/
def IsHeld (meansField : Value → Option β) (before : β) (vs : List Value) (x : β) : Prop :=
  vs = [] ∧ x = before ∨ ∃ v y, vs = [v] ∧ meansField v = some y ∧ x = y

section

variable {meansField : Value → Option β} {before x x' : β} {v w : Value} {vs : List Value}

theorem isHeld_nil_iff : IsHeld meansField before [] x ↔ x = before := by
  simp [IsHeld]

theorem isHeld_singleton_iff : IsHeld meansField before [v] x ↔ meansField v = some x := by
  simp [IsHeld]

theorem not_isHeld_of_two : ¬ IsHeld meansField before (v :: w :: vs) x := by
  simp [IsHeld]

end

/-- What a record of two fields of one kind holds. It holds nothing else. -/
structure Pair (α β : Type) where
  first : α → β
  second : α → β
  setFirst : β → α → α
  setSecond : β → α → α
  first_setFirst (x : β) (a : α) : first (setFirst x a) = x
  first_setSecond (x : β) (a : α) : first (setSecond x a) = first a
  second_setFirst (x : β) (a : α) : second (setFirst x a) = second a
  second_setSecond (x : β) (a : α) : second (setSecond x a) = x
  ext {a b : α} (hfirst : first a = first b) (hsecond : second a = second b) : a = b

/-- Whether a value gives these values for the two fields of a record: under their keys in an
object, or as the items of a list, the first field first. -/
inductive GivesBoth (key₁ key₂ : String) : Value → List Value → List Value → Prop
  | object {ms : List (Units × Value)} (keys : KeysSpell ms) :
      GivesBoth key₁ key₂ (.object ms) (valuesOf key₁ ms) (valuesOf key₂ ms)
  | list {vs : List Value} (length : vs.length ≤ 2) :
      GivesBoth key₁ key₂ (.list vs) (vs.take 1) (vs.drop 1)

namespace Pair

variable {p : Pair α β} {key₁ key₂ : String} {field : Value → Option β} {shape : Shape α}
  {read₁ read₂ : Reader (α → α)} {v : Value} {vs : List Value} {ms : List (Units × Value)} {a b : α}

/-- What a value makes of a record as one of its two fields. -/
def meaning (p : Pair α β) (key₁ key₂ : String) (field : Value → Option β) (key : String)
    (_ : Nat) (v : Value) : Option (α → α) :=
  if key = key₁ then (field v).map p.setFirst
  else if key = key₂ then (field v).map p.setSecond
  else none

theorem eq_iff (p : Pair α β) : a = b ↔ p.first a = p.first b ∧ p.second a = p.second b :=
  ⟨fun h => ⟨congrArg _ h, congrArg _ h⟩, fun ⟨hfirst, hsecond⟩ => p.ext hfirst hsecond⟩

theorem holds_first : Shape.Holds (p.meaning key₁ key₂ field) depth key₁ p.first field where
  own h := by
    rw [meaning, if_pos rfl] at h
    obtain ⟨x, hx, rfl⟩ := Option.map_eq_some_iff.mp h
    exact ⟨x, hx, p.first_setFirst x⟩
  other hne h a := by
    rw [meaning, if_neg hne] at h
    split at h
    · obtain ⟨x, -, rfl⟩ := Option.map_eq_some_iff.mp h
      exact p.first_setSecond x a
    · cases h

theorem holds_second (hne : key₁ ≠ key₂) :
    Shape.Holds (p.meaning key₁ key₂ field) depth key₂ p.second field where
  own h := by
    rw [meaning, if_neg hne.symm, if_pos rfl] at h
    obtain ⟨x, hx, rfl⟩ := Option.map_eq_some_iff.mp h
    exact ⟨x, hx, p.second_setSecond x⟩
  other hother h a := by
    unfold meaning at h
    split at h
    · obtain ⟨x, -, rfl⟩ := Option.map_eq_some_iff.mp h
      exact p.second_setFirst x a
    · cases h

theorem fits_of_isHeld {key : String} {read : Reader (α → α)} {before x : β}
    (known : key = key₁ ∨ key = key₂) (h : IsHeld field before (valuesOf key ms) x) :
    Shape.Fits (p.meaning key₁ key₂ field) depth ⟨key, false, read⟩ false ms := by
  have hmeant : ∀ v, (p.meaning key₁ key₂ field key depth v).isSome = (field v).isSome := by
    intro v
    unfold meaning
    split
    · exact Option.isSome_map
    · next hfirst =>
        rw [if_pos (known.resolve_left hfirst)]
        exact Option.isSome_map
  rcases h with ⟨hvalues, -⟩ | ⟨v, y, hvalues, hv, -⟩
  · exact ⟨by simp [hvalues], by simp [hvalues], nofun⟩
  · exact ⟨by simp [hvalues], by simp [hvalues, hmeant, hv], nofun⟩

theorem isHeld_unique {before x x' : β} (h : IsHeld field before vs x)
    (h' : IsHeld field before vs x') : x = x' := by
  match vs with
  | [] => exact (isHeld_nil_iff.mp h).trans (isHeld_nil_iff.mp h').symm
  | [v] =>
      exact Option.some.inj ((isHeld_singleton_iff.mp h).symm.trans (isHeld_singleton_iff.mp h'))
  | _ :: _ :: _ => exact absurd h not_isHeld_of_two

/-- The members of an object make a record whose fields hold what the values for them mean. -/
theorem ofMembers_eq_some_iff (p : Pair α β) (hne : key₁ ≠ key₂)
    (members : shape.members = [⟨key₁, false, read₁⟩, ⟨key₂, false, read₂⟩]) :
    shape.ofMembers (p.meaning key₁ key₂ field) depth ms shape.blank [] = some a ↔ KeysSpell ms ∧
      IsHeld field (p.first shape.blank) (valuesOf key₁ ms) (p.first a) ∧
      IsHeld field (p.second shape.blank) (valuesOf key₂ ms) (p.second a) := by
  have hsound : ∀ {a}, shape.ofMembers (p.meaning key₁ key₂ field) depth ms shape.blank [] =
      some a → IsHeld field (p.first shape.blank) (valuesOf key₁ ms) (p.first a) ∧
        IsHeld field (p.second shape.blank) (valuesOf key₂ ms) (p.second a) :=
    fun h => ⟨holds_first.of_ofMembers (by simp [members]) h,
      (holds_second hne).of_ofMembers (by simp [members]) h⟩
  constructor
  · intro h
    exact ⟨(Shape.ofMembers_isSome_iff.mp (Option.isSome_of_mem h)).1, hsound h⟩
  · rintro ⟨hkeys, hfirst, hsecond⟩
    have hsome : (shape.ofMembers (p.meaning key₁ key₂ field) depth ms shape.blank []).isSome := by
      refine Shape.ofMembers_isSome_iff.mpr ⟨hkeys, ?_⟩
      rw [members]
      exact List.forall_mem_cons.mpr ⟨fits_of_isHeld (.inl rfl) hfirst,
        List.forall_mem_singleton.mpr (fits_of_isHeld (.inr rfl) hsecond)⟩
    obtain ⟨a', ha'⟩ := Option.isSome_iff_exists.mp hsome
    obtain ⟨hfirst', hsecond'⟩ := hsound ha'
    rw [ha', p.ext (isHeld_unique hfirst' hfirst) (isHeld_unique hsecond' hsecond)]

/-- The items of a list make such a record if there are two at most. -/
theorem ofItems_eq_some_iff (p : Pair α β) (hne : key₁ ≠ key₂)
    (members : shape.members = [⟨key₁, false, read₁⟩, ⟨key₂, false, read₂⟩]) :
    Shape.ofItems (p.meaning key₁ key₂ field) depth shape.members vs shape.blank = some a ↔
      vs.length ≤ 2 ∧ IsHeld field (p.first shape.blank) (vs.take 1) (p.first a) ∧
        IsHeld field (p.second shape.blank) (vs.drop 1) (p.second a) := by
  have hfirst : ∀ v, p.meaning key₁ key₂ field key₁ depth v = (field v).map p.setFirst :=
    fun v => if_pos rfl
  have hsecond : ∀ v, p.meaning key₁ key₂ field key₂ depth v = (field v).map p.setSecond :=
    fun v => (if_neg hne.symm).trans (if_pos rfl)
  rw [members]
  match vs with
  | [] => simp [Shape.ofItems, isHeld_nil_iff, p.eq_iff, eq_comm]
  | [v] =>
      cases hv : field v <;>
        simp [Shape.ofItems, hfirst, isHeld_nil_iff, isHeld_singleton_iff, hv, p.eq_iff,
          p.first_setFirst, p.second_setFirst, @eq_comm _ (p.second a)]
  | [v, w] =>
      cases hv : field v <;> cases hw : field w <;>
        simp [Shape.ofItems, hfirst, hsecond, isHeld_singleton_iff, hv, hw, p.eq_iff,
          p.first_setFirst, p.first_setSecond, p.second_setSecond]
  | v :: w :: _ :: _ =>
      cases hv : field v <;> cases hw : field w <;>
        simp [Shape.ofItems, hfirst, hsecond, hv, hw]

/-- Such a record means what the values given for its fields mean. -/
theorem meaning_eq_some_iff (p : Pair α β) (hne : key₁ ≠ key₂)
    (members : shape.members = [⟨key₁, false, read₁⟩, ⟨key₂, false, read₂⟩]) :
    shape.meaning (p.meaning key₁ key₂ field) (depth + 1) v = some a ↔
      ∃ vs ws, GivesBoth key₁ key₂ v vs ws ∧ IsHeld field (p.first shape.blank) vs (p.first a) ∧
        IsHeld field (p.second shape.blank) ws (p.second a) := by
  cases v with
  | object ms =>
      refine (p.ofMembers_eq_some_iff hne members).trans ⟨?_, ?_⟩
      · rintro ⟨hkeys, hheld⟩
        exact ⟨_, _, .object hkeys, hheld⟩
      · rintro ⟨_, _, hgives, hheld⟩
        cases hgives with
        | object hkeys => exact ⟨hkeys, hheld⟩
  | list vs =>
      refine (p.ofItems_eq_some_iff hne members).trans ⟨?_, ?_⟩
      · rintro ⟨hlength, hheld⟩
        exact ⟨_, _, .list hlength, hheld⟩
      · rintro ⟨_, _, hgives, hheld⟩
        cases hgives with
        | list hlength => exact ⟨hlength, hheld⟩
  | _ => exact ⟨nofun, fun ⟨_, _, hgives, _⟩ => nomatch hgives⟩

end Pair

end ModuleOutputs.Json
