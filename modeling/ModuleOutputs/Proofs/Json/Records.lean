import ModuleOutputs.Proofs.Json.Reading

/-!
Readers of records, against the grammar. A record means what its members mean together: each
field is given once at most, the members that are no fields are left out of account, and a
record that is written as a list has its fields in order.
-/

namespace ModuleOutputs.Json

open Text (Piece)

variable {α : Type} {ps ps' rest : List Piece} {depth fuel : Nat}

namespace Shape

/-- What is made of the members of an object, beyond those that were seen before. Every key
must spell characters. A member that is no field of the record is left out of account. -/
def ofMembers (shape : Shape α) (means : String → Nat → Value → Option (α → α)) (depth : Nat) :
    List (Units × Value) → α → (seen : List String) → Option α
  | [], a, seen => if (shape.missing? seen).isNone then some a else none
  | (us, v) :: ms, a, seen => do
    let key ← us.text?
    match shape.members.find? fun m => m.key = key with
    | none => ofMembers shape means depth ms a seen
    | some m =>
      if seen.contains key then none
      else do
        let change ← means m.key depth v
        ofMembers shape means depth ms (change a) (key :: seen)

/-- What is made of the items of a list, taken as fields in order. -/
def ofItems (means : String → Nat → Value → Option (α → α)) (depth : Nat) :
    List (Member α) → List Value → α → Option α
  | members, [], a => if members.any (·.required) then none else some a
  | [], _ :: _, _ => none
  | m :: members, v :: vs, a => do
    let change ← means m.key depth v
    ofItems means depth members vs (change a)

/-- What is made of a value as a record. -/
def meaning (shape : Shape α) (means : String → Nat → Value → Option (α → α)) :
    Nat → Value → Option α
  | depth + 1, .object ms => shape.ofMembers means depth ms shape.blank []
  | depth + 1, .list vs => ofItems means depth shape.members vs shape.blank
  | _, _ => none

end Shape

theorem nextKey_sound {first more : Bool} (h : nextKey first ps = .ok (more, rest)) :
    more = false ∧ skipSpace ps = .char '\x7d' :: rest ∨
      more = true ∧ ∃ ps', GoesOn first ps ps' ∧ skipSpace ps' = .char '"' :: rest := by
  unfold nextKey at h
  split at h
  · cases h
  · next hclose =>
      cases h
      exact .inl ⟨rfl, hclose⟩
  · next p tail _ hspace =>
      split at h
      · next hfirst =>
          split at h
          · next hquote =>
              subst hquote
              cases h
              exact .inr ⟨rfl, ps, by rw [hfirst]; rfl, hspace⟩
          · cases h
      next hfirst =>
      split at h
      · next hcomma =>
          subst hcomma
          split at h
          · cases h
          · next hspace' =>
              cases h
              refine .inr ⟨rfl, tail, ?_, hspace'⟩
              rw [GoesOn, if_neg hfirst]
              exact hspace
          · cases h
          · cases h
      · cases h

theorem nextKey_of_close (first : Bool) (h : skipSpace ps = .char '\x7d' :: rest) :
    nextKey first ps = .ok (false, rest) := by
  rw [nextKey, h]
  rfl

theorem nextKey_of_goesOn {first : Bool} (h : GoesOn first ps ps')
    (hspace : skipSpace ps' = .char '"' :: rest) : nextKey first ps = .ok (true, rest) := by
  cases first with
  | true =>
      obtain rfl : ps' = ps := h
      rw [nextKey, hspace]
      rfl
  | false =>
      have hcomma : skipSpace ps = .char ',' :: ps' := h
      rw [nextKey, hcomma]
      split
      · next heq => cases heq
      · next heq => cases heq
      · next heq =>
          cases heq
          rw [if_neg Bool.false_ne_true, if_pos rfl, hspace]
          rfl

theorem colon_eq_ok_iff : colon ps = .ok rest ↔ skipSpace ps = .char ':' :: rest := by
  unfold colon
  constructor
  · intro h
    split at h
    · cases h
    · next hspace =>
        cases h
        exact hspace
    · cases h
  · intro h
    rw [h]
    rfl

section

variable {shape : Shape α} {means : String → Nat → Value → Option (α → α)}

/-- The first member is no field of the record, or one that was not seen before. -/
theorem Shape.ofMembers_cons_eq_some_iff {us : Units} {v : Value} {ms : List (Units × Value)}
    {a b : α} {seen : List String} :
    shape.ofMembers means depth ((us, v) :: ms) a seen = some b ↔
      ∃ key, us.text? = some key ∧
        ((shape.members.find? fun m => m.key = key) = none ∧
            shape.ofMembers means depth ms a seen = some b ∨
          ∃ m change, (shape.members.find? fun m => m.key = key) = some m ∧
            seen.contains key = false ∧ means m.key depth v = some change ∧
            shape.ofMembers means depth ms (change a) (key :: seen) = some b) := by
  rw [ofMembers, Option.bind_eq_bind, Option.bind_eq_some_iff]
  refine exists_congr fun key => and_congr_right fun _ => ?_
  cases hfind : shape.members.find? fun m => m.key = key with
  | none => simp
  | some m => cases hseen : seen.contains key <;> simp [Option.bind_eq_some_iff]

theorem membersFrom_sound (h : ∀ m ∈ shape.members, Means m.read (means m.key)) {first : Bool}
    {a b : α} {seen : List String}
    (hread : membersFrom shape depth fuel first a seen ps = .ok (b, rest)) :
    skipSpace ps = .char '\x7d' :: rest ∧ shape.ofMembers means depth [] a seen = some b ∨
      ∃ ps' ms, GoesOn first ps ps' ∧ Spells (.members ms) ps' rest ∧
        shape.ofMembers means depth ms a seen = some b := by
  induction fuel generalizing first ps a seen with
  | zero => cases hread
  | succ fuel ih =>
      rw [membersFrom] at hread
      obtain ⟨⟨more, tail⟩, hnext, hread⟩ := bind_eq_ok_iff.mp hread
      rcases nextKey_sound hnext with ⟨rfl, hclose⟩ | ⟨rfl, ps', hgoes, hopening⟩
      · dsimp only at hread
        rw [if_neg Bool.false_ne_true] at hread
        split at hread
        · cases hread
        · next hmissing =>
            cases hread
            exact .inl ⟨hclose, by rw [Shape.ofMembers, hmissing]; rfl⟩
      · refine .inr ⟨ps', ?_⟩
        dsimp only at hread
        rw [if_pos rfl] at hread
        obtain ⟨⟨key, ps₁⟩, hkey, hread⟩ := bind_eq_ok_iff.mp hread
        obtain ⟨us, hus, htext⟩ := string_eq_ok_iff.mp hkey
        -- The first member is followed by the end of the object or by other members.
        have hjoin : ∀ {v ps₂ a' seen'}, Spells (.member us v) ps' ps₂ →
            membersFrom shape depth fuel false a' seen' ps₂ = .ok (b, rest) →
            (∀ ms, shape.ofMembers means depth ms a' seen' = some b →
              shape.ofMembers means depth ((us, v) :: ms) a seen = some b) →
            ∃ ms, GoesOn first ps ps' ∧ Spells (.members ms) ps' rest ∧
              shape.ofMembers means depth ms a seen = some b := by
          intro v ps₂ a' seen' hmember hothers hstep
          rcases ih hothers with ⟨hclose, hnil⟩ | ⟨ps₃, ms, hcomma, hms, hof⟩
          · exact ⟨[(us, v)], hgoes, .lastMember hmember hclose, hstep [] hnil⟩
          · exact ⟨(us, v) :: ms, hgoes, .moreMembers hmember hcomma hms, hstep ms hof⟩
        dsimp only at hread
        split at hread
        · next hfind =>
            obtain ⟨ps₂, hcolon, hread⟩ := bind_eq_ok_iff.mp hread
            obtain ⟨ps₃, hskip, hread⟩ := bind_eq_ok_iff.mp hread
            obtain ⟨v, hv⟩ := spells_of_skip hskip
            exact hjoin (.member hopening hus (colon_eq_ok_iff.mp hcolon) hv) hread fun ms hms =>
              Shape.ofMembers_cons_eq_some_iff.mpr ⟨key, htext, .inl ⟨hfind, hms⟩⟩
        · next m hfind =>
            split at hread
            · cases hread
            next hseen =>
            obtain ⟨ps₂, hcolon, hread⟩ := bind_eq_ok_iff.mp hread
            obtain ⟨⟨change, ps₃⟩, hchange, hread⟩ := bind_eq_ok_iff.mp hread
            obtain ⟨v, hv, hmeans⟩ := (h m (List.mem_of_find?_eq_some hfind)).sound hchange
            rw [Bool.not_eq_true] at hseen
            exact hjoin (.member hopening hus (colon_eq_ok_iff.mp hcolon) hv) hread fun ms hms =>
              Shape.ofMembers_cons_eq_some_iff.mpr
                ⟨key, htext, .inr ⟨m, change, hfind, hseen, hmeans, hms⟩⟩

theorem membersFrom_of_close {first : Bool} {a b : α} {seen : List String}
    (h : skipSpace ps = .char '\x7d' :: rest)
    (hnil : shape.ofMembers means depth [] a seen = some b) :
    membersFrom shape depth (fuel + 1) first a seen ps = .ok (b, rest) := by
  rw [membersFrom]
  refine bind_eq_ok_iff.mpr ⟨_, nextKey_of_close first h, ?_⟩
  rw [Shape.ofMembers] at hnil
  cases hmissing : shape.missing? seen with
  | none =>
      rw [hmissing] at hnil
      cases hnil
      rfl
  | some key =>
      rw [hmissing] at hnil
      cases hnil

theorem membersFrom_complete (h : ∀ m ∈ shape.members, Means m.read (means m.key)) {first : Bool}
    {a b : α} {seen : List String} {ms : List (Units × Value)}
    (hms : Spells (.members ms) ps' rest) (hgoes : GoesOn first ps ps')
    (hof : shape.ofMembers means depth ms a seen = some b) (hfuel : ps'.length < fuel) :
    membersFrom shape depth fuel first a seen ps = .ok (b, rest) := by
  induction fuel generalizing first ps ps' ms a seen with
  | zero => exact absurd hfuel (Nat.not_lt_zero _)
  | succ fuel ih =>
      -- The first member is read or passed over, and the others are read where it ends.
      have hjoin : ∀ {us v ms' ps₂}, Spells (.member us v) ps' ps₂ → IsEnd ps₂ →
          shape.ofMembers means depth ((us, v) :: ms') a seen = some b →
          (∀ a' seen', shape.ofMembers means depth ms' a' seen' = some b →
            membersFrom shape depth fuel false a' seen' ps₂ = .ok (b, rest)) →
          membersFrom shape depth (fuel + 1) first a seen ps = .ok (b, rest) := by
        intro us v ms' ps₂ hmember hend hof hothers
        obtain ⟨key, htext, hcases⟩ := Shape.ofMembers_cons_eq_some_iff.mp hof
        cases hmember with
        | member opening key colon value =>
            rw [membersFrom]
            refine bind_eq_ok_iff.mpr ⟨_, nextKey_of_goesOn hgoes opening, ?_⟩
            dsimp only
            rw [if_pos rfl]
            refine bind_eq_ok_iff.mpr ⟨_, string_eq_ok_iff.mpr ⟨us, key, htext⟩, ?_⟩
            rcases hcases with ⟨hfind, hof⟩ | ⟨m, change, hfind, hseen, hmeans, hof⟩
            · simp only [hfind]
              exact bind_eq_ok_iff.mpr ⟨_, colon_eq_ok_iff.mpr colon,
                bind_eq_ok_iff.mpr ⟨_, skip_eq_ok_of_spells value hend, hothers _ _ hof⟩⟩
            · have hread := (h m (List.mem_of_find?_eq_some hfind)).complete value hmeans
              simp only [hfind, hseen, Bool.false_eq_true, if_false]
              exact bind_eq_ok_iff.mpr ⟨_, colon_eq_ok_iff.mpr colon,
                bind_eq_ok_iff.mpr ⟨_, hread, hothers _ _ hof⟩⟩
      cases hms with
      | lastMember hmember close =>
          have hlength := hmember.length_lt
          obtain ⟨fuel, rfl⟩ : ∃ fuel', fuel = fuel' + 1 := ⟨fuel - 1, by omega⟩
          exact hjoin hmember (isEnd_of_next close (by simp)) hof
            fun _ _ hnil => membersFrom_of_close close hnil
      | moreMembers hmember comma hothers =>
          have hlength := hmember.length_lt
          have hcomma := length_of_skipSpace comma
          exact hjoin hmember (isEnd_of_next comma (by simp)) hof
            fun _ _ hof' => ih hothers comma hof' (by omega)

theorem endOfList_eq_ok_iff : endOfList ps = .ok rest ↔ skipSpace ps = .char ']' :: rest := by
  unfold endOfList
  constructor
  · intro h
    split at h
    · cases h
    · next hspace =>
        cases h
        exact hspace
    · split at h <;> cases h
    · cases h
  · intro h
    rw [h]
    rfl

theorem any_required_iff {members : List (Member α)} (count : Nat) :
    ((members.zipIdx count).find? fun x => x.1.required) = none ↔
      members.any (·.required) = false := by
  induction members generalizing count with
  | nil => simp
  | cons m members ih =>
      rw [List.zipIdx_cons, List.any_cons]
      cases hm : m.required with
      | true => simp [hm]
      | false => rw [List.find?_cons_of_neg (by simp [hm]), ih, Bool.false_or]

theorem fieldsFrom_sound {members : List (Member α)}
    (h : ∀ m ∈ members, Means m.read (means m.key)) {count : Nat} {a b : α}
    (hread : fieldsFrom shape depth members count a ps = .ok (b, rest)) :
    skipSpace ps = .char ']' :: rest ∧ Shape.ofItems means depth members [] a = some b ∨
      ∃ ps' vs, GoesOn (count == 0) ps ps' ∧ Spells (.items vs) ps' rest ∧
        Shape.ofItems means depth members vs a = some b := by
  induction members generalizing count a ps with
  | nil =>
      obtain ⟨rest', hend, heq⟩ := bind_eq_ok_iff.mp hread
      cases heq
      exact .inl ⟨endOfList_eq_ok_iff.mp hend, rfl⟩
  | cons m members ih =>
      obtain ⟨⟨more, tail⟩, hnext, hread⟩ := bind_eq_ok_iff.mp hread
      rcases nextItem_sound hnext with ⟨rfl, hclose⟩ | ⟨rfl, ps', hgoes, rfl⟩
      · dsimp only at hread
        rw [if_neg Bool.false_ne_true] at hread
        split at hread
        · cases hread
        · next hnone =>
            cases hread
            refine .inl ⟨hclose, ?_⟩
            rw [Shape.ofItems, (any_required_iff count).mp hnone, if_neg Bool.false_ne_true]
      · dsimp only at hread
        rw [if_pos rfl] at hread
        obtain ⟨⟨change, ps₁⟩, hfirst, hread⟩ := bind_eq_ok_iff.mp hread
        obtain ⟨v, hv, hmeans⟩ := (h m List.mem_cons_self).sound hfirst
        rw [skipSpace_idem] at hv
        have hof : ∀ vs, Shape.ofItems means depth members vs (change a) = some b →
            Shape.ofItems means depth (m :: members) (v :: vs) a = some b := fun vs hvs => by
          rw [Shape.ofItems, hmeans, Option.bind_eq_bind, Option.bind_some, hvs]
        refine .inr ⟨ps', ?_⟩
        rcases ih (fun m' hm' => h m' (List.mem_cons_of_mem m hm')) hread with
          ⟨hclose, hnil⟩ | ⟨ps₂, vs, hcomma, hvs, hof'⟩
        · exact ⟨[v], hgoes, .lastItem hv hclose, hof [] hnil⟩
        · exact ⟨v :: vs, hgoes, .moreItems hv hcomma hvs, hof vs hof'⟩

theorem fieldsFrom_of_close {members : List (Member α)} {count : Nat} {a b : α}
    (h : skipSpace ps = .char ']' :: rest)
    (hnil : Shape.ofItems means depth members [] a = some b) :
    fieldsFrom shape depth members count a ps = .ok (b, rest) := by
  cases members with
  | nil =>
      cases hnil
      exact bind_eq_ok_iff.mpr ⟨_, endOfList_eq_ok_iff.mpr h, rfl⟩
  | cons m members =>
      rw [fieldsFrom]
      refine bind_eq_ok_iff.mpr ⟨_, nextItem_of_close _ h, ?_⟩
      rw [Shape.ofItems] at hnil
      split at hnil
      · cases hnil
      · next hnone =>
          cases hnil
          rw [Bool.not_eq_true, ← any_required_iff count] at hnone
          dsimp only
          rw [if_neg Bool.false_ne_true, hnone]

theorem fieldsFrom_complete {members : List (Member α)}
    (h : ∀ m ∈ members, Means m.read (means m.key)) {count : Nat} {a b : α} {vs : List Value}
    (hvs : Spells (.items vs) ps' rest) (hgoes : GoesOn (count == 0) ps ps')
    (hof : Shape.ofItems means depth members vs a = some b) :
    fieldsFrom shape depth members count a ps = .ok (b, rest) := by
  induction members generalizing count a ps ps' vs with
  | nil => cases hvs <;> cases hof
  | cons m members ih =>
      obtain ⟨p, tail, hspace, hp⟩ := hvs.exists_item
      have hjoin : ∀ {v vs' ps₁}, Spells (.value v) (skipSpace ps') ps₁ →
          Shape.ofItems means depth (m :: members) (v :: vs') a = some b →
          (∀ a', Shape.ofItems means depth members vs' a' = some b →
            fieldsFrom shape depth members (count + 1) a' ps₁ = .ok (b, rest)) →
          fieldsFrom shape depth (m :: members) count a ps = .ok (b, rest) := by
        intro v vs' ps₁ hv hof hothers
        rw [Shape.ofItems, Option.bind_eq_bind, Option.bind_eq_some_iff] at hof
        obtain ⟨change, hmeans, hof⟩ := hof
        rw [← skipSpace_idem, hspace] at hv
        rw [fieldsFrom]
        refine bind_eq_ok_iff.mpr ⟨_, nextItem_of_goesOn hgoes hspace hp, ?_⟩
        dsimp only
        rw [if_pos rfl]
        exact bind_eq_ok_iff.mpr ⟨_, (h m List.mem_cons_self).complete hv hmeans, hothers _ hof⟩
      cases hvs with
      | lastItem hv close => exact hjoin hv hof fun _ hnil => fieldsFrom_of_close close hnil
      | moreItems hv comma hothers =>
          exact hjoin hv hof fun _ hof' =>
            ih (fun m' hm' => h m' (List.mem_cons_of_mem m hm')) hothers comma hof'

/-- A record is read as what its value means, if its fields are. -/
theorem readRecord_means (h : ∀ m ∈ shape.members, Means m.read (means m.key)) :
    Means (readRecord shape) (shape.meaning means) where
  sound {depth ps rest a} hread := by
    unfold readRecord at hread
    split at hread
    · next tail hspace =>
        split at hread
        · cases hread
        · rcases membersFrom_sound h hread with ⟨hclose, hnil⟩ | ⟨_, ms, rfl, hms, hof⟩
          · exact ⟨.object [], hspace ▸ .emptyObject hclose, hnil⟩
          · exact ⟨.object ms, hspace ▸ .object hms, hof⟩
    · next tail hspace =>
        split at hread
        · cases hread
        · rcases fieldsFrom_sound h hread with ⟨hclose, hnil⟩ | ⟨_, vs, rfl, hvs, hof⟩
          · exact ⟨.list [], hspace ▸ .emptyList hclose, hnil⟩
          · exact ⟨.list vs, hspace ▸ .list hvs, hof⟩
    · cases hread
  complete {depth ps rest v a} hv hmeans := by
    cases depth with
    | zero => cases v <;> cases hmeans
    | succ depth =>
        unfold readRecord
        generalize skipSpace ps = qs at hv ⊢
        cases hv with
        | emptyObject close =>
            have hnil : shape.ofMembers means depth [] shape.blank [] = some a := hmeans
            exact membersFrom_of_close close hnil
        | object members =>
            exact membersFrom_complete h members rfl hmeans (Nat.lt_succ_self _)
        | emptyList close => exact fieldsFrom_of_close close hmeans
        | list items => exact fieldsFrom_complete h items rfl hmeans
        | _ => cases hmeans

end

/-! ## Fields by key -/

/-- The values that an object gives for a key. -/
def valuesOf (key : String) (ms : List (Units × Value)) : List Value :=
  (ms.filter fun m => m.1.text? = some key).map Prod.snd

/-- Whether every key of an object spells characters. -/
def KeysSpell (ms : List (Units × Value)) : Prop :=
  ∀ m ∈ ms, m.1.text?.isSome

section

variable {us : Units} {v : Value} {ms ms' : List (Units × Value)} {key : String}

theorem valuesOf_cons_self (h : us.text? = some key) :
    valuesOf key ((us, v) :: ms) = v :: valuesOf key ms := by
  simp [valuesOf, h]

theorem valuesOf_cons_ne (h : us.text? ≠ some key) :
    valuesOf key ((us, v) :: ms) = valuesOf key ms := by
  simp [valuesOf, h]

theorem valuesOf_perm (h : ms'.Perm ms) : (valuesOf key ms').Perm (valuesOf key ms) :=
  (h.filter _).map _

theorem keysSpell_cons : KeysSpell ((us, v) :: ms) ↔ us.text?.isSome ∧ KeysSpell ms :=
  List.forall_mem_cons

theorem keysSpell_perm (h : ms'.Perm ms) : KeysSpell ms' ↔ KeysSpell ms :=
  forall_congr' fun _ => by rw [h.mem_iff]

end

namespace Shape

variable {shape : Shape α} {means : String → Nat → Value → Option (α → α)}

/-- Whether the values given for a field can be its own: there is one at most, and none if the
field was seen before, each means something, and there is one if there must be. -/
structure Fits (means : String → Nat → Value → Option (α → α)) (depth : Nat) (m : Member α)
    (wasSeen : Bool) (ms : List (Units × Value)) : Prop where
  once : (valuesOf m.key ms).length ≤ if wasSeen then 0 else 1
  meant : ∀ v ∈ valuesOf m.key ms, (means m.key depth v).isSome
  found : m.required = true → wasSeen = true ∨ valuesOf m.key ms ≠ []

section

variable {m : Member α} {wasSeen : Bool} {us : Units} {v : Value} {ms : List (Units × Value)}
  {key : String}

theorem fits_nil : Fits means depth m wasSeen [] ↔ (m.required = true → wasSeen = true) :=
  ⟨fun h hrequired => (h.found hrequired).resolve_right fun hne => hne rfl,
    fun h => ⟨Nat.zero_le _, nofun, fun hrequired => .inl (h hrequired)⟩⟩

theorem fits_cons_self (h : us.text? = some m.key) :
    Fits means depth m wasSeen ((us, v) :: ms) ↔
      wasSeen = false ∧ (means m.key depth v).isSome ∧ Fits means depth m true ms := by
  have hvalues : valuesOf m.key ((us, v) :: ms) = v :: valuesOf m.key ms := valuesOf_cons_self h
  constructor
  · rintro ⟨once, meant, -⟩
    rw [hvalues] at once meant
    obtain ⟨hfirst, hothers⟩ := List.forall_mem_cons.mp meant
    cases wasSeen with
    | true => cases once
    | false => exact ⟨rfl, hfirst, Nat.le_of_succ_le_succ once, hothers, fun _ => .inl rfl⟩
  · rintro ⟨rfl, hfirst, once, meant, -⟩
    refine ⟨?_, ?_, fun _ => .inr ?_⟩
    · rw [hvalues]
      exact Nat.succ_le_succ once
    · rw [hvalues]
      exact List.forall_mem_cons.mpr ⟨hfirst, meant⟩
    · rw [hvalues]
      exact List.cons_ne_nil v _

theorem fits_cons_ne (h : us.text? = some key) (hne : m.key ≠ key) :
    Fits means depth m wasSeen ((us, v) :: ms) ↔ Fits means depth m wasSeen ms := by
  have hvalues : valuesOf m.key ((us, v) :: ms) = valuesOf m.key ms :=
    valuesOf_cons_ne fun heq => hne (Option.some.inj (heq.symm.trans h))
  constructor <;> rintro ⟨once, meant, found⟩
  · exact ⟨hvalues ▸ once, hvalues ▸ meant, hvalues ▸ found⟩
  · exact ⟨hvalues.symm ▸ once, hvalues.symm ▸ meant, hvalues.symm ▸ found⟩

end

/-- Something is made of the members of an object if every key spells characters and the values
given for each field can be its own. -/
theorem ofMembers_isSome_iff {ms : List (Units × Value)} {a : α} {seen : List String} :
    (shape.ofMembers means depth ms a seen).isSome ↔
      KeysSpell ms ∧ ∀ m ∈ shape.members, Fits means depth m (seen.contains m.key) ms := by
  induction ms generalizing a seen with
  | nil =>
      simp only [ofMembers, KeysSpell, missing?, fits_nil]
      simp
  | cons first ms ih =>
      obtain ⟨us, v⟩ := first
      rw [keysSpell_cons]
      cases htext : us.text? with
      | none => simp [ofMembers, htext]
      | some key =>
          rw [ofMembers, htext, Option.bind_eq_bind, Option.bind_some, Option.isSome_some,
            eq_self, true_and]
          cases hfind : shape.members.find? fun m => m.key = key with
          | none =>
              refine ih.trans (and_congr_right fun _ => forall₂_congr fun m hm => ?_)
              have hne : m.key ≠ key := by simpa using List.find?_eq_none.mp hfind m hm
              rw [fits_cons_ne htext hne]
          | some m =>
              have hm := List.mem_of_find?_eq_some hfind
              obtain rfl : m.key = key := by simpa using List.find?_some hfind
              cases hseen : seen.contains m.key with
              | true =>
                  refine iff_of_false Bool.false_ne_true fun ⟨_, hfits⟩ => ?_
                  have hfirst := ((fits_cons_self htext).mp (hfits m hm)).1
                  rw [hseen] at hfirst
                  cases hfirst
              | false =>
                  dsimp only
                  rw [if_neg Bool.false_ne_true]
                  cases hmeans : means m.key depth v with
                  | none =>
                      refine iff_of_false Bool.false_ne_true fun ⟨_, hfits⟩ => ?_
                      have hfirst := ((fits_cons_self htext).mp (hfits m hm)).2.1
                      rw [hmeans] at hfirst
                      cases hfirst
                  | some change =>
                      refine ih.trans (and_congr_right fun _ => forall₂_congr fun m' hm' => ?_)
                      by_cases hkey : m'.key = m.key
                      · rw [fits_cons_self (hkey ▸ htext), hkey, hseen, hmeans, List.contains_cons,
                          beq_self_eq_true, Bool.true_or]
                        simp
                      · rw [fits_cons_ne htext hkey, List.contains_cons, beq_false_of_ne hkey,
                          Bool.false_or]

/-- Whether a part of a record is what its field with a key says: a value for the key sets it,
and a value for another key leaves it. -/
structure Holds {β : Type} (means : String → Nat → Value → Option (α → α)) (depth : Nat)
    (key : String) (get : α → β) (meansField : Value → Option β) : Prop where
  own {v : Value} {change : α → α} (h : means key depth v = some change) :
    ∃ x, meansField v = some x ∧ ∀ a, get (change a) = x
  other {key' : String} {v : Value} {change : α → α} (hne : key' ≠ key)
    (h : means key' depth v = some change) (a : α) : get (change a) = get a

/-- What is made of the members of an object holds in a field what the value for it means. Without
a value the field is as it was before. -/
theorem Holds.of_ofMembers {β : Type} {get : α → β} {meansField : Value → Option β} {key : String}
    {ms : List (Units × Value)} {a b : α} {seen : List String}
    (hholds : Holds means depth key get meansField) (known : key ∈ shape.members.map (·.key))
    (h : shape.ofMembers means depth ms a seen = some b) :
    valuesOf key ms = [] ∧ get b = get a ∨
      ∃ v x, valuesOf key ms = [v] ∧ meansField v = some x ∧ get b = x := by
  induction ms generalizing a seen with
  | nil =>
      rw [ofMembers] at h
      split at h
      · cases h
        exact .inl ⟨rfl, rfl⟩
      · cases h
  | cons first ms ih =>
      obtain ⟨us, v⟩ := first
      obtain ⟨key', htext, ⟨hfind, hrest⟩ | ⟨m, change, hfind, hseen, hmeans, hrest⟩⟩ :=
        ofMembers_cons_eq_some_iff.mp h
      · have hne : key' ≠ key := by
          rintro rfl
          obtain ⟨m, hm, rfl⟩ := List.mem_map.mp known
          simpa using List.find?_eq_none.mp hfind m hm
        rw [valuesOf_cons_ne (by simpa [htext] using hne)]
        exact ih hrest
      · obtain rfl : m.key = key' := by simpa using List.find?_some hfind
        by_cases hkey : m.key = key
        · subst hkey
          obtain ⟨x, hx, hget⟩ := hholds.own hmeans
          have hnone : valuesOf m.key ms = [] := by
            have hfits := (ofMembers_isSome_iff.mp (Option.isSome_of_mem hrest)).2 m
              (List.mem_of_find?_eq_some hfind)
            simpa using hfits.once
          rw [valuesOf_cons_self htext, hnone]
          rcases ih hrest with ⟨-, heq⟩ | ⟨w, y, hsome, -⟩
          · exact .inr ⟨v, x, rfl, hx, heq.trans (hget a)⟩
          · cases hnone.symm.trans hsome
        · rw [valuesOf_cons_ne (by simpa [htext] using hkey), ← hholds.other hkey hmeans a]
          exact ih hrest

end Shape

end ModuleOutputs.Json
