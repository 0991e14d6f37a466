import ModuleOutputs.Chat.Service
import ModuleOutputs.Proofs.Json.SmallRecords

/-!
What a reply without success reports. A body reports an error if it is one JSON value that holds
the error, and the error has a message and at most one code. Any other body reports nothing.
-/

namespace ModuleOutputs.Chat

open Json (Units Value Means valuesOf KeysSpell IsDocument)

/-- The code of an error by the values given for it, of which there is one at most. -/
inductive IsCode : List Value → Option String → Prop
  | missing : IsCode [] none
  | null : IsCode [.null] none
  | text {us : Units} {s : String} (spelled : us.text? = some s) : IsCode [.text us] (some s)

/-- Whether a value describes an error: as an object, or as a list of its fields in order. -/
inductive IsError : Value → ServiceError → Prop
  | object {ms : List (Units × Value)} {us : Units} {e : ServiceError} (keys : KeysSpell ms)
      (message : valuesOf "message" ms = [.text us]) (spelled : us.text? = some e.message)
      (code : IsCode (valuesOf "code" ms) e.code) : IsError (.object ms) e
  | list {us : Units} {vs : List Value} {e : ServiceError} (spelled : us.text? = some e.message)
      (code : IsCode vs e.code) : IsError (.list (.text us :: vs)) e

/-- Whether a value holds an error: as an object, or as a list of its one field. -/
inductive HoldsError : Value → ServiceError → Prop
  | object {ms : List (Units × Value)} {v : Value} {e : ServiceError} (keys : KeysSpell ms)
      (error : valuesOf "error" ms = [v]) (isError : IsError v e) : HoldsError (.object ms) e
  | list {v : Value} {e : ServiceError} (isError : IsError v e) : HoldsError (.list [v]) e

/-- Whether a text reports an error: it is one value, which holds the error. -/
def Reports (text : String) (e : ServiceError) : Prop :=
  ∃ v, IsDocument v (Text.piecesOf text) ∧ HoldsError v e

theorem isCode_nil_iff {code : Option String} : IsCode [] code ↔ code = none :=
  ⟨fun | .missing => rfl, fun h => h ▸ .missing⟩

theorem isCode_singleton_iff {v : Value} {code : Option String} :
    IsCode [v] code ↔ v.option? Value.text? = some code := by
  constructor
  · rintro (_ | _ | spelled)
    · rfl
    · simp [Value.option?, Value.text?, spelled]
  · intro h
    cases v with
    | null =>
        cases h
        exact .null
    | text us =>
        obtain ⟨s, hs, rfl⟩ := Option.map_eq_some_iff.mp h
        exact .text hs
    | _ => cases h

/-- Without a value there is no code, and one value says what it is. -/
theorem isCode_iff {vs : List Value} {code : Option String} : IsCode vs code ↔
    Json.IsHeld (Value.option? Value.text?) none vs code := by
  constructor
  · intro h
    match vs, h with
    | [], h => exact .inl ⟨rfl, isCode_nil_iff.mp h⟩
    | [v], h => exact .inr ⟨v, code, rfl, isCode_singleton_iff.mp h, rfl⟩
  · rintro (⟨rfl, rfl⟩ | ⟨v, x, rfl, hv, rfl⟩)
    · exact .missing
    · exact isCode_singleton_iff.mpr hv

theorem IsCode.unique {vs : List Value} {code code' : Option String} (h : IsCode vs code)
    (h' : IsCode vs code') : code = code' := by
  rcases isCode_iff.mp h with ⟨rfl, rfl⟩ | ⟨v, x, rfl, hv, rfl⟩
  · exact (isCode_nil_iff.mp h').symm
  · exact Option.some.inj (hv.symm.trans (isCode_singleton_iff.mp h'))

theorem eq_text_of_text? {v : Value} {s : String} (h : v.text? = some s) :
    ∃ us, v = .text us ∧ us.text? = some s := by
  cases v with
  | text us => exact ⟨us, rfl, h⟩
  | _ => cases h

namespace ServiceError

variable {depth : Nat} {ms : List (Units × Value)} {vs : List Value} {v : Value}
  {e : ServiceError}

/-! ## Errors -/

/-- What a value makes of an error as one of its fields. -/
def fieldMeaning (key : String) (_ : Nat) (v : Value) : Option (ServiceError → ServiceError) :=
  if key = "message" then v.text?.map fun s e => { e with message := s }
  else if key = "code" then (v.option? Value.text?).map fun s e => { e with code := s }
  else none

theorem read_means : Means (Json.readRecord shape) (shape.meaning fieldMeaning) := by
  refine Json.readRecord_means (List.forall_mem_cons.mpr ⟨?_, List.forall_mem_singleton.mpr ?_⟩)
  · exact Json.readText_means.map fun s (e : ServiceError) => { e with message := s }
  · exact (Json.readOption_means Json.readText_means fun _ => rfl).map
      fun s (e : ServiceError) => { e with code := s }

theorem holds_message :
    Json.Shape.Holds fieldMeaning depth "message" (·.message) Value.text? where
  own h := by
    obtain ⟨s, hs, rfl⟩ := Option.map_eq_some_iff.mp h
    exact ⟨s, hs, fun _ => rfl⟩
  other hne h _ := by
    rw [fieldMeaning, if_neg hne] at h
    split at h
    · obtain ⟨s, -, rfl⟩ := Option.map_eq_some_iff.mp h
      rfl
    · cases h

theorem holds_code :
    Json.Shape.Holds fieldMeaning depth "code" (·.code) (Value.option? Value.text?) where
  own h := by
    obtain ⟨s, hs, rfl⟩ := Option.map_eq_some_iff.mp h
    exact ⟨s, hs, fun _ => rfl⟩
  other hne h _ := by
    unfold fieldMeaning at h
    rw [if_neg hne] at h
    split at h
    · obtain ⟨s, -, rfl⟩ := Option.map_eq_some_iff.mp h
      rfl
    · cases h

theorem isError_object_iff : IsError (.object ms) e ↔ KeysSpell ms ∧
    (∃ v, valuesOf "message" ms = [v] ∧ v.text? = some e.message) ∧
      IsCode (valuesOf "code" ms) e.code := by
  constructor
  · rintro (⟨keys, message, spelled, code⟩)
    exact ⟨keys, ⟨_, message, spelled⟩, code⟩
  · rintro ⟨keys, ⟨v, message, spelled⟩, code⟩
    obtain ⟨us, rfl, spelled⟩ := eq_text_of_text? spelled
    exact .object keys message spelled code

theorem isError_list_iff : IsError (.list vs) e ↔
    ∃ v others, vs = v :: others ∧ v.text? = some e.message ∧ IsCode others e.code := by
  constructor
  · rintro (_ | ⟨spelled, code⟩)
    exact ⟨_, _, rfl, spelled, code⟩
  · rintro ⟨v, others, rfl, spelled, code⟩
    obtain ⟨us, rfl, spelled⟩ := eq_text_of_text? spelled
    exact .list spelled code

theorem ofMembers_eq_some_iff :
    shape.ofMembers fieldMeaning depth ms shape.blank [] = some e ↔ IsError (.object ms) e := by
  rw [isError_object_iff]
  have hsound : ∀ {e}, shape.ofMembers fieldMeaning depth ms shape.blank [] = some e →
      (∃ v, valuesOf "message" ms = [v] ∧ v.text? = some e.message) ∧
        IsCode (valuesOf "code" ms) e.code := by
    intro e h
    have hfits := (Json.Shape.ofMembers_isSome_iff.mp (Option.isSome_of_mem h)).2
    have hfound := ((hfits _ List.mem_cons_self).found rfl).resolve_left Bool.false_ne_true
    obtain ⟨hnone, -⟩ | ⟨v, s, hvalues, hs, rfl⟩ :=
      holds_message.of_ofMembers (by simp [shape]) h
    · exact absurd hnone hfound
    · exact ⟨⟨v, hvalues, hs⟩, isCode_iff.mpr (holds_code.of_ofMembers (by simp [shape]) h)⟩
  constructor
  · intro h
    exact ⟨(Json.Shape.ofMembers_isSome_iff.mp (Option.isSome_of_mem h)).1, hsound h⟩
  · rintro ⟨hkeys, ⟨v, hvalues, hmessage⟩, hcode⟩
    have hsome : (shape.ofMembers fieldMeaning depth ms shape.blank []).isSome := by
      refine Json.Shape.ofMembers_isSome_iff.mpr ⟨hkeys,
        List.forall_mem_cons.mpr ⟨?_, List.forall_mem_singleton.mpr ?_⟩⟩
      · exact ⟨by simp [hvalues], by simp [hvalues, fieldMeaning, hmessage], by simp [hvalues]⟩
      · rcases isCode_iff.mp hcode with ⟨hnone, -⟩ | ⟨w, x, hone, hw, -⟩
        · exact ⟨by simp [hnone], by simp [hnone], nofun⟩
        · exact ⟨by simp [hone], by simp [hone, fieldMeaning, hw], nofun⟩
    obtain ⟨⟨message, code⟩, he⟩ := Option.isSome_iff_exists.mp hsome
    obtain ⟨⟨v', hvalues', hmessage'⟩, hcode'⟩ := hsound he
    obtain rfl : v = v' := by simpa using hvalues.symm.trans hvalues'
    obtain rfl := Option.some.inj (hmessage.symm.trans hmessage')
    obtain rfl := hcode.unique hcode'
    exact he

theorem ofItems_eq_some_iff :
    Json.Shape.ofItems fieldMeaning depth shape.members vs shape.blank = some e ↔
      IsError (.list vs) e := by
  obtain ⟨message, code⟩ := e
  rw [isError_list_iff]
  match vs with
  | [] => simp [Json.Shape.ofItems, shape]
  | [v] =>
      cases hv : v.text? <;>
        simp [Json.Shape.ofItems, shape, fieldMeaning, isCode_nil_iff, hv, eq_comm]
  | [v, w] =>
      cases hv : v.text? <;> cases hw : w.option? Value.text? <;>
        simp [Json.Shape.ofItems, shape, fieldMeaning, isCode_singleton_iff, hv, hw]
  | v :: w :: x :: others =>
      have hcode : ¬ IsCode (w :: x :: others) code := fun h => by cases h
      simp [Json.Shape.ofItems, shape, hcode]

theorem meaning_eq_some_iff :
    shape.meaning fieldMeaning (depth + 1) v = some e ↔ IsError v e := by
  cases v with
  | object ms => exact ofMembers_eq_some_iff
  | list vs => exact ofItems_eq_some_iff
  | _ => exact ⟨nofun, nofun⟩

/-! ## Bodies -/

/-- What a value makes of an error as the field that holds it. -/
def bodyFieldMeaning (key : String) (depth : Nat) (v : Value) :
    Option (ServiceError → ServiceError) :=
  if key = "error" then (shape.meaning fieldMeaning depth v).map fun e _ => e else none

theorem readBody_means : Means (Json.readRecord bodyShape) (bodyShape.meaning bodyFieldMeaning) :=
  Json.readRecord_means (List.forall_mem_singleton.mpr (read_means.map fun e _ => e))

theorem holdsError_iff :
    HoldsError v e ↔ ∃ w, Json.Gives "error" v [w] ∧ IsError w e := by
  constructor
  · rintro (⟨keys, error, isError⟩ | isError)
    · exact ⟨_, .object keys error, isError⟩
    · exact ⟨_, .list, isError⟩
  · rintro ⟨w, hgives, isError⟩
    cases hgives with
    | object keys error => exact .object keys error isError
    | list => exact .list isError

theorem bodyMeaning_eq_some_iff :
    bodyShape.meaning bodyFieldMeaning (depth + 2) v = some e ↔ HoldsError v e := by
  have only : bodyShape.members = [⟨"error", true, _⟩] := rfl
  have hfield : bodyFieldMeaning =
      Json.Shape.onlyMeaning "error" (shape.meaning fieldMeaning) id := rfl
  rw [hfield, Json.Shape.meaning_only_eq_some_iff only, holdsError_iff]
  constructor
  · rintro ⟨vs, hgives, ⟨-, hrequired, -⟩ | ⟨w, e', rfl, hmeans, rfl⟩⟩
    · cases hrequired
    · exact ⟨w, hgives, meaning_eq_some_iff.mp hmeans⟩
  · rintro ⟨w, hgives, isError⟩
    exact ⟨_, hgives, .inr ⟨w, e, rfl, meaning_eq_some_iff.mpr isError, rfl⟩⟩

/-- A body is read as the error that it reports. -/
theorem decode_eq_ok_iff {text : String} :
    Json.decode (Json.readRecord bodyShape) text = .ok e ↔ Reports text e := by
  rw [readBody_means.decode_eq_ok_iff]
  refine exists_congr fun v => and_congr_right fun _ => ?_
  exact bodyMeaning_eq_some_iff

end ServiceError

end ModuleOutputs.Chat
