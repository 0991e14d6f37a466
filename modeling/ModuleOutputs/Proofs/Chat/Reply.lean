import Mathlib.Logic.Relation
import ModuleOutputs.Chat.Reply
import ModuleOutputs.Proofs.Json.SmallRecords
import ModuleOutputs.Proofs.Json.Unambiguous

/-!
What a reply says. A text answers with some outputs if it is one JSON value of the form asked
for, and a reply is read as what its first text answers. How the value is written down does
not matter: white space, escapes, the order of members, and members nobody asked for.
-/

namespace ModuleOutputs

open Json (Units Value Means valuesOf KeysSpell)
open Text (Piece)

/-! ## Outputs -/

/-- The text of a field by the values given for it, of which there is one at most. -/
inductive IsField : List Value → String → Prop
  | missing : IsField [] ""
  | null : IsField [.null] ""
  | text {us : Units} {s : String} (spelled : us.text? = some s) : IsField [.text us] s

/-- Whether a value describes an output: as an object, or as a list of its fields in order. -/
inductive IsOutput : Value → InferredOutput → Prop
  | object {ms : List (Units × Value)} {o : InferredOutput} (keys : KeysSpell ms)
      (name : IsField (valuesOf "output_name" ms) o.name)
      (type : IsField (valuesOf "output_type" ms) o.type) : IsOutput (.object ms) o
  | list {vs : List Value} {o : InferredOutput} (length : vs.length ≤ 2)
      (name : IsField (vs.take 1) o.name) (type : IsField (vs.drop 1) o.type) :
      IsOutput (.list vs) o

section

variable {v : Value} {vs : List Value} {s s' : String}

theorem isField_nil_iff : IsField [] s ↔ s = "" :=
  ⟨fun | .missing => rfl, fun h => h ▸ .missing⟩

theorem isField_singleton_iff : IsField [v] s ↔ v.textOrNull? = some s := by
  constructor
  · rintro (_ | _ | spelled)
    · rfl
    · exact spelled
  · intro h
    match v, h with
    | .null, rfl => exact .null
    | .text us, h => exact .text h

/-- Without a value a field is empty, and one value says what it holds. -/
theorem isField_iff : IsField vs s ↔ Json.IsHeld Value.textOrNull? "" vs s := by
  constructor
  · intro h
    match vs, h with
    | [], h => exact .inl ⟨rfl, isField_nil_iff.mp h⟩
    | [v], h => exact .inr ⟨v, s, rfl, isField_singleton_iff.mp h, rfl⟩
  · rintro (⟨rfl, rfl⟩ | ⟨v, x, rfl, hv, rfl⟩)
    · exact .missing
    · exact isField_singleton_iff.mpr hv

theorem IsField.eq_of_perm {vs' : List Value} (h : IsField vs s) (hperm : vs'.Perm vs) :
    vs' = vs := by
  cases h with
  | missing => exact List.perm_nil.mp hperm
  | null | text => exact List.perm_singleton.mp hperm

theorem isOutput_object_iff {ms : List (Units × Value)} {o : InferredOutput} :
    IsOutput (.object ms) o ↔ KeysSpell ms ∧ IsField (valuesOf "output_name" ms) o.name ∧
      IsField (valuesOf "output_type" ms) o.type :=
  ⟨fun | .object keys name type => ⟨keys, name, type⟩,
    fun ⟨keys, name, type⟩ => .object keys name type⟩

theorem isOutput_iff {o : InferredOutput} : IsOutput v o ↔
    ∃ vs ws, Json.GivesBoth "output_name" "output_type" v vs ws ∧ IsField vs o.name ∧
      IsField ws o.type := by
  constructor
  · rintro (⟨keys, name, type⟩ | ⟨length, name, type⟩)
    · exact ⟨_, _, .object keys, name, type⟩
    · exact ⟨_, _, .list length, name, type⟩
  · rintro ⟨vs, ws, hgives, name, type⟩
    cases hgives with
    | object keys => exact .object keys name type
    | list length => exact .list length name type

end

namespace InferredOutput

/-- What a value makes of an output as one of its fields. -/
def fieldMeaning (key : String) (_ : Nat) (v : Value) : Option (InferredOutput → InferredOutput) :=
  if key = "output_name" then v.textOrNull?.map fun s o => { o with name := s }
  else if key = "output_type" then v.textOrNull?.map fun s o => { o with type := s }
  else none

theorem read_means : Means read (shape.meaning fieldMeaning) := by
  refine Json.readRecord_means (List.forall_mem_cons.mpr ⟨?_, List.forall_mem_singleton.mpr ?_⟩)
  · exact Json.readTextOrNull_means.map fun s (o : InferredOutput) => { o with name := s }
  · exact Json.readTextOrNull_means.map fun s (o : InferredOutput) => { o with type := s }

/-- An output is its name and its type. -/
def pair : Json.Pair InferredOutput String where
  first := (·.name)
  second := (·.type)
  setFirst s o := { o with name := s }
  setSecond s o := { o with type := s }
  first_setFirst _ _ := rfl
  first_setSecond _ _ := rfl
  second_setFirst _ _ := rfl
  second_setSecond _ _ := rfl
  ext {o _} hname htype := by
    obtain ⟨name, type⟩ := o
    subst hname htype
    rfl

theorem meaning_eq_some_iff {depth : Nat} {v : Value} {o : InferredOutput} :
    shape.meaning fieldMeaning (depth + 1) v = some o ↔ IsOutput v o := by
  have members : shape.members =
      [⟨"output_name", false, _⟩, ⟨"output_type", false, _⟩] := rfl
  have hfield : fieldMeaning =
      pair.meaning "output_name" "output_type" Value.textOrNull? := rfl
  rw [hfield, pair.meaning_eq_some_iff (by decide) members, isOutput_iff]
  simp only [isField_iff]
  rfl

end InferredOutput

/-! ## Responses -/

/-- Whether a value lists outputs, in order. -/
inductive IsResponse : Value → InferenceResponse → Prop
  | object {ms : List (Units × Value)} {vs : List Value} {r : InferenceResponse}
      (keys : KeysSpell ms) (outputs : valuesOf "outputs" ms = [.list vs])
      (items : List.Forall₂ IsOutput vs r.outputs) : IsResponse (.object ms) r
  | list {vs : List Value} {r : InferenceResponse} (items : List.Forall₂ IsOutput vs r.outputs) :
      IsResponse (.list [.list vs]) r

theorem isResponse_object_iff {ms : List (Units × Value)} {r : InferenceResponse} :
    IsResponse (.object ms) r ↔ KeysSpell ms ∧
      ∃ vs, valuesOf "outputs" ms = [.list vs] ∧ List.Forall₂ IsOutput vs r.outputs :=
  ⟨fun | .object keys outputs items => ⟨keys, _, outputs, items⟩,
    fun ⟨keys, _, outputs, items⟩ => .object keys outputs items⟩

theorem isResponse_list_iff {vs : List Value} {r : InferenceResponse} :
    IsResponse (.list [.list vs]) r ↔ List.Forall₂ IsOutput vs r.outputs :=
  ⟨fun | .list items => items, .list⟩

namespace InferenceResponse

def outputsMeaning (depth : Nat) (v : Value) : Option (List InferredOutput) :=
  Json.listMeaning (InferredOutput.shape.meaning InferredOutput.fieldMeaning) depth v

/-- What a value makes of a response as its field. -/
def fieldMeaning (key : String) (depth : Nat) (v : Value) :
    Option (InferenceResponse → InferenceResponse) :=
  if key = "outputs" then (outputsMeaning depth v).map fun os _ => ⟨os⟩ else none

theorem read_means : Means read (shape.meaning fieldMeaning) := by
  refine Json.readRecord_means (List.forall_mem_singleton.mpr ?_)
  exact (Json.readList_means InferredOutput.read_means).map
    fun os (_ : InferenceResponse) => InferenceResponse.mk os

variable {depth : Nat} {ms : List (Units × Value)} {vs : List Value} {v : Value}
  {os : List InferredOutput} {r : InferenceResponse}

theorem outputsMeaning_eq_some_iff : outputsMeaning (depth + 2) v = some os ↔
    ∃ vs, v = .list vs ∧ List.Forall₂ IsOutput vs os := by
  rw [outputsMeaning, Json.listMeaning_eq_some_iff]
  simp only [InferredOutput.meaning_eq_some_iff]

theorem isResponse_iff : IsResponse v r ↔
    ∃ vs, Json.Gives "outputs" v [.list vs] ∧ List.Forall₂ IsOutput vs r.outputs := by
  constructor
  · rintro (⟨keys, outputs, items⟩ | items)
    · exact ⟨_, .object keys outputs, items⟩
    · exact ⟨_, .list, items⟩
  · rintro ⟨vs, hgives, items⟩
    cases hgives with
    | object keys outputs => exact .object keys outputs items
    | list => exact .list items

theorem meaning_eq_some_iff :
    shape.meaning fieldMeaning (depth + 3) v = some r ↔ IsResponse v r := by
  have only : shape.members = [⟨"outputs", true, _⟩] := rfl
  have hfield : fieldMeaning = Json.Shape.onlyMeaning "outputs" outputsMeaning mk := rfl
  rw [hfield, Json.Shape.meaning_only_eq_some_iff only, isResponse_iff]
  constructor
  · rintro ⟨vs, hgives, ⟨-, hrequired, -⟩ | ⟨v, os, rfl, hmeans, rfl⟩⟩
    · cases hrequired
    · obtain ⟨vs, rfl, items⟩ := outputsMeaning_eq_some_iff.mp hmeans
      exact ⟨vs, hgives, items⟩
  · rintro ⟨vs, hgives, items⟩
    exact ⟨_, hgives, .inr ⟨_, r.outputs, rfl, outputsMeaning_eq_some_iff.mpr ⟨vs, rfl, items⟩, rfl⟩⟩

end InferenceResponse

/-! ## Ways of writing the same response -/

/-- One object from another: its members stand in another order, or there is one more, which
is none of the known ones. -/
inductive Rearranged (known : List String) :
    List (Units × Value) → List (Units × Value) → Prop
  | order {ms ms' : List (Units × Value)} (perm : ms'.Perm ms) : Rearranged known ms ms'
  | unknown {us : Units} {key : String} {v : Value} {ms : List (Units × Value)}
      (spelled : us.text? = some key) (other : key ∉ known) : Rearranged known ms ((us, v) :: ms)

/-- One list of outputs from another: an object among them is rearranged. -/
inductive OutputsRewritten : List Value → List Value → Prop
  | first {ms ms' : List (Units × Value)} {vs : List Value}
      (members : Rearranged ["output_name", "output_type"] ms ms') :
      OutputsRewritten (.object ms :: vs) (.object ms' :: vs)
  | later {v : Value} {vs vs' : List Value} (next : OutputsRewritten vs vs') :
      OutputsRewritten (v :: vs) (v :: vs')

/-- One response from another: its members or those of an output are rearranged. -/
inductive Rewritten : Value → Value → Prop
  | members {ms ms' : List (Units × Value)} (members : Rearranged ["outputs"] ms ms') :
      Rewritten (.object ms) (.object ms')
  | outputs {us : Units} {vs vs' : List Value} {ms : List (Units × Value)}
      (key : us.text? = some "outputs") (items : OutputsRewritten vs vs') :
      Rewritten (.object ((us, .list vs) :: ms)) (.object ((us, .list vs') :: ms))
  | items {vs vs' : List Value} (items : OutputsRewritten vs vs') :
      Rewritten (.list [.list vs]) (.list [.list vs'])

section

variable {known : List String} {key : String} {ms ms' : List (Units × Value)}
  {vs vs' : List Value} {v v' : Value}

theorem Rearranged.keysSpell_iff (h : Rearranged known ms ms') : KeysSpell ms' ↔ KeysSpell ms := by
  cases h with
  | order perm => exact Json.keysSpell_perm perm
  | unknown spelled => rw [Json.keysSpell_cons, spelled, Option.isSome_some, eq_self, true_and]

theorem Rearranged.valuesOf_perm (h : Rearranged known ms ms') (hkey : key ∈ known) :
    (valuesOf key ms').Perm (valuesOf key ms) := by
  cases h with
  | order perm => exact Json.valuesOf_perm perm
  | unknown spelled other =>
      rw [Json.valuesOf_cons_ne]
      rw [spelled]
      exact fun heq => other (Option.some.inj heq ▸ hkey)

theorem Rearranged.isField_iff {s : String} (h : Rearranged known ms ms') (hkey : key ∈ known) :
    IsField (valuesOf key ms') s ↔ IsField (valuesOf key ms) s := by
  have hperm := h.valuesOf_perm hkey
  constructor <;> intro hfield
  · rwa [hfield.eq_of_perm hperm.symm]
  · rwa [hfield.eq_of_perm hperm]

theorem Rearranged.isOutput_iff {o : InferredOutput}
    (h : Rearranged ["output_name", "output_type"] ms ms') :
    IsOutput (.object ms') o ↔ IsOutput (.object ms) o := by
  rw [isOutput_object_iff, isOutput_object_iff, h.keysSpell_iff, h.isField_iff (by simp),
    h.isField_iff (by simp)]

theorem OutputsRewritten.forall₂_isOutput_iff {os : List InferredOutput}
    (h : OutputsRewritten vs vs') :
    List.Forall₂ IsOutput vs' os ↔ List.Forall₂ IsOutput vs os := by
  induction h generalizing os with
  | first members => simp only [List.forall₂_cons_left_iff, members.isOutput_iff]
  | later _ ih => simp only [List.forall₂_cons_left_iff, ih]

theorem Rewritten.isResponse_iff {r : InferenceResponse} (h : Rewritten v v') :
    IsResponse v' r ↔ IsResponse v r := by
  cases h with
  | @members ms ms' h =>
      rw [isResponse_object_iff, isResponse_object_iff, h.keysSpell_iff]
      refine and_congr_right fun _ => exists_congr fun vs => and_congr_left fun _ => ?_
      have hperm : (valuesOf "outputs" ms').Perm (valuesOf "outputs" ms) :=
        h.valuesOf_perm (List.mem_singleton_self _)
      constructor <;> intro hvalues
      · exact (List.singleton_perm.mp (hvalues ▸ hperm)).symm
      · exact List.perm_singleton.mp (hvalues ▸ hperm)
  | outputs key items =>
      rw [isResponse_object_iff, isResponse_object_iff, Json.keysSpell_cons, Json.keysSpell_cons,
        Json.valuesOf_cons_self key, Json.valuesOf_cons_self key]
      refine and_congr_right fun _ => ?_
      simp only [List.cons.injEq, Value.list.injEq, and_assoc, exists_eq_left',
        items.forall₂_isOutput_iff]
  | items items => rw [isResponse_list_iff, isResponse_list_iff, items.forall₂_isOutput_iff]

theorem isResponse_iff_of_rewritten {r : InferenceResponse} (h : Relation.EqvGen Rewritten v v') :
    IsResponse v r ↔ IsResponse v' r := by
  induction h with
  | rel _ _ h => exact h.isResponse_iff.symm
  | refl => exact Iff.rfl
  | symm _ _ _ ih => exact ih.symm
  | trans _ _ _ _ _ ih ih' => exact ih.trans ih'

end

/-! ## Replies -/

namespace Chat

open Json (IsDocument)

/-- Whether a text answers with a response: it is one value, which lists the outputs. -/
def Answers (text : String) (r : InferenceResponse) : Prop :=
  ∃ v, IsDocument v (Text.piecesOf text) ∧ IsResponse v r

/-- Whether two texts say the same. Both are one value, and members may be rearranged in
between. White space and escapes do not show in the value at all. -/
def SameReply (text text' : String) : Prop :=
  ∃ v v', IsDocument v (Text.piecesOf text) ∧ IsDocument v' (Text.piecesOf text') ∧
    Relation.EqvGen Rewritten v v'

theorem decode_eq_ok_iff {text : String} {r : InferenceResponse} :
    Json.decode InferenceResponse.read text = .ok r ↔ Answers text r := by
  rw [InferenceResponse.read_means.decode_eq_ok_iff]
  refine exists_congr fun v => and_congr_right fun _ => ?_
  exact InferenceResponse.meaning_eq_some_iff

theorem answers_iff_of_sameReply {text text' : String} {r : InferenceResponse}
    (h : SameReply text text') : Answers text r ↔ Answers text' r := by
  obtain ⟨v, v', hv, hv', hrewritten⟩ := h
  have hiff := isResponse_iff_of_rewritten (r := r) hrewritten
  constructor
  · rintro ⟨w, hw, hr⟩
    obtain rfl := hv.unique hw
    exact ⟨v', hv', hiff.mp hr⟩
  · rintro ⟨w, hw, hr⟩
    obtain rfl := hv'.unique hw
    exact ⟨v, hv, hiff.mpr hr⟩

namespace Completion

variable {text : String} {others : List String} {r : InferenceResponse}

theorem response_cons : (mk (text :: others)).response =
    match Json.decode InferenceResponse.read text with
    | .ok r => .ok r
    | .error reason => .error (.malformedReply reason) := rfl

theorem response_eq_ok_iff : (mk (text :: others)).response = .ok r ↔ Answers text r := by
  rw [← decode_eq_ok_iff, response_cons]
  cases Json.decode InferenceResponse.read text <;> simp

theorem response_eq_malformed_iff :
    (∃ reason, (mk (text :: others)).response = .error (.malformedReply reason)) ↔
      ¬ ∃ r, Answers text r := by
  simp only [← decode_eq_ok_iff, response_cons]
  cases Json.decode InferenceResponse.read text <;> simp

/-- A reply is read as what its first text answers, and a text that answers nothing is malformed.
Two texts that say the same are read alike. -/
theorem response_answers (text : String) (others : List String) :
    (∀ r, (mk (text :: others)).response = .ok r ↔ Answers text r) ∧
    ((∃ reason, (mk (text :: others)).response = .error (.malformedReply reason)) ↔
      ¬ ∃ r, Answers text r) ∧
    ∀ text' others', SameReply text text' → ∀ r,
      (mk (text :: others)).response = .ok r ↔ (mk (text' :: others')).response = .ok r := by
  refine ⟨fun r => response_eq_ok_iff, response_eq_malformed_iff, fun text' others' hsame r => ?_⟩
  rw [response_eq_ok_iff, response_eq_ok_iff, answers_iff_of_sameReply hsame]

/-- An escape in a key, white space, and a member nobody asked for, whose number is beyond any
size. -/
theorem response_answers_rewritten :
    SameReply "\x7b\"outputs\":[[\"a\"]]\x7d"
      "\x7b\"output\\u0073\" : [[\"a\"]], \"x\":1e999\x7d" ∧
    (mk ["\x7b\"output\\u0073\" : [[\"a\"]], \"x\":1e999\x7d"]).response =
      .ok ⟨[⟨"a", ""⟩]⟩ := by
  have houtputs (rest : List Piece) := Json.SpellsString.append_plain
    ['o', 'u', 't', 'p', 'u', 't', 's'] (by simp [Json.isControl]) (@Json.SpellsString.close rest)
  have hescaped (rest : List Piece) := Json.SpellsString.append_plain
    ['o', 'u', 't', 'p', 'u', 't'] (by simp [Json.isControl]) (@Json.SpellsString.code
      [.char '0', .char '0', .char '7', .char '3'] _ _ _ _ rest rfl rfl rfl .close)
  have ha (rest : List Piece) := Json.SpellsString.append_plain
    ['a'] (by simp [Json.isControl]) (@Json.SpellsString.close rest)
  have hx (rest : List Piece) := Json.SpellsString.append_plain
    ['x'] (by simp [Json.isControl]) (@Json.SpellsString.close rest)
  have hnumber : Json.IsNumber [.char '1', .char 'e', .char '9', .char '9', .char '9'] :=
    @Json.IsNumber.mk [] [.char '1'] [] [.char 'e', .char '9', .char '9', .char '9'] (.inl rfl)
      (.more ⟨by simp, by decide⟩ (by decide)) .none
      (@Json.IsExponent.some 'e' [] [.char '9', .char '9', .char '9'] (.inl rfl) (.inl rfl)
        ⟨by simp, by decide⟩)
  have hsame : SameReply "\x7b\"outputs\":[[\"a\"]]\x7d"
      "\x7b\"output\\u0073\" : [[\"a\"]], \"x\":1e999\x7d" := by
    refine ⟨_, _, ⟨[], .object (.lastMember (.member rfl (houtputs _) rfl
        (.list (.lastItem (.list (.lastItem (.text (ha _)) rfl)) rfl))) rfl), rfl⟩,
      ⟨[], .object (.moreMembers (.member rfl (hescaped _) rfl
        (.list (.lastItem (.list (.lastItem (.text (ha _)) rfl)) rfl))) rfl
        (.lastMember (.member rfl (hx _) rfl (.number hnumber rfl)) rfl)), rfl⟩, ?_⟩
    -- The unknown member comes first, and then the two change places.
    have hkey : Units.text? (['x'].flatMap Json.unitsOf ++ []) = some "x" := rfl
    exact .trans _ _ _ (.rel _ _ (.members (.unknown hkey (by decide))))
      (.rel _ _ (.members (.order (.swap _ _ _))))
  exact ⟨hsame, ((response_answers _ []).2.2 _ [] hsame _).mp (by decide)⟩

end Completion

end Chat

end ModuleOutputs
