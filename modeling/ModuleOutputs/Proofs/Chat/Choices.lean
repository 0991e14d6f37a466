import ModuleOutputs.Proofs.Chat.Refusal
import ModuleOutputs.Proofs.Chat.ServiceError
import ModuleOutputs.Proofs.Json.Unambiguous

/-!
The choices of a reply with success. The texts among them are the completion, in order. Without
a text the first refusal is what the reply comes to, and without a refusal the completion is
empty. A body that offers no choices in the form asked for is malformed as a whole.
-/

namespace ModuleOutputs.Chat

open Json (Units Value Means valuesOf KeysSpell IsDocument Gives)
open Text (Bytes)

/-- A text by the values given for it: it may be left out or `null`, like the code of an error. -/
abbrev IsOptionalText : List Value → Option String → Prop := IsCode

/-- Whether a value is the message of a choice: an object, or a list of its fields in order. -/
inductive IsMessage : Value → Choice → Prop
  | object {ms : List (Units × Value)} {c : Choice} (keys : KeysSpell ms)
      (content : IsOptionalText (valuesOf "content" ms) c.content)
      (refusal : IsOptionalText (valuesOf "refusal" ms) c.refusal) : IsMessage (.object ms) c
  | list {vs : List Value} {c : Choice} (length : vs.length ≤ 2)
      (content : IsOptionalText (vs.take 1) c.content)
      (refusal : IsOptionalText (vs.drop 1) c.refusal) : IsMessage (.list vs) c

/-- Whether a value is a choice: it gives one message. -/
inductive IsChoice (v : Value) (c : Choice) : Prop
  | mk {message : Value} (given : Gives "message" v [message]) (isMessage : IsMessage message c)

/-- Whether a value offers choices: it lists them in order, or it says nothing of choices. -/
inductive OffersChoices (v : Value) : List Choice → Prop
  | unsaid (none : Gives "choices" v []) : OffersChoices v []
  | listed {vs : List Value} {choices : List Choice} (given : Gives "choices" v [.list vs])
      (each : List.Forall₂ IsChoice vs choices) : OffersChoices v choices

/-- Whether a body offers choices: it is one value, which does. -/
def Offers (body : Bytes) (choices : List Choice) : Prop :=
  ∃ v, IsDocument v (Text.pieces body) ∧ OffersChoices v choices

/-- Whether these are the texts of choices, in order and without the empty ones. -/
inductive HaveTexts : List Choice → List String → Prop
  | nil : HaveTexts [] []
  | text {s : String} {refusal : Option String} {choices : List Choice} {texts : List String}
      (nonempty : s ≠ "") (next : HaveTexts choices texts) :
      HaveTexts (⟨some s, refusal⟩ :: choices) (s :: texts)
  | silent {c : Choice} {choices : List Choice} {texts : List String}
      (noText : c.content = none ∨ c.content = some "") (next : HaveTexts choices texts) :
      HaveTexts (c :: choices) texts

/-- Whether this is the refusal of the first choice that has one. -/
def FirstRefusal (choices : List Choice) (refusal : String) : Prop :=
  ∃ before c after, choices = before ++ c :: after ∧ (∀ c' ∈ before, c'.refusal = none) ∧
    c.refusal = some refusal

/-- Whether a value is no choice for want of a message. -/
inductive LacksMessage : Value → Prop
  | object {ms : List (Units × Value)} (noMessage : valuesOf "message" ms = []) :
      LacksMessage (.object ms)
  | list : LacksMessage (.list [])

/-! ## Messages -/

namespace Choice

variable {depth : Nat} {vs : List Value} {v : Value} {c : Choice}

/-- A choice is the two texts of its message. -/
def pair : Json.Pair Choice (Option String) where
  first := (·.content)
  second := (·.refusal)
  setFirst s c := { c with content := s }
  setSecond s c := { c with refusal := s }
  first_setFirst _ _ := rfl
  first_setSecond _ _ := rfl
  second_setFirst _ _ := rfl
  second_setSecond _ _ := rfl
  ext {c _} hcontent hrefusal := by
    obtain ⟨content, refusal⟩ := c
    subst hcontent hrefusal
    rfl

/-- What a value makes of a choice as its message. -/
def messageMeaning : Nat → Value → Option Choice :=
  messageShape.meaning (pair.meaning "content" "refusal" (Value.option? Value.text?))

theorem readMessage_means : Means (Json.readRecord messageShape) messageMeaning := by
  have htext := Json.readOption_means Json.readText_means fun _ => rfl
  refine Json.readRecord_means (List.forall_mem_cons.mpr ⟨?_, List.forall_mem_singleton.mpr ?_⟩)
  · exact htext.map fun s (c : Choice) => { c with content := s }
  · exact htext.map fun s (c : Choice) => { c with refusal := s }

theorem isMessage_iff : IsMessage v c ↔
    ∃ vs ws, Json.GivesBoth "content" "refusal" v vs ws ∧ IsOptionalText vs c.content ∧
      IsOptionalText ws c.refusal := by
  constructor
  · rintro (⟨keys, content, refusal⟩ | ⟨length, content, refusal⟩)
    · exact ⟨_, _, .object keys, content, refusal⟩
    · exact ⟨_, _, .list length, content, refusal⟩
  · rintro ⟨vs, ws, hgives, content, refusal⟩
    cases hgives with
    | object keys => exact .object keys content refusal
    | list length => exact .list length content refusal

theorem messageMeaning_eq_some_iff :
    messageMeaning (depth + 1) v = some c ↔ IsMessage v c := by
  have members : messageShape.members = [⟨"content", false, _⟩, ⟨"refusal", false, _⟩] := rfl
  rw [messageMeaning, pair.meaning_eq_some_iff (by decide) members, isMessage_iff]
  simp only [IsOptionalText, isCode_iff]
  rfl

/-! ## Choices -/

/-- What a value makes of a choice. -/
def meaning : Nat → Value → Option Choice :=
  shape.meaning (Json.Shape.onlyMeaning "message" messageMeaning id)

theorem read_means : Means (Json.readRecord shape) meaning :=
  Json.readRecord_means (List.forall_mem_singleton.mpr (readMessage_means.map fun c _ => c))

theorem meaning_eq_some_iff : meaning (depth + 2) v = some c ↔ IsChoice v c := by
  have only : shape.members = [⟨"message", true, _⟩] := rfl
  refine (Json.Shape.meaning_only_eq_some_iff only).trans ⟨?_, ?_⟩
  · rintro ⟨vs, hgives, ⟨-, hrequired, -⟩ | ⟨message, c', rfl, hmeans, rfl⟩⟩
    · cases hrequired
    · exact ⟨hgives, messageMeaning_eq_some_iff.mp hmeans⟩
  · rintro ⟨hgives, hmessage⟩
    exact ⟨_, hgives, .inr ⟨_, c, rfl, messageMeaning_eq_some_iff.mpr hmessage, rfl⟩⟩

end Choice

/-! ## Bodies -/

section

variable {depth : Nat} {v : Value} {choices : List Choice} {body : Bytes}

/-- What a value makes of the choices in a body. -/
def choicesMeaning : Nat → Value → Option (List Choice) :=
  choicesShape.meaning (Json.Shape.onlyMeaning "choices" (Json.listMeaning Choice.meaning) id)

theorem readChoices_means : Means (Json.readRecord choicesShape) choicesMeaning :=
  Json.readRecord_means (List.forall_mem_singleton.mpr
    ((Json.readList_means Choice.read_means).map fun cs _ => cs))

theorem listMeaning_eq_some_iff : Json.listMeaning Choice.meaning (depth + 3) v = some choices ↔
    ∃ vs, v = .list vs ∧ List.Forall₂ IsChoice vs choices := by
  rw [Json.listMeaning_eq_some_iff]
  simp only [Choice.meaning_eq_some_iff]

theorem choicesMeaning_eq_some_iff :
    choicesMeaning (depth + 4) v = some choices ↔ OffersChoices v choices := by
  have only : choicesShape.members = [⟨"choices", false, _⟩] := rfl
  refine (Json.Shape.meaning_only_eq_some_iff only).trans ⟨?_, ?_⟩
  · rintro ⟨vs, hgives, ⟨rfl, -, rfl⟩ | ⟨w, cs, rfl, hmeans, rfl⟩⟩
    · exact .unsaid hgives
    · obtain ⟨vs, rfl, heach⟩ := listMeaning_eq_some_iff.mp hmeans
      exact .listed hgives heach
  · rintro (hgives | ⟨hgives, heach⟩)
    · exact ⟨[], hgives, .inl ⟨rfl, rfl, rfl⟩⟩
    · exact ⟨_, hgives, .inr ⟨_, choices, rfl, listMeaning_eq_some_iff.mpr ⟨_, rfl, heach⟩, rfl⟩⟩

/-- A body is read as the choices that it offers. -/
theorem decodeBytes_eq_ok_iff :
    Json.decodeBytes (Json.readRecord choicesShape) body = .ok choices ↔ Offers body choices := by
  refine readChoices_means.decodePieces_eq_ok_iff.trans (exists_congr fun v => ?_)
  exact and_congr_right fun _ => choicesMeaning_eq_some_iff

/-- The choices that a body offers are those that it lists, one for one. -/
theorem OffersChoices.forall₂_of_gives {vs : List Value} (h : OffersChoices v choices)
    (given : Gives "choices" v [.list vs]) : List.Forall₂ IsChoice vs choices := by
  cases h with
  | unsaid hnone => cases hnone.unique given
  | listed hlisted heach =>
      cases hlisted.unique given
      exact heach

theorem exists_isChoice_of_mem {vs : List Value} (h : List.Forall₂ IsChoice vs choices)
    (hv : v ∈ vs) : ∃ c, IsChoice v c := by
  induction h with
  | nil => cases hv
  | cons hfirst _ ih =>
      rcases List.mem_cons.mp hv with rfl | hv
      · exact ⟨_, hfirst⟩
      · exact ih hv

theorem LacksMessage.not_isChoice {c : Choice} (h : LacksMessage v) : ¬ IsChoice v c := by
  rintro ⟨hgives, -⟩
  cases h with
  | object hnone =>
      obtain ⟨-, hvalues⟩ := hgives
      cases hnone.symm.trans hvalues
  | list => cases hgives

end

/-! ## Completions -/

section

variable {choices : List Choice} {texts : List String} {refusal : String} {body : Bytes}
  {status : Nat}

theorem partsOf_text {s : String} {refusal : Option String} (nonempty : s ≠ "") :
    partsOf (⟨some s, refusal⟩ :: choices) = s :: partsOf choices := by
  have hkept : (some s).filter (· != "") = some s := by simp [Option.filter, nonempty]
  exact List.filterMap_cons_some hkept

theorem partsOf_silent {c : Choice} (noText : c.content = none ∨ c.content = some "") :
    partsOf (c :: choices) = partsOf choices := by
  have hdropped : c.content.filter (· != "") = none := by
    rcases noText with hnone | hempty
    · rw [hnone]
      rfl
    · rw [hempty]
      rfl
  exact List.filterMap_cons_none hdropped

theorem haveTexts_partsOf (choices : List Choice) : HaveTexts choices (partsOf choices) := by
  induction choices with
  | nil => exact .nil
  | cons c choices ih =>
      match c with
      | ⟨none, _⟩ => exact .silent (.inl rfl) ih
      | ⟨some s, _⟩ =>
          by_cases hs : s = ""
          · subst hs
            exact .silent (.inr rfl) ih
          · rw [partsOf_text hs]
            exact .text hs ih

/-- The parts of a completion are the texts of its choices. -/
theorem HaveTexts.partsOf_eq (h : HaveTexts choices texts) : partsOf choices = texts := by
  induction h with
  | nil => rfl
  | text nonempty _ ih => rw [partsOf_text nonempty, ih]
  | silent noText _ ih => rw [partsOf_silent noText, ih]

theorem firstRefusal_iff :
    FirstRefusal choices refusal ↔ choices.findSome? (·.refusal) = some refusal := by
  rw [List.findSome?_eq_some_iff]
  constructor
  · rintro ⟨before, c, after, rfl, hnone, hsome⟩
    exact ⟨before, c, after, rfl, hsome, hnone⟩
  · rintro ⟨before, c, after, rfl, hsome, hnone⟩
    exact ⟨before, c, after, rfl, hnone, hsome⟩

/-- A text makes refusals irrelevant. -/
theorem completionOf_of_texts (h : HaveTexts choices texts) (hne : texts ≠ []) :
    completionOf choices = .ok ⟨texts⟩ := by
  obtain ⟨first, others, rfl⟩ := List.exists_cons_of_ne_nil hne
  rw [completionOf, h.partsOf_eq]

theorem completionOf_of_refusal (h : HaveTexts choices [])
    (hrefusal : FirstRefusal choices refusal) : completionOf choices = .error (refused refusal) :=
  completionOf_eq_error_iff.mpr
    ⟨refusal, partsOf_eq_nil_iff.mp h.partsOf_eq, firstRefusal_iff.mp hrefusal, rfl⟩

theorem completionOf_of_silence (h : HaveTexts choices [])
    (hnone : ∀ c ∈ choices, c.refusal = none) : completionOf choices = .ok ⟨[]⟩ := by
  have hrefusal : refusalOf choices = none := by
    rw [refusalOf_of_partsOf h.partsOf_eq]
    exact List.findSome?_eq_none_iff.mpr hnone
  rw [completionOf, h.partsOf_eq, hrefusal]

theorem readReply_of_offers (hsuccess : Http.isSuccess status = true) (h : Offers body choices) :
    readReply status body = completionOf choices := by
  rw [readReply, if_pos hsuccess, decodeBytes_eq_ok_iff.mpr h]

theorem readReply_malformed_iff (hsuccess : Http.isSuccess status = true) :
    (∃ reason, readReply status body = .error (.malformedReply
      ("Invalid chat completion body: error decoding response body: " ++ reason))) ↔
      ¬ ∃ choices, Offers body choices := by
  simp only [← decodeBytes_eq_ok_iff]
  constructor
  · rintro ⟨reason, h⟩ ⟨choices, hchoices⟩
    obtain ⟨_, herror, -⟩ | ⟨refusal, -, hrefused⟩ := (readReply_eq_error_iff hsuccess).mp h
    · cases herror.symm.trans hchoices
    · unfold refused at hrefused
      split at hrefused <;> cases hrefused
  · intro h
    cases hdecode : Json.decodeBytes (Json.readRecord choicesShape) body with
    | ok choices => exact absurd ⟨choices, hdecode⟩ h
    | error reason =>
        exact ⟨reason, (readReply_eq_error_iff hsuccess).mpr (.inl ⟨reason, hdecode, rfl⟩)⟩

/-- One choice without a message spoils all of them. -/
theorem not_offers_of_lacksMessage {v : Value} {vs : List Value}
    (hdocument : IsDocument v (Text.pieces body)) (given : Gives "choices" v [.list vs])
    (hlacks : ∃ w ∈ vs, LacksMessage w) : ¬ ∃ choices, Offers body choices := by
  rintro ⟨choices, v', hv', hoffers⟩
  obtain rfl := hdocument.unique hv'
  obtain ⟨w, hw, hlacks⟩ := hlacks
  obtain ⟨c, hchoice⟩ := exists_isChoice_of_mem (hoffers.forall₂_of_gives given) hw
  exact hlacks.not_isChoice hchoice

end

/-- What a reply with success comes to. Texts are the completion, in order and whatever refusals
there are, and only the first of them is read as a response. Without a text the first refusal is
the failure, and without a refusal there is no completion to be read. Anything else in the reply
is malformed, and one choice without a message is enough for that. -/
theorem complete_choices (c : InferenceConfig) (apiKey : String) (call : Call) (w : World)
    {sent : Http.Sent} (hsent : request c apiKey call = .ok sent)
    (hsuccess : Http.isSuccess (Http.documentOf (w.reply 0)).1 = true) :
    (∀ choices, Offers (Http.documentOf (w.reply 0)).2 choices → ∃ texts,
      HaveTexts choices texts ∧
      (texts ≠ [] → (complete c apiKey call w).1 = .ok ⟨texts⟩) ∧
      (texts = [] → ∀ refusal, FirstRefusal choices refusal → (complete c apiKey call w).1 =
        .error (if Failure.saysTooLarge refusal then .tooLarge ("Model refused: " ++ refusal)
          else .inference ("Model refused: " ++ refusal))) ∧
      (texts = [] → (∀ choice ∈ choices, choice.refusal = none) →
        (complete c apiKey call w).1 = .ok ⟨[]⟩)) ∧
    (Completion.mk []).response = .error .noCompletion ∧
    (∀ first others, (Completion.mk (first :: others)).response =
      (Completion.text first).response) ∧
    ((∃ reason, (complete c apiKey call w).1 = .error (.malformedReply
        ("Invalid chat completion body: error decoding response body: " ++ reason))) ↔
      ¬ ∃ choices, Offers (Http.documentOf (w.reply 0)).2 choices) ∧
    ∀ v vs, IsDocument v (Text.pieces (Http.documentOf (w.reply 0)).2) →
      Gives "choices" v [.list vs] → (∃ value ∈ vs, LacksMessage value) →
      ∃ reason, (complete c apiKey call w).1 = .error (.malformedReply
        ("Invalid chat completion body: error decoding response body: " ++ reason)) := by
  have hcomplete : (complete c apiKey call w).1 =
      readReply (Http.documentOf (w.reply 0)).1 (Http.documentOf (w.reply 0)).2 := by
    rw [complete_apply, hsent, completionIn_of_fault? (Http.fault?_of_isSuccess hsuccess)]
  rw [hcomplete]
  refine ⟨?_, rfl, fun first others => rfl, readReply_malformed_iff hsuccess, ?_⟩
  · intro choices hoffers
    have htexts := haveTexts_partsOf choices
    rw [readReply_of_offers hsuccess hoffers]
    refine ⟨partsOf choices, htexts, completionOf_of_texts htexts, ?_, ?_⟩
    · intro hnil refusal hrefusal
      exact completionOf_of_refusal (hnil ▸ htexts) hrefusal
    · intro hnil hnone
      exact completionOf_of_silence (hnil ▸ htexts) hnone
  · intro v vs hdocument given hlacks
    exact (readReply_malformed_iff hsuccess).mpr (not_offers_of_lacksMessage hdocument given hlacks)

/-- A world in which the service offers an empty text with a refusal, a text, `null`, and another
text with a refusal. -/
def offering : World :=
  .replying [.document 200 (Text.utf8
    ("\x7b\"choices\":[\x7b\"message\":\x7b\"content\":\"\",\"refusal\":\"no\"\x7d\x7d," ++
      "\x7b\"message\":\x7b\"content\":\"a\"\x7d\x7d," ++
      "\x7b\"message\":\x7b\"content\":null\x7d\x7d," ++
      "\x7b\"message\":[\"b\",\"never\"]\x7d]\x7d"))]

theorem complete_choices_offering : ∃ sent,
    request {} "key" (Inference.callFor "schema" []) = .ok sent ∧
    Http.isSuccess (Http.documentOf (offering.reply 0)).1 = true ∧
    (complete {} "key" (Inference.callFor "schema" []) offering).1 = .ok ⟨["a", "b"]⟩ := by
  have hoffers : Offers (Http.documentOf (offering.reply 0)).2
      [⟨some "", some "no"⟩, ⟨some "a", none⟩, ⟨none, none⟩, ⟨some "b", some "never"⟩] :=
    decodeBytes_eq_ok_iff.mp (by decide +kernel)
  have hsent : request {} "key" (Inference.callFor "schema" []) = .ok _ := rfl
  have hsuccess : Http.isSuccess (Http.documentOf (offering.reply 0)).1 = true := by decide
  obtain ⟨texts, htexts, hcomplete, -⟩ :=
    (complete_choices {} "key" (Inference.callFor "schema" []) offering hsent hsuccess).1 _ hoffers
  obtain rfl : ["a", "b"] = texts := htexts.partsOf_eq
  exact ⟨_, hsent, hsuccess, hcomplete (by decide)⟩

end ModuleOutputs.Chat
