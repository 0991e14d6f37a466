import ModuleOutputs.Proofs.Chat.Refusal
import ModuleOutputs.Proofs.Chat.ServiceError
import ModuleOutputs.Proofs.Text.Folding

/-!
Replies without success. Such a reply is a failure, for size or for any other reason, by what its
body says. The status, the message and the code are put together in one text and the phrases are
looked for in that, but no phrase begins in one of them and ends in another, and none is in a
status. So the failure is for size exactly if the message or the code has a phrase, with ASCII
letters in any case; where the body reports no error, the body itself has to have one.
-/

namespace ModuleOutputs

namespace Failure

/-- Whether a text mentions, with ASCII letters in any case, that a conversation is too large. -/
def Mentions (text : String) : Prop :=
  ∃ phrase ∈ tooLargePhrases, phrase.toList <:+: text.toList.map Char.toLower

instance (text : String) : Decidable (Mentions text) :=
  inferInstanceAs
    (Decidable (∃ phrase ∈ tooLargePhrases, phrase.toList <:+: text.toList.map Char.toLower))

theorem isPlain_tooLargePhrases : ∀ phrase ∈ tooLargePhrases, Text.IsPlain phrase.toList := by
  decide +kernel

/-- In whatever way a text is put in lower case, it has the phrases that it mentions. -/
theorem mentions_iff_of_lowers {text : String} {lowered : List Char}
    (h : Text.Lowers text.toList lowered) :
    Mentions text ↔ ∃ phrase ∈ tooLargePhrases, phrase.toList <:+: lowered := by
  refine exists_congr fun phrase => and_congr_right fun hphrase => ?_
  rw [(isPlain_tooLargePhrases phrase hphrase).infix_lowers_iff h]

theorem saysTooLarge_eq_true_iff {text : String} : saysTooLarge text = true ↔ Mentions text := by
  rw [mentions_iff_of_lowers (Text.lowers_lowercase _), saysTooLarge, List.any_eq_true]
  exact exists_congr fun phrase => and_congr_right fun _ => Text.containsRun_iff

theorem ofReport_eq (text : String) :
    ofReport text = if Mentions text then .tooLarge text else .inference text := by
  simp only [ofReport, saysTooLarge_eq_true_iff]

/-! ## Joints -/

/-- The characters that stand between the parts of a report are in no phrase, and no phrase begins
or ends with a blank. -/
theorem joints_tooLargePhrases : ∀ phrase ∈ tooLargePhrases,
    (':' ∉ phrase.toList ∧ '(' ∉ phrase.toList ∧ ')' ∉ phrase.toList) ∧
      phrase.toList.head? ≠ some ' ' ∧ phrase.toList.getLast? ≠ some ' ' := by
  decide +kernel

/-- A code in brackets behind a message adds what the code mentions. -/
theorem mentions_withCode_iff (message code : String) :
    Mentions (message ++ " (" ++ code ++ ")") ↔ Mentions message ∨ Mentions code := by
  unfold Mentions
  rw [← exists_or]
  refine exists_congr fun phrase => ?_
  rw [← and_or_left]
  refine and_congr_right fun hphrase => ?_
  obtain ⟨⟨-, hopen, hclose⟩, -, hlast⟩ := joints_tooLargePhrases phrase hphrase
  have hparts : (message ++ " (" ++ code ++ ")").toList.map Char.toLower =
      (message.toList.map Char.toLower ++ [' ']) ++
        '(' :: (code.toList.map Char.toLower ++ ')' :: []) := by
    simp [String.toList_append]
  have hnil : phrase.toList <:+: [] → phrase.toList <:+: code.toList.map Char.toLower :=
    fun h => h.trans List.nil_infix
  rw [hparts, Text.infix_append_cons_iff_of_notMem hopen, Text.infix_concat_iff_of_getLast? hlast,
    Text.infix_append_cons_iff_of_notMem hclose, or_iff_left_of_imp hnil]

theorem toLower_of_isDigit {c : Char} (h : c.isDigit = true) : c.toLower = c := by
  refine dif_neg ?_
  rintro ⟨hle, -⟩
  rw [Char.isDigit, Bool.and_eq_true, decide_eq_true_eq, decide_eq_true_eq] at h
  exact absurd (UInt32.le_trans hle h.2) (by decide)

theorem isDigit_of_mem_toString {n : Nat} {c : Char} (h : c ∈ (toString n).toList) :
    c.isDigit = true := by
  rw [Nat.toString_eq_ofList_toDigits, String.toList_ofList] at h
  exact Nat.isDigit_of_mem_toDigits (by decide) (by decide) h

/-- No status mentions that a conversation is too large. -/
theorem not_mentions_statusText (status : Nat) : ¬ Mentions (Http.statusText status) := by
  have hdigits : ∀ phrase ∈ tooLargePhrases, phrase.toList.any Char.isDigit = false := by
    decide +kernel
  have hreasons : ∀ reason ∈ "<unknown status code>" :: Http.reasons.map Prod.snd,
      ∀ phrase ∈ tooLargePhrases,
        ¬ phrase.toList <:+: ' ' :: reason.toList.map Char.toLower := by
    decide +kernel
  rintro ⟨phrase, hphrase, h⟩
  obtain ⟨reason, hreason, htext⟩ : ∃ reason,
      reason ∈ "<unknown status code>" :: Http.reasons.map Prod.snd ∧
        Http.statusText status = toString status ++ " " ++ reason := by
    unfold Http.statusText
    split
    · next n reason hfind =>
        exact ⟨reason, List.mem_cons_of_mem _
          (List.mem_map_of_mem (List.mem_of_find?_eq_some hfind)), rfl⟩
    · exact ⟨_, List.mem_cons_self, rfl⟩
  have hparts : (Http.statusText status).toList.map Char.toLower =
      (toString status).toList.map Char.toLower ++ ' ' :: reason.toList.map Char.toLower := by
    simp [htext, String.toList_append]
  rw [hparts, Text.infix_append_iff_of_notMem] at h
  · exact hreasons reason hreason phrase hphrase h
  · intro d hd hmem
    obtain ⟨c, hc, rfl⟩ := List.mem_map.mp hd
    have hdigit := isDigit_of_mem_toString hc
    rw [toLower_of_isDigit hdigit] at hmem
    have hany : phrase.toList.any Char.isDigit = true := List.any_eq_true.mpr ⟨c, hmem, hdigit⟩
    rw [hdigits phrase hphrase] at hany
    cases hany

/-- A status in front of a text makes no difference to what the text mentions. -/
theorem mentions_withStatus_iff (status : Nat) (text : String) :
    Mentions (Http.statusText status ++ ": " ++ text) ↔ Mentions text := by
  refine exists_congr fun phrase => and_congr_right fun hphrase => ?_
  obtain ⟨⟨hcolon, -, -⟩, hhead, -⟩ := joints_tooLargePhrases phrase hphrase
  have hparts : (Http.statusText status ++ ": " ++ text).toList.map Char.toLower =
      (Http.statusText status).toList.map Char.toLower ++
        ':' :: ' ' :: text.toList.map Char.toLower := by
    simp [String.toList_append]
  rw [hparts, Text.infix_append_cons_iff_of_notMem hcolon, Text.infix_cons_iff_of_head? hhead,
    or_iff_right]
  exact fun h => not_mentions_statusText status ⟨phrase, hphrase, h⟩

end Failure

namespace Chat

/-! ## Failed replies -/

/-- Whether a body mentions that a conversation is too large: in the message or in the code of
the error that it reports, or anywhere in it if it reports none. -/
def BodyMentions (text : String) : Prop :=
  (∃ e, Reports text e ∧
      (Failure.Mentions e.message ∨ ∃ code, e.code = some code ∧ Failure.Mentions code)) ∨
    (¬ ∃ e, Reports text e) ∧ Failure.Mentions text

/-- The report of a failed reply: its status, and behind it the error that the body reports, or
the body itself if it reports none. -/
inductive IsReport (status : Nat) (text : String) : String → Prop
  | error {e : ServiceError} (reports : Reports text e) :
      IsReport status text (Http.statusText status ++ ": " ++ e.describe)
  | raw (silent : ¬ ∃ e, Reports text e) :
      IsReport status text (Http.statusText status ++ ": " ++ text)

theorem Reports.unique {text : String} {e e' : ServiceError} (h : Reports text e)
    (h' : Reports text e') : e = e' :=
  Except.ok.inj ((ServiceError.decode_eq_ok_iff.mpr h).symm.trans
    (ServiceError.decode_eq_ok_iff.mpr h'))

theorem isReport_refusalText (status : Nat) (body : Text.Bytes) :
    IsReport status (Text.bodyText body) (refusalText status body) := by
  cases hdecode : Json.decode (Json.readRecord ServiceError.bodyShape) (Text.bodyText body) with
  | ok e =>
      simp only [refusalText, hdecode]
      exact .error (ServiceError.decode_eq_ok_iff.mp hdecode)
  | error reason =>
      simp only [refusalText, hdecode]
      refine .raw ?_
      rintro ⟨e, he⟩
      rw [ServiceError.decode_eq_ok_iff.mpr he] at hdecode
      cases hdecode

theorem mentions_describe_iff (e : ServiceError) : Failure.Mentions e.describe ↔
    Failure.Mentions e.message ∨ ∃ code, e.code = some code ∧ Failure.Mentions code := by
  obtain ⟨message, code | code⟩ := e
  · simp [ServiceError.describe]
  · simp [ServiceError.describe, Failure.mentions_withCode_iff]

/-- A report mentions no more and no less than the body does. -/
theorem IsReport.mentions_iff {status : Nat} {text report : String}
    (h : IsReport status text report) : Failure.Mentions report ↔ BodyMentions text := by
  cases h with
  | @error e reports =>
      rw [Failure.mentions_withStatus_iff, mentions_describe_iff]
      constructor
      · intro hmentions
        exact .inl ⟨e, reports, hmentions⟩
      · rintro (⟨e', reports', hmentions⟩ | ⟨silent, -⟩)
        · rwa [reports.unique reports']
        · exact absurd ⟨e, reports⟩ silent
  | raw silent =>
      rw [Failure.mentions_withStatus_iff]
      constructor
      · intro hmentions
        exact .inr ⟨silent, hmentions⟩
      · rintro (⟨e, reports, -⟩ | ⟨-, hmentions⟩)
        · exact absurd ⟨e, reports⟩ silent
        · exact hmentions

/-- A failed reply is a failure for size exactly if its body mentions that, and a failure for
another reason otherwise. It makes no difference whether the parts of the report are looked at or
the report, nor how the report is put in lower case, and the failure keeps the report as it is.
Where no reply comes there is no body to look at. -/
theorem complete_of_failed (c : InferenceConfig) (apiKey : String) (call : Call) (w : World)
    {sent : Http.Sent} (hsent : request c apiKey call = .ok sent)
    (hreply : (w.reply 0).fault? = none)
    (hfailed : Http.isSuccess (Http.documentOf (w.reply 0)).1 = false) :
    ∃ report,
      IsReport (Http.documentOf (w.reply 0)).1 (Text.bodyText (Http.documentOf (w.reply 0)).2)
        report ∧
      ((complete c apiKey call w).1 = .error (.tooLarge report) ↔
        BodyMentions (Text.bodyText (Http.documentOf (w.reply 0)).2)) ∧
      ((complete c apiKey call w).1 = .error (.inference report) ↔
        ¬ BodyMentions (Text.bodyText (Http.documentOf (w.reply 0)).2)) ∧
      ∀ lowered, Text.Lowers report.toList lowered →
        ((∃ phrase ∈ Failure.tooLargePhrases, phrase.toList <:+: lowered) ↔
          BodyMentions (Text.bodyText (Http.documentOf (w.reply 0)).2)) := by
  have hreport := isReport_refusalText (Http.documentOf (w.reply 0)).1
    (Http.documentOf (w.reply 0)).2
  have hcomplete : (complete c apiKey call w).1 = .error (Failure.ofReport
      (refusalText (Http.documentOf (w.reply 0)).1 (Http.documentOf (w.reply 0)).2)) := by
    rw [complete_apply, hsent]
    simp only [completionIn_of_fault? hreply, readReply, hfailed, Bool.false_eq_true, if_false]
  rw [hcomplete, Failure.ofReport_eq]
  refine ⟨_, hreport, ?_, ?_, ?_⟩
  · rw [← hreport.mentions_iff]
    split <;> simp [*]
  · rw [← hreport.mentions_iff]
    split <;> simp [*]
  · intro lowered hlowered
    rw [← Failure.mentions_iff_of_lowers hlowered, hreport.mentions_iff]

/-- A world in which the service fails with a code in capitals. -/
def overflowing : World :=
  .replying [.document 400 (Text.utf8
    ("\x7b\"error\":\x7b\"message\":\"Too long.\"," ++
      "\"code\":\"CONTEXT_LENGTH_EXCEEDED\"\x7d\x7d"))]

/-- The code is folded to find the phrase, and is in the failure in capitals. -/
theorem complete_of_failed_overflowing :
    Http.isSuccess (Http.documentOf (overflowing.reply 0)).1 = false ∧
    (complete {} "key" (Inference.callFor "schema" []) overflowing).1 =
      .error (.tooLarge "400 Bad Request: Too long. (CONTEXT_LENGTH_EXCEEDED)") := by
  have hfailed : Http.isSuccess (Http.documentOf (overflowing.reply 0)).1 = false := by decide
  have hreports : Reports (Text.bodyText (Http.documentOf (overflowing.reply 0)).2)
      ⟨"Too long.", some "CONTEXT_LENGTH_EXCEEDED"⟩ :=
    ServiceError.decode_eq_ok_iff.mp (by decide +kernel)
  obtain ⟨sent, hsent⟩ : ∃ sent, request {} "key" (Inference.callFor "schema" []) = .ok sent :=
    ⟨_, rfl⟩
  obtain ⟨report, hreport, hlarge, -⟩ :=
    complete_of_failed {} "key" (Inference.callFor "schema" []) overflowing hsent rfl hfailed
  refine ⟨hfailed, ?_⟩
  cases hreport with
  | @error e reports =>
      obtain rfl := reports.unique hreports
      exact hlarge.mpr (.inl ⟨_, hreports, .inr ⟨_, rfl, by decide +kernel⟩⟩)
  | raw silent => exact absurd ⟨_, hreports⟩ silent

end Chat

end ModuleOutputs
