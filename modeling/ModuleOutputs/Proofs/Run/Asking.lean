import ModuleOutputs.Inference
import ModuleOutputs.Proofs.Run.Basic

/-!
Asking a model about files. A model is asked once; it is asked a second time, about
the files of outputs alone, only after a failure for size and only if there are such
files. What an attempt can come to is listed once, in `Asked`. Of the world a model
sees the calls and the server alone, so asking in two worlds that agree on these comes
to the same.
-/

namespace ModuleOutputs

/-! ## Models -/

/-- A request that has success has a reply. -/
theorem Http.fault?_of_isSuccess {r : Http.Reply}
    (h : Http.isSuccess (Http.documentOf r).1 = true) : r.fault? = none := by
  cases r with
  | document | repository => rfl
  | missing reason => simp [Http.documentOf, Http.isSuccess] at h

namespace Chat

theorem completionIn_of_fault? {r : Http.Reply} (h : r.fault? = none) :
    completionIn r = readReply (Http.documentOf r).1 (Http.documentOf r).2 := by
  rw [completionIn, h]

theorem complete_apply (c : InferenceConfig) (apiKey : String) (call : Call) (w : World) :
    complete c apiKey call w =
      match request c apiKey call with
      | .error fault => (.error (unanswered fault.message), w)
      | .ok r => (completionIn (w.reply 0), w.sent [r]) := by
  unfold complete
  cases request c apiKey call with
  | error fault => rfl
  | ok r =>
      simp only [Run.bind_apply, Run.send_apply]
      rfl

/-- A model that sees of the world no more than the calls and the server, and changes
no more of it than the server. -/
structure Model.Confined (model : Model) : Prop where
  answer_eq : ∀ (call : Call) {w v : World}, w.SameTalk v →
    (model.answer call w).1 = (model.answer call v).1
  sameTalk : ∀ (call : Call) {w v : World}, w.SameTalk v →
    (model.answer call w).2.SameTalk (model.answer call v).2
  sameFiles : ∀ (call : Call) (w : World), w.SameFiles (model.answer call w).2
  calls_eq : ∀ (call : Call) (w : World), (model.answer call w).2.calls = w.calls

/-- A model that logs nothing when it answers. -/
def Model.Silent (model : Model) : Prop :=
  ∀ (call : Call) (w : World), (model.answer call w).2.events = w.events

namespace Model

theorem ofHistory_answer (f : List Call → Except Failure Completion) (call : Call) (w : World) :
    (ofHistory f).answer call w = (f w.calls, w) := rfl

theorem ofHistory_confined (f : List Call → Except Failure Completion) : (ofHistory f).Confined where
  answer_eq _ _ _ h := congrArg f h.1
  sameTalk _ _ _ h := h
  sameFiles _ w := World.SameFiles.refl w
  calls_eq _ _ := rfl

theorem service_confined (c : InferenceConfig) (apiKey : String) : (service c apiKey).Confined where
  answer_eq call w v h := by
    simp only [service, complete_apply, h.reply_eq]
    cases request c apiKey call <;> rfl
  sameTalk call w v h := by
    simp only [service, complete_apply]
    cases request c apiKey call with
    | error fault => exact h
    | ok r => exact h.sent [r]
  sameFiles call w := by
    simp only [service, complete_apply]
    cases request c apiKey call with
    | error fault => exact World.SameFiles.refl w
    | ok r => exact World.SameFiles.sent w [r]
  calls_eq call w := by
    simp only [service, complete_apply]
    cases request c apiKey call <;> rfl

theorem ofHistory_silent (f : List Call → Except Failure Completion) : (ofHistory f).Silent := by
  intro call w
  rfl

theorem service_silent (c : InferenceConfig) (apiKey : String) : (service c apiKey).Silent := by
  intro call w
  simp only [service, complete_apply]
  cases request c apiKey call <;> rfl

end Model

end Chat

/-! ## Asking -/

namespace Inference

open Chat (Model Completion)

/-- The call of a model about files. -/
def callFor (formatName : String) (files : List SourceFile) : Call :=
  ⟨Chat.conversation files, Chat.outputsFormat formatName⟩

theorem request_run (model : Model) (formatName : String) (files : List SourceFile) (w : World) :
    (request model formatName files).run w =
      ((model.answer (callFor formatName files) (w.called (callFor formatName files))).1.bind
        Completion.response,
      (model.answer (callFor formatName files) (w.called (callFor formatName files))).2) := by
  rcases h : model.answer (callFor formatName files) (w.called (callFor formatName files))
    with ⟨f | completion, v⟩ <;>
  simp only [callFor, World.called] at h <;>
  simp only [request, Attempt.run_bind, Model.ask, Attempt.run_modify, Attempt.run_mk, h,
    Except.bind]
  cases completion.response <;> rfl

/-- The warning for files that are too large when none of them is of outputs. -/
def noFallback (f : Failure) : Event :=
  ⟨.warn, "Request too large and no outputs.tf file to fall back to", [("error", f.message)]⟩

/-- The warning for files that are too large when some of them are of outputs. -/
def narrowing (files : List SourceFile) : Event :=
  ⟨.warn, "Request too large, retrying with outputs.tf files only",
    [("files", toString files.length), ("narrowed", toString (Chat.narrow files).length)]⟩

/-- What asking a model about files can come to, and the world that is left. -/
inductive Asked (model : Model) (formatName : String) (files : List SourceFile) (w : World) :
    Except Failure Outcome → World → Prop
  /-- The first answer is a response. -/
  | answered {r : InferenceResponse} {v : World}
      (first : (request model formatName files).run w = (.ok r, v)) :
      Asked model formatName files w (.ok ⟨r, false⟩) v
  /-- The first call fails for another reason than size. -/
  | failed {f : Failure} {v : World}
      (first : (request model formatName files).run w = (.error f, v))
      (size : f.isTooLarge = false) :
      Asked model formatName files w (.error f) v
  /-- The first call fails for size, and there is nothing to narrow it to. -/
  | tooLarge {f : Failure} {v : World}
      (first : (request model formatName files).run w = (.error f, v))
      (size : f.isTooLarge = true) (none : Chat.narrow files = []) :
      Asked model formatName files w (.error f) (v.logged [noFallback f])
  /-- The first call fails for size, and the second one decides. -/
  | narrowed {f : Failure} {r : Except Failure InferenceResponse} {v u : World}
      (first : (request model formatName files).run w = (.error f, v))
      (size : f.isTooLarge = true) (some : Chat.narrow files ≠ [])
      (second : (request model formatName (Chat.narrow files)).run (v.logged [narrowing files]) =
        (r, u)) :
      Asked model formatName files w (r.map (⟨·, true⟩)) u

theorem retry_run (model : Model) (formatName : String) (files : List SourceFile) (f : Failure)
    (w : World) :
    (retry model formatName files f).run w =
      if Chat.narrow files = [] then (.error f, w.logged [noFallback f])
      else
        let second := (request model formatName (Chat.narrow files)).run (w.logged [narrowing files])
        (second.1.map (⟨·, true⟩), second.2) := by
  unfold retry
  by_cases hnone : Chat.narrow files = []
  · simp only [hnone, List.isEmpty_nil, if_true]
    rfl
  · have hsome : (Chat.narrow files).isEmpty = false := by simpa using hnone
    simp only [hnone, hsome, Bool.false_eq_true, if_false, Attempt.run_bind, Attempt.run_lift,
      Run.warn, Run.log_apply, narrowing]
    rcases (request model formatName (Chat.narrow files)).run (w.logged _) with ⟨_ | _, u⟩ <;> rfl

theorem ask_run (model : Model) (formatName : String) (files : List SourceFile) (w : World) :
    (ask model formatName files).run w =
      match (request model formatName files).run w with
      | (.ok r, v) => (.ok ⟨r, false⟩, v)
      | (.error f, v) =>
        if f.isTooLarge then (retry model formatName files f).run v else (.error f, v) := by
  rw [ask, Attempt.run_tryCatch, Attempt.run_map]
  rcases (request model formatName files).run w with ⟨f | _, v⟩
  · cases h : f.isTooLarge <;> simp [h, Attempt.run_throw]
  · rfl

/-- Whatever the model answers, asking it comes to one of the four. -/
theorem ask_asked (model : Model) (formatName : String) (files : List SourceFile) (w : World) :
    Asked model formatName files w ((ask model formatName files).run w).1
      ((ask model formatName files).run w).2 := by
  rw [ask_run]
  rcases hfirst : (request model formatName files).run w with ⟨f | r, v⟩
  · by_cases hsize : f.isTooLarge
    · simp only [hsize, if_true, retry_run]
      split
      · next hnone => exact .tooLarge hfirst hsize hnone
      · next hsome => exact .narrowed hfirst hsize hsome rfl
    · simp only [hsize, Bool.false_eq_true, if_false]
      exact .failed hfirst (by simpa using hsize)
  · exact .answered hfirst

/-! ## What asking depends on -/

variable {model : Model}

theorem request_congr (hm : model.Confined) (formatName : String) (files : List SourceFile)
    {w v : World} (h : w.SameTalk v) :
    ((request model formatName files).run w).1 = ((request model formatName files).run v).1 ∧
      ((request model formatName files).run w).2.SameTalk
        ((request model formatName files).run v).2 := by
  simp only [request_run]
  have hcall := h.called (callFor formatName files)
  exact ⟨by rw [hm.answer_eq _ hcall], hm.sameTalk _ hcall⟩

/-- Asking in two worlds in which the same was said comes to the same in both. -/
theorem ask_congr (hm : model.Confined) (formatName : String) (files : List SourceFile)
    {w v : World} (h : w.SameTalk v) :
    ((ask model formatName files).run w).1 = ((ask model formatName files).run v).1 ∧
      ((ask model formatName files).run w).2.SameTalk ((ask model formatName files).run v).2 := by
  obtain ⟨hfirst, hafter⟩ := request_congr hm formatName files h
  simp only [ask_run]
  rcases hw : (request model formatName files).run w with ⟨a, w₁⟩
  rcases hv : (request model formatName files).run v with ⟨b, v₁⟩
  rw [hw, hv] at hfirst hafter
  cases hfirst
  -- The first answer is the same, so both are asked again or neither is.
  cases a with
  | ok r => exact ⟨rfl, hafter⟩
  | error f =>
      dsimp only
      by_cases hsize : f.isTooLarge
      · rw [if_pos hsize, if_pos hsize, retry_run, retry_run]
        by_cases hnone : Chat.narrow files = []
        · rw [if_pos hnone, if_pos hnone]
          exact ⟨rfl, hafter⟩
        · rw [if_neg hnone, if_neg hnone]
          obtain ⟨hsecond, hend⟩ := request_congr hm formatName (Chat.narrow files)
            (hafter.logged [narrowing files] [narrowing files])
          exact ⟨congrArg (Except.map _) hsecond, hend⟩
      · rw [if_neg hsize, if_neg hsize]
        exact ⟨rfl, hafter⟩

theorem ask_alike (hm : model.Confined) {formatName : String} {files : List SourceFile}
    {w v u : World} {r : Except Failure Outcome} (h : w.SameTalk v)
    (asked : (ask model formatName files).run w = (r, u)) :
    ∃ u', (ask model formatName files).run v = (r, u') ∧ u.SameTalk u' := by
  obtain ⟨hsame, hafter⟩ := ask_congr hm formatName files h
  rcases asked' : (ask model formatName files).run v with ⟨r', u'⟩
  rw [asked, asked'] at hsame hafter
  obtain rfl : r = r' := hsame
  exact ⟨u', rfl, hafter⟩

theorem request_calls (hm : model.Confined) (formatName : String) (files : List SourceFile)
    (w : World) :
    ((request model formatName files).run w).2.calls = w.calls ++ [callFor formatName files] := by
  simp only [request_run, hm.calls_eq]
  rfl

theorem request_sameFiles (hm : model.Confined) (formatName : String) (files : List SourceFile)
    (w : World) : w.SameFiles ((request model formatName files).run w).2 := by
  simp only [request_run]
  exact (World.SameFiles.called w _).trans (hm.sameFiles _ _)

theorem request_events (hs : model.Silent) {formatName : String} {files : List SourceFile}
    {w v : World} {r : Except Failure InferenceResponse}
    (h : (request model formatName files).run w = (r, v)) : v.events = w.events := by
  rw [request_run] at h
  obtain rfl := congrArg Prod.snd h
  exact hs _ _

/-- Asking changes no file. -/
theorem Asked.sameFiles (hm : model.Confined) {formatName : String} {files : List SourceFile}
    {w v : World} {r : Except Failure Outcome} (h : Asked model formatName files w r v) :
    w.SameFiles v := by
  cases h with
  | answered first | failed first _ =>
      have h := request_sameFiles hm formatName files w
      rwa [first] at h
  | tooLarge first _ _ =>
      have h := request_sameFiles hm formatName files w
      rw [first] at h
      exact h.trans (World.SameFiles.logged _ _)
  | @narrowed f r v u first _ _ second =>
      have h := request_sameFiles hm formatName files w
      have h' := request_sameFiles hm formatName (Chat.narrow files) (v.logged [narrowing files])
      rw [first] at h
      rw [second] at h'
      exact (h.trans (World.SameFiles.logged _ _)).trans h'

theorem ask_sameFiles (hm : model.Confined) {formatName : String} {files : List SourceFile}
    {w v : World} {r : Except Failure Outcome} (h : (ask model formatName files).run w = (r, v)) :
    w.SameFiles v := by
  have hasked := ask_asked model formatName files w
  rw [h] at hasked
  exact hasked.sameFiles hm

/-! ## The last call -/

theorem isTooLarge_iff (f : Failure) : f.isTooLarge = true ↔ ∃ reason, f = .tooLarge reason := by
  cases f <;> simp [Failure.isTooLarge]

/-- No completion is too large to be read. -/
theorem response_isTooLarge {completion : Completion} {f : Failure}
    (h : completion.response = .error f) : f.isTooLarge = false := by
  unfold Completion.response at h
  split at h
  · cases h
    rfl
  · split at h
    · cases h
    · cases h
      rfl

/-- A call fails for size exactly if the model's answer is that failure. -/
theorem tooLarge_bind_iff (answer : Except Failure Completion) :
    (∃ f, answer.bind Completion.response = .error f ∧ f.isTooLarge = true) ↔
      ∃ reason, answer = .error (.tooLarge reason) := by
  cases answer with
  | error f => simp [Except.bind, isTooLarge_iff]
  | ok completion =>
      simp only [Except.bind, reduceCtorEq, exists_false, iff_false]
      rintro ⟨f, hresponse, hsize⟩
      rw [response_isTooLarge hresponse] at hsize
      cases hsize

theorem request_answer (hm : model.Confined) {formatName : String} {files : List SourceFile}
    {w v : World} {r : Except Failure InferenceResponse}
    (h : (request model formatName files).run w = (r, v)) :
    v.calls = w.calls ++ [callFor formatName files] ∧
      (model.answer (callFor formatName files) (w.called (callFor formatName files))).1.bind
        Completion.response = r := by
  have hcalls := request_calls hm formatName files w
  rw [h] at hcalls
  rw [request_run] at h
  exact ⟨hcalls, congrArg Prod.fst h⟩

/-- There is a second call exactly if the first answer is a failure for size and something is
left to ask about. What asking comes to is read from the answer to the last call. -/
theorem Asked.exists_again (hm : model.Confined) {formatName : String} {files : List SourceFile}
    {w v : World} {r : Except Failure Outcome} (h : Asked model formatName files w r v) :
    ∃ (again : Bool) (u : World),
      v.calls = w.calls ++ callFor formatName files ::
        (if again then [callFor formatName (Chat.narrow files)] else []) ∧
      (again = true ↔
        (∃ reason, (model.answer (callFor formatName files)
          (w.called (callFor formatName files))).1 = .error (.tooLarge reason)) ∧
        Chat.narrow files ≠ []) ∧
      u.calls = v.calls ∧
      r = ((model.answer (callFor formatName (if again then Chat.narrow files else files)) u).1.bind
        Completion.response).map (⟨·, again⟩) := by
  rw [← tooLarge_bind_iff]
  cases h with
  | answered first =>
      obtain ⟨hcalls, hanswer⟩ := request_answer hm first
      refine ⟨false, w.called (callFor formatName files), hcalls, ?_, hcalls.symm, ?_⟩
      · simp [hanswer]
      · simp [hanswer, Except.map]
  | failed first size =>
      obtain ⟨hcalls, hanswer⟩ := request_answer hm first
      refine ⟨false, w.called (callFor formatName files), hcalls, ?_, hcalls.symm, ?_⟩
      · simp [hanswer, size]
      · simp [hanswer, Except.map]
  | tooLarge first _ none =>
      obtain ⟨hcalls, hanswer⟩ := request_answer hm first
      refine ⟨false, w.called (callFor formatName files), hcalls, ?_, hcalls.symm, ?_⟩
      · simp [none]
      · simp [hanswer, Except.map]
  | @narrowed _ _ v _ first size some second =>
      obtain ⟨hcalls, hanswer⟩ := request_answer hm first
      obtain ⟨hcalls', hanswer'⟩ := request_answer hm second
      refine ⟨true, (v.logged [narrowing files]).called (callFor formatName (Chat.narrow files)), ?_,
        ?_, hcalls'.symm, ?_⟩
      · simp [hcalls', hcalls]
      · simp [hanswer, size, some]
      · simp [hanswer']

/-- The calls that are made while asking. A response comes from the narrowed files exactly
if there were two. -/
theorem Asked.exists_calls (hm : model.Confined) {formatName : String} {files : List SourceFile}
    {w v : World} {r : Except Failure Outcome} (h : Asked model formatName files w r v) :
    ∃ asked, asked ≠ [] ∧ v.calls = w.calls ++ asked ∧
      ∀ o, r = .ok o → o.degraded = decide (asked.length = 2) := by
  obtain ⟨again, u, hcalls, -, -, hr⟩ := h.exists_again hm
  refine ⟨_, List.cons_ne_nil _ _, hcalls, ?_⟩
  intro o ho
  rw [ho] at hr
  cases hanswer : (model.answer (callFor formatName
      (if again then Chat.narrow files else files)) u).1.bind Completion.response with
  | error f =>
      rw [hanswer] at hr
      cases hr
  | ok response =>
      rw [hanswer] at hr
      cases hr
      cases again <;> rfl

/-- Whether a response is read from the model's answer to the last call of a world. -/
def LastAnswer (model : Model) (v : World) (response : InferenceResponse) : Prop :=
  ∃ call u completion, v.calls.getLast? = some call ∧ u.calls = v.calls ∧
    (model.answer call u).1 = .ok completion ∧ (model.answer call u).2.SameTalk v ∧
    completion.response = .ok response

theorem LastAnswer.of_sameTalk {v v' : World} {response : InferenceResponse}
    (h : LastAnswer model v response) (htalk : v.SameTalk v') : LastAnswer model v' response := by
  obtain ⟨call, u, completion, hlast, hcalls, hanswer, hafter, hresponse⟩ := h
  refine ⟨call, u, completion, ?_, hcalls.trans htalk.1, hanswer, ?_, hresponse⟩
  · rw [← htalk.1, hlast]
  · exact ⟨hafter.1.trans htalk.1, hafter.2.trans htalk.2⟩

theorem request_lastAnswer (hm : model.Confined) {formatName : String} {files : List SourceFile}
    {w v : World} {r : InferenceResponse}
    (h : (request model formatName files).run w = (.ok r, v)) : LastAnswer model v r := by
  have hcalls := request_calls hm formatName files w
  rw [h] at hcalls
  rw [request_run] at h
  have hanswer := congrArg Prod.fst h
  have hafter := congrArg Prod.snd h
  dsimp only at hcalls hanswer hafter
  cases hlast : (model.answer (callFor formatName files)
      (w.called (callFor formatName files))).1 with
  | error f =>
      rw [hlast] at hanswer
      cases hanswer
  | ok completion =>
      rw [hlast] at hanswer
      refine ⟨callFor formatName files, w.called (callFor formatName files), completion, ?_,
        hcalls.symm, hlast, ?_, hanswer⟩
      · simp [hcalls]
      · rw [hafter]
        exact World.SameTalk.refl v

/-- A response is read from the completion with which the last call was answered. -/
theorem Asked.lastAnswer (hm : model.Confined) {formatName : String} {files : List SourceFile}
    {w v : World} {o : Outcome} (h : Asked model formatName files w (.ok o) v) :
    LastAnswer model v o.response := by
  generalize hr : Except.ok o = r at h
  cases h with
  | failed | tooLarge => cases hr
  | answered first =>
      cases hr
      exact request_lastAnswer hm first
  | @narrowed e r v u first _ _ second =>
      cases r with
      | error e => cases hr
      | ok r =>
          cases hr
          exact request_lastAnswer hm second

theorem Asked.last {f : List Call → Except Failure Completion} {formatName : String}
    {files : List SourceFile} {w v : World} {o : Outcome}
    (h : Asked (.ofHistory f) formatName files w (.ok o) v) :
    ∃ asked completion, asked ≠ [] ∧ v.calls = w.calls ++ asked ∧ f v.calls = .ok completion ∧
      completion.response = .ok o.response := by
  have hm := Model.ofHistory_confined f
  obtain ⟨asked, hsome, hcalls, -⟩ := h.exists_calls hm
  obtain ⟨call, u, completion, -, hu, hanswer, -, hresponse⟩ := h.lastAnswer hm
  rw [Model.ofHistory_answer, hu] at hanswer
  exact ⟨asked, completion, hsome, hcalls, hanswer, hresponse⟩

end Inference

end ModuleOutputs
