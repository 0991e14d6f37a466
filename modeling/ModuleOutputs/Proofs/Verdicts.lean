import ModuleOutputs.Proofs.Fallback
import ModuleOutputs.Proofs.Run.Logging

/-!
How a run tells that it ended. The empty document does not tell a run that failed from one
whose module has no outputs; the log does. Every run logs one event that tells how it
ended, and a module that cannot be resolved is reported besides.
-/

namespace ModuleOutputs

/-- What the log can tell about the end of a run. -/
inductive Verdict where
  | inferred
  | nothingFound
  | unreadable
  | unanswered
deriving Repr, DecidableEq

namespace Verdict

def all : List Verdict :=
  [.inferred, .nothingFound, .unreadable, .unanswered]

def level : Verdict → Level
  | .inferred => .info
  | .nothingFound | .unreadable => .warn
  | .unanswered => .error

def message : Verdict → String
  | .inferred => "Model inferred output types"
  | .nothingFound => "No Terraform files found to analyze"
  | .unreadable => "Failed to read Terraform files"
  | .unanswered => "Output type inference failed"

end Verdict

namespace Event

/-- What an event tells about the end of a run, if it does. -/
def verdict? (e : Event) : Option Verdict :=
  Verdict.all.find? fun v => e.level = v.level ∧ e.message = v.message

def isVerdict (e : Event) : Bool :=
  e.verdict?.isSome

/-- Whether an event reports that the module cannot be resolved. -/
def isUnresolved (e : Event) : Bool :=
  e.level = .warn ∧ e.message = "Could not resolve module source"

theorem verdict?_mk (v : Verdict) (fields : List (String × String)) :
    verdict? ⟨v.level, v.message, fields⟩ = some v := by
  cases v <;> simp [verdict?, Verdict.all, Verdict.level, Verdict.message]

theorem message_of_verdict? {e : Event} {v : Verdict} (h : e.verdict? = some v) :
    e.message = v.message := by
  have hfound := List.find?_some h
  simp only [decide_eq_true_eq] at hfound
  exact hfound.2

theorem not_isProgress_of_isVerdict {e : Event} (h : e.isVerdict = true) :
    e.isProgress = false := by
  obtain ⟨v, hv⟩ := Option.isSome_iff_exists.mp h
  have hmessage := message_of_verdict? hv
  cases v <;> simp [isProgress, progressMessages, hmessage, Verdict.message]

theorem not_isUnresolved_of_verdict? {e : Event} {v : Verdict} (h : e.verdict? = some v) :
    e.isUnresolved = false := by
  have hmessage := message_of_verdict? h
  cases v <;> simp [isUnresolved, hmessage, Verdict.message]

theorem not_isProgress_of_isUnresolved {e : Event} (h : e.isUnresolved = true) :
    e.isProgress = false := by
  simp only [isUnresolved, decide_eq_true_eq] at h
  simp [isProgress, progressMessages, h.2]

end Event

/-- Events that are no progress are told from what is reported. -/
theorem World.Reports.filter_eq {w v : World} {es : List Event} (h : w.Reports v es) :
    ∃ log, v.events = w.events ++ log ∧ ∀ p : Event → Bool,
      (∀ e, p e = true → e.isProgress = false) → log.filter p = es.filter p := by
  obtain ⟨log, hlog, rfl⟩ := h
  refine ⟨log, hlog, ?_⟩
  intro p hp
  rw [List.filter_filter]
  apply List.filter_congr
  intro e _
  by_cases he : p e = true
  · simp [he, hp e he]
  · simp [he]

namespace Inference

open Chat (Model)

@[simp] theorem unresolved_verdict? (m : ModuleRef) (f : Failure) :
    (Sources.unresolved m f).verdict? = none := by
  simp [Sources.unresolved, Event.verdict?, Verdict.all, Verdict.message]

@[simp] theorem unresolved_isUnresolved (m : ModuleRef) (f : Failure) :
    (Sources.unresolved m f).isUnresolved = true := by
  simp [Sources.unresolved, Event.isUnresolved]

@[simp] theorem nothingFound_verdict? (m : ModuleRef) :
    (nothingFound m).verdict? = some .nothingFound :=
  Event.verdict?_mk .nothingFound _

@[simp] theorem unreadable_verdict? (f : Failure) :
    (unreadable f).verdict? = some .unreadable :=
  Event.verdict?_mk .unreadable _

@[simp] theorem unanswered_verdict? (f : Failure) :
    (unanswered f).verdict? = some .unanswered :=
  Event.verdict?_mk .unanswered _

@[simp] theorem inferred_verdict? (o : Outcome) :
    (inferred o).verdict? = some .inferred :=
  Event.verdict?_mk .inferred _

/-- What the log of a run tells about its end. -/
structure Concludes (model : Model) (c : Config) (m : ModuleRef) (mode : SourceMode) (w : World)
    (d : Schema.Document) (v : World) (log : List Event) (asked : List Call) (e : Event) :
    Prop where
  events : v.events = w.events ++ log
  calls : v.calls = w.calls ++ asked
  /-- One event tells how the run ended, and it is logged once. -/
  once : log.filter Event.isVerdict = [e]
  /-- It tells that outputs were inferred exactly if no stage of the run came to nothing. -/
  inferred_iff : e.verdict? = some .inferred ↔ ¬ FallsBack model c m mode w
  /-- Then it counts the outputs of the response, and tells whether the model was asked
  twice. -/
  fields : e.verdict? = some .inferred → ∃ response, LastAnswer model v response ∧
    e.fields = [("outputs", toString response.outputs.length),
      ("degraded", toString (decide (asked.length = 2)))]
  /-- Otherwise the document is the empty one. -/
  empty : e.verdict? ≠ some .inferred → d = .empty
  /-- A module that cannot be resolved is reported besides. -/
  unresolved_iff : (∃ e' ∈ log, e'.isUnresolved = true) ↔
    ∃ f u, (Sources.find c m mode).run w = (.error f, u)

variable {model : Model} {c : Config} {m : ModuleRef} {mode : SourceMode} {options : RunOptions}
  {w v : World}

theorem exists_isUnresolved_iff (log : List Event) :
    (∃ e ∈ log, e.isUnresolved = true) ↔ log.filter Event.isUnresolved ≠ [] := by
  simp

/-- A module that cannot be resolved is reported before the verdict. -/
theorem concludes_of_unresolved {f : Failure}
    (found : (Sources.find c m mode).run w = (.error f, v)) {asked : List Call}
    (hcalls : v.calls = w.calls ++ asked) :
    ∃ log, Concludes model c m mode w .empty (v.logged [Sources.unresolved m f, nothingFound m])
      log asked (nothingFound m) := by
  have hreports := (Sources.find_reports found).logged [Sources.unresolved m f, nothingFound m]
  obtain ⟨log, hlog, hfilter⟩ := hreports.filter_eq
  have hfalls : FallsBack model c m mode w := .unresolved found
  refine ⟨log, hlog, hcalls, ?_, by simp [hfalls], by simp, fun _ => rfl, ?_⟩
  · rw [hfilter _ fun _ => Event.not_isProgress_of_isVerdict]
    simp [Event.isVerdict]
  · rw [exists_isUnresolved_iff, hfilter _ fun _ => Event.not_isProgress_of_isUnresolved]
    exact iff_of_true (by simp) ⟨f, v, found⟩

/-- Once its module is resolved a run reports its verdict alone. -/
theorem concludes_of_found {s : Sources} {u : World} {d : Schema.Document}
    (found : (Sources.find c m mode).run w = (.ok s, u)) {asked : List Call} {e : Event}
    {verdict : Verdict} (hreports : w.Reports v [e]) (he : e.verdict? = some verdict)
    (hcalls : v.calls = w.calls ++ asked)
    (hinferred : verdict = .inferred ↔ ¬ FallsBack model c m mode w)
    (hfields : verdict = .inferred → ∃ response, LastAnswer model v response ∧
      e.fields = [("outputs", toString response.outputs.length),
        ("degraded", toString (decide (asked.length = 2)))])
    (hempty : verdict ≠ .inferred → d = .empty) :
    ∃ log, Concludes model c m mode w d v log asked e := by
  obtain ⟨log, hlog, hfilter⟩ := hreports.filter_eq
  refine ⟨log, hlog, hcalls, ?_, by simpa [he] using hinferred, by simpa [he] using hfields,
    by simpa [he] using hempty, ?_⟩
  · rw [hfilter _ fun _ => Event.not_isProgress_of_isVerdict]
    simp [Event.isVerdict, he]
  · rw [exists_isUnresolved_iff, hfilter _ fun _ => Event.not_isProgress_of_isUnresolved]
    refine iff_of_false (by simp [Event.not_isUnresolved_of_verdict? he]) ?_
    rintro ⟨_, _, herror⟩
    rw [found] at herror
    cases herror

/-- A later stage that comes to nothing has a verdict of its own. -/
theorem concludes_of_fallsBack (h : FallsBack model c m mode w) {s : Sources} {u : World}
    (found : (Sources.find c m mode).run w = (.ok s, u)) {asked : List Call} {e : Event}
    {verdict : Verdict} (hreports : w.Reports v [e]) (he : e.verdict? = some verdict)
    (hverdict : verdict ≠ .inferred) (hcalls : v.calls = w.calls ++ asked) :
    ∃ log, Concludes model c m mode w .empty v log asked e := by
  apply concludes_of_found found hreports he hcalls
  · simp [hverdict, h]
  · simp [hverdict]
  · simp

/-- A run whose stages all come to something tells what the model answered. -/
theorem concludes_of_answered (h : ¬ FallsBack model c m mode w) {s : Sources} {u : World}
    (found : (Sources.find c m mode).run w = (.ok s, u)) {d : Schema.Document}
    {asked : List Call} {o : Outcome} (hreports : w.Reports v [inferred o])
    (hlast : LastAnswer model v o.response) (hdegraded : o.degraded = decide (asked.length = 2))
    (hcalls : v.calls = w.calls ++ asked) :
    ∃ log, Concludes model c m mode w d v log asked (inferred o) := by
  apply concludes_of_found found hreports (inferred_verdict? o) hcalls
  · simp [h]
  · intro _
    refine ⟨o.response, hlast, ?_⟩
    rw [inferred, hdegraded]
  · simp

/-- The calls of a run that comes to the model are those that are made while asking. -/
theorem exists_calls (hm : model.Confined) {s : Sources} {u : World} {files : List SourceFile}
    {r : Except Failure Outcome} (found : (Sources.find c m mode).run w = (.ok s, u))
    (asked : (ask model c.inference.schemaName files).run (u.logged [foundFiles s]) = (r, v)) :
    ∃ calls, v.calls = w.calls ++ calls ∧
      ∀ o, r = .ok o → LastAnswer model v o.response ∧ o.degraded = decide (calls.length = 2) := by
  have hfind := Sources.find_calls c m mode w
  have hasked := ask_asked model c.inference.schemaName files (u.logged [foundFiles s])
  rw [found] at hfind
  rw [asked] at hasked
  obtain ⟨calls, -, hcalls, hdegraded⟩ := hasked.exists_calls hm
  rw [World.logged_calls, hfind] at hcalls
  refine ⟨calls, hcalls, ?_⟩
  intro o ho
  subst ho
  exact ⟨hasked.lastAnswer hm, hdegraded o rfl⟩

theorem asked_reports (hs : model.Silent) {s : Sources} {u : World} {files : List SourceFile}
    {r : Except Failure Outcome} (found : (Sources.find c m mode).run w = (.ok s, u))
    (asked : (ask model c.inference.schemaName files).run (u.logged [foundFiles s]) = (r, v)) :
    w.Reports v [] := by
  have hfound := (Sources.find_reports found).logged [foundFiles s]
  simpa using hfound.trans (ask_reports hs asked)

/-- Every run logs one event that tells how it ended: for any model that answers from what
was said alone and logs nothing itself, such as a script or the chat service. -/
theorem infer_concludes (hm : model.Confined) (hs : model.Silent) (c : Config) (m : ModuleRef)
    (mode : SourceMode) (options : RunOptions) (w : World) :
    ∃ log asked e, Concludes model c m mode w (infer model c m mode options w).1
      (infer model c m mode options w).2 log asked e := by
  have hcalls := Sources.find_calls c m mode w
  obtain ⟨d, v, hend⟩ := exists_ending model c m mode options w
  rw [hend.infer_eq]
  cases hend with
  | @unresolved f v found =>
      rw [found] at hcalls
      obtain ⟨log, h⟩ : ∃ log, Concludes model c m mode w _ _ log [] _ :=
        concludes_of_unresolved found (by simpa using hcalls)
      exact ⟨log, _, _, h⟩
  | @nothing s v found none =>
      rw [found] at hcalls
      have hreports := (Sources.find_reports found).logged [nothingFound m]
      obtain ⟨log, h⟩ : ∃ log, Concludes model c m mode w _ _ log [] _ :=
        concludes_of_fallsBack (.nothing found none) found (by simpa using hreports.finished s)
          (nothingFound_verdict? m) (by simp) (by simpa using hcalls)
      exact ⟨log, _, _, h⟩
  | @unreadable s v f found some contents =>
      rw [found] at hcalls
      have hreports := (Sources.find_reports found).logged [foundFiles s, unreadable f]
      obtain ⟨log, h⟩ : ∃ log, Concludes model c m mode w _ _ log [] _ :=
        concludes_of_fallsBack (.of_contents found contents) found
          (by simpa using hreports.finished s) (unreadable_verdict? f) (by simp)
          (by simpa using hcalls)
      exact ⟨log, _, _, h⟩
  | @unanswered s v u files f found some contents asked =>
      obtain ⟨calls, hcalls, -⟩ := exists_calls hm found asked
      have hreports := (asked_reports hs found asked).logged [unanswered f]
      obtain ⟨log, h⟩ := concludes_of_fallsBack (.of_asked hm found contents asked) found
        (by simpa using hreports.finished s) (unanswered_verdict? f) (by simp)
        (by simpa using hcalls)
      exact ⟨log, _, _, h⟩
  | @answered s v u files o found some contents asked =>
      obtain ⟨calls, hcalls, hanswer⟩ := exists_calls hm found asked
      obtain ⟨hlast, hdegraded⟩ := hanswer o rfl
      have hreports := (asked_reports hs found asked).logged
        (inferred o :: Schema.mapEvents options o.response.outputs)
      obtain ⟨log, h⟩ := concludes_of_answered (not_fallsBack_of_asked hm found some contents asked)
        found (by simpa using hreports.finished s) (hlast.of_sameTalk (by simp [World.SameTalk]))
        hdegraded (by simpa using hcalls)
      exact ⟨log, _, _, h⟩

/-- A model that takes any files to be too large at first. -/
def reluctant : Model :=
  .scripted [.error (.tooLarge "too long"), .ok ⟨["\x7b\"outputs\": []\x7d"]⟩]

/-- A world with a file of outputs in the working directory. -/
def outputsAtHand : World :=
  { World.replying [] with
    tree := ⟨[([Path.ofText "outputs.tf"], .file [])]⟩
    workingDirectory := Path.ofText "/" }

/-- A response without outputs, from the second call, is no fallback. -/
theorem infer_concludes_reluctant :
    reluctant.Confined ∧ reluctant.Silent ∧
      ∃ log asked e, Concludes reluctant {} ⟨"", ""⟩ .directory outputsAtHand
        (infer reluctant {} ⟨"", ""⟩ .directory {} outputsAtHand).1
        (infer reluctant {} ⟨"", ""⟩ .directory {} outputsAtHand).2 log asked e := by
  have hm : reluctant.Confined := by
    unfold reluctant Model.scripted
    exact Model.ofHistory_confined _
  have hs : reluctant.Silent := by
    unfold reluctant Model.scripted
    exact Model.ofHistory_silent _
  exact ⟨hm, hs, infer_concludes hm hs _ _ _ _ _⟩

end Inference

end ModuleOutputs
