import ModuleOutputs.Proofs.Run.Ending

/-!
What a run logs. Resolving a module, asking a model about its files and mapping the answer
log events of progress alone, in however many steps they go. So the other events of a run
are the few that tell how it ended.
-/

namespace ModuleOutputs

/-! ## Progress -/

namespace Event

/-- The messages of the events that a run logs on its way. -/
def progressMessages : List String :=
  ["Fetching module metadata", "Module description", "Cloning repository to extract source code",
    "Found Terraform files in the module",
    "Request too large and no outputs.tf file to fall back to",
    "Request too large, retrying with outputs.tf files only",
    "Model returned an output without a name"]

/-- Whether an event is one of those, and so does not tell how the run ended. -/
def isProgress (e : Event) : Bool :=
  progressMessages.contains e.message

end Event

namespace World

/-- Whether the events that are logged from one world to another are the given ones, those
of progress left out. -/
def Reports (w v : World) (es : List Event) : Prop :=
  ∃ log, v.events = w.events ++ log ∧ log.filter (!·.isProgress) = es

namespace Reports

variable {u v w : World} {es es' : List Event}

theorem nil (h : v.events = w.events) : Reports w v [] :=
  ⟨[], by simp [h], rfl⟩

theorem trans (h : Reports u v es) (h' : Reports v w es') : Reports u w (es ++ es') := by
  obtain ⟨log, hlog, rfl⟩ := h
  obtain ⟨log', hlog', rfl⟩ := h'
  exact ⟨log ++ log', by rw [hlog', hlog, List.append_assoc], List.filter_append ..⟩

theorem of_events_eq (h : Reports u v es) (heq : w.events = v.events) :
    Reports u w es := by
  simpa using h.trans (nil heq)

theorem finished (h : Reports u v es) (s : Sources) : Reports u (v.finished s) es :=
  h.of_events_eq (finished_events v s)

theorem logged (h : Reports u v es) (log : List Event) :
    Reports u (v.logged log) (es ++ log.filter (!·.isProgress)) :=
  h.trans ⟨log, rfl, rfl⟩

end Reports

end World

/-! ## Resolving -/

@[simp] theorem Registry.fetching_isProgress (c : RegistryConfig) (m : ModuleRef) :
    (fetching c m).isProgress = true := by
  simp [fetching, Event.isProgress, Event.progressMessages]

@[simp] theorem Clone.cloning_isProgress (url : String) (p : Path) :
    (cloning url p).isProgress = true := by
  simp [cloning, Event.isProgress, Event.progressMessages]

namespace Sources

variable {c : Config} {m : ModuleRef} {w v : World}

@[simp] theorem unresolved_isProgress (m : ModuleRef) (f : Failure) :
    (unresolved m f).isProgress = false := by
  simp [unresolved, Event.isProgress, Event.progressMessages]

@[simp] theorem filter_described (m : ModuleRef) (metadata : Metadata) :
    (described m metadata).filter (!·.isProgress) = [] := by
  unfold described
  split
  · split <;> simp [Event.isProgress, Event.progressMessages]
  · simp

theorem lookedUp_reports (c : Config) (m : ModuleRef) (a : Http.Url) (w : World) :
    w.Reports (lookedUp c m a w) [] :=
  ⟨[Registry.fetching c.registry m], rfl, by simp⟩

theorem beforeClone_reports (c : Config) (m : ModuleRef) (a : Http.Url) (metadata : Metadata)
    (w : World) : w.Reports (beforeClone c m a metadata w) [] := by
  have hdescribed := (lookedUp_reports c m a w).logged (described m metadata)
  rwa [filter_described] at hdescribed

theorem cloned_reports (c : Config) (m : ModuleRef) (a : Http.Url) (metadata : Metadata)
    (source : String) (d : Clone.Directory) (w : World) :
    w.Reports (cloned c m a metadata source d w) [] := by
  have hcloning := (beforeClone_reports c m a metadata w).logged
    [Clone.cloning (Clone.repositoryUrl source) d.path]
  simp only [List.nil_append, Clone.cloning_isProgress, Bool.not_true, Bool.false_eq_true,
    not_false_eq_true, List.filter_cons_of_neg, List.filter_nil] at hcloning
  exact hcloning.of_events_eq rfl

theorem Resolved.reports {r : Except Failure Sources} (h : Resolved c m w r v) :
    w.Reports v [] := by
  cases h with
  | unaddressed => exact ⟨[Registry.fetching c.registry m], rfl, by simp⟩
  | unknown | unnamed => exact lookedUp_reports c m _ w
  | @unmade a metadata _ _ _ _ => exact (beforeClone_reports c m a metadata w).of_events_eq rfl
  | @uncloned a metadata source d _ _ _ _ =>
      exact (cloned_reports c m a metadata source d w).of_events_eq rfl
  | @unlisted a metadata source d _ _ _ _ _ =>
      exact (cloned_reports c m a metadata source d w).of_events_eq (World.released_events _ _)
  | listed => exact cloned_reports c m _ _ _ _ w

theorem find_reports {mode : SourceMode} {r : Except Failure Sources}
    (h : (find c m mode).run w = (r, v)) : w.Reports v [] := by
  cases mode with
  | directory =>
      rw [find, ofDirectory_run] at h
      cases h
      exact .nil rfl
  | registry =>
      rw [find] at h
      exact (resolved_of_run h).reports

end Sources

/-! ## Asking -/

namespace Inference

open Chat (Model)

@[simp] theorem nothingFound_isProgress (m : ModuleRef) : (nothingFound m).isProgress = false := by
  simp [nothingFound, Event.isProgress, Event.progressMessages]

@[simp] theorem foundFiles_isProgress (s : Sources) : (foundFiles s).isProgress = true := by
  simp [foundFiles, Event.isProgress, Event.progressMessages]

@[simp] theorem unreadable_isProgress (f : Failure) : (unreadable f).isProgress = false := by
  simp [unreadable, Event.isProgress, Event.progressMessages]

@[simp] theorem noFallback_isProgress (f : Failure) : (noFallback f).isProgress = true := by
  simp [noFallback, Event.isProgress, Event.progressMessages]

@[simp] theorem narrowing_isProgress (files : List SourceFile) :
    (narrowing files).isProgress = true := by
  simp [narrowing, Event.isProgress, Event.progressMessages]

@[simp] theorem unanswered_isProgress (f : Failure) : (unanswered f).isProgress = false := by
  simp [unanswered, Event.isProgress, Event.progressMessages]

@[simp] theorem inferred_isProgress (o : Outcome) : (inferred o).isProgress = false := by
  simp [inferred, Event.isProgress, Event.progressMessages]

variable {model : Model} {w v : World}

theorem request_reports (hs : model.Silent) {formatName : String} {files : List SourceFile}
    {r : Except Failure InferenceResponse}
    (h : (request model formatName files).run w = (r, v)) : w.Reports v [] :=
  .nil (request_events hs h)

theorem Asked.reports (hs : model.Silent) {formatName : String} {files : List SourceFile}
    {r : Except Failure Outcome} (h : Asked model formatName files w r v) : w.Reports v [] := by
  cases h with
  | answered first | failed first _ => exact request_reports hs first
  | @tooLarge f _ first _ _ => simpa using (request_reports hs first).logged [noFallback f]
  | narrowed first _ _ second =>
      have hnarrowing := (request_reports hs first).logged [narrowing files]
      simpa using hnarrowing.trans (request_reports hs second)

theorem ask_reports (hs : model.Silent) {formatName : String} {files : List SourceFile}
    {r : Except Failure Outcome} (h : (ask model formatName files).run w = (r, v)) :
    w.Reports v [] := by
  have hasked := ask_asked model formatName files w
  rw [h] at hasked
  exact hasked.reports hs

end Inference

@[simp] theorem Schema.filter_mapEvents (options : RunOptions) (outputs : List InferredOutput) :
    (mapEvents options outputs).filter (!·.isProgress) = [] := by
  rw [List.filter_eq_nil_iff]
  intro e he
  obtain ⟨o, -, rfl⟩ := List.mem_map.mp he
  simp [Event.isProgress, Event.progressMessages]

end ModuleOutputs
