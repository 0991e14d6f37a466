import ModuleOutputs.Proofs.Run.Ending

/-!
When a run has the empty document, and what its document is otherwise. A run falls
back to the empty document exactly if one of its stages comes to nothing; if none does,
the document is the image of the last answer of the model. The options shape the
document alone: no stage before it depends on them.
-/

namespace ModuleOutputs

namespace Schema.Document

theorem outputs_ofOutputs (m : ModuleRef) (options : RunOptions) (outputs : List InferredOutput) :
    (ofOutputs m options outputs).outputs = mapOutputs options outputs := by
  unfold ofOutputs
  cases options.override <;> rfl

/-- The fragments of a document do not depend on whether it is wrapped. -/
theorem outputs_ofOutputs_congr (m : ModuleRef) {options options' : RunOptions}
    (h : options'.skipStrings = options.skipStrings) (outputs : List InferredOutput) :
    (ofOutputs m options' outputs).outputs = (ofOutputs m options outputs).outputs := by
  simp only [outputs_ofOutputs, mapOutputs, kept, h]

end Schema.Document

namespace Inference

open Chat (Model Completion)

variable {model : Model} {c : Config} {m : ModuleRef} {mode : SourceMode} {options : RunOptions}
  {w : World}

/-! ## Options -/

/-- With other options a run ends in the same way, with the same calls. -/
theorem Ending.other {d : Schema.Document} {v : World} (h : Ending model c m mode options w d v)
    (options' : RunOptions) :
    ∃ d' v', Ending model c m mode options' w d' v' ∧ v'.calls = v.calls ∧
      (options'.skipStrings = options.skipStrings → d'.outputs = d.outputs) := by
  cases h with
  | unresolved found => exact ⟨_, _, .unresolved found, rfl, fun _ => rfl⟩
  | nothing found none => exact ⟨_, _, .nothing found none, rfl, fun _ => rfl⟩
  | unreadable found some contents =>
      exact ⟨_, _, .unreadable found some contents, rfl, fun _ => rfl⟩
  | unanswered found some contents asked =>
      exact ⟨_, _, .unanswered found some contents asked, rfl, fun _ => rfl⟩
  | answered found some contents asked =>
      refine ⟨_, _, .answered found some contents asked, ?_, fun hskip => ?_⟩
      · simp
      · exact Schema.Document.outputs_ofOutputs_congr m hskip _

/-! ## Falling back -/

/-- The stages of a run that can come to nothing. -/
inductive FallsBack (model : Model) (c : Config) (m : ModuleRef) (mode : SourceMode)
    (w : World) : Prop
  /-- The module cannot be resolved. -/
  | unresolved {f : Failure} {v : World} (found : (Sources.find c m mode).run w = (.error f, v))
  /-- The module has no files. -/
  | nothing {s : Sources} {v : World} (found : (Sources.find c m mode).run w = (.ok s, v))
      (none : s.files = [])
  /-- One of its files cannot be read. -/
  | unreadable {s : Sources} {v : World} {p : Path} {fault : FileFault}
      (found : (Sources.find c m mode).run w = (.ok s, v)) (file : p ∈ s.files)
      (read : v.tree.read v.here p = .error fault)
  /-- The model does not answer about them. -/
  | unanswered {s : Sources} {v u : World} {files : List SourceFile} {f : Failure}
      (found : (Sources.find c m mode).run w = (.ok s, v))
      (contents : v.contents s.files = .ok files)
      (asked : (ask model c.inference.schemaName files).run v = (.error f, u))

/-- What was logged before makes no difference to a model that does not answer. -/
theorem ask_logged_error (hm : model.Confined) {formatName : String} {files : List SourceFile}
    {es : List Event} {f : Failure} {u : World} (es' : List Event)
    (h : (ask model formatName files).run (w.logged es) = (.error f, u)) :
    ∃ u', (ask model formatName files).run (w.logged es') = (.error f, u') := by
  have hsame := (ask_congr hm formatName files ((World.SameTalk.refl w).logged es es')).1
  rw [h] at hsame
  exact ⟨((ask model formatName files).run (w.logged es')).2, Prod.ext hsame.symm rfl⟩

theorem FallsBack.of_contents {s : Sources} {v : World} {f : Failure}
    (found : (Sources.find c m mode).run w = (.ok s, v))
    (contents : v.contents s.files = .error f) : FallsBack model c m mode w := by
  obtain ⟨p, file, fault, read⟩ := (v.contents_fails_iff s.files).mp ⟨f, contents⟩
  exact .unreadable found file read

theorem FallsBack.of_asked (hm : model.Confined) {s : Sources} {v u : World}
    {files : List SourceFile} {es : List Event} {f : Failure}
    (found : (Sources.find c m mode).run w = (.ok s, v)) (contents : v.contents s.files = .ok files)
    (asked : (ask model c.inference.schemaName files).run (v.logged es) = (.error f, u)) :
    FallsBack model c m mode w := by
  obtain ⟨u', hasked⟩ := ask_logged_error hm [] asked
  rw [World.logged_nil] at hasked
  exact .unanswered found contents hasked

/-- A run whose model answers does not fall back. -/
theorem not_fallsBack_of_asked (hm : model.Confined) {s : Sources} {v u : World}
    {files : List SourceFile} {es : List Event} {o : Outcome}
    (found : (Sources.find c m mode).run w = (.ok s, v)) (some : s.files ≠ [])
    (contents : v.contents s.files = .ok files)
    (asked : (ask model c.inference.schemaName files).run (v.logged es) = (.ok o, u)) :
    ¬ FallsBack model c m mode w := by
  intro h
  cases h with
  | unresolved found' =>
      rw [found] at found'
      cases found'
  | nothing found' none =>
      rw [found] at found'
      cases found'
      exact some none
  | unreadable found' file read =>
      rw [found] at found'
      cases found'
      obtain ⟨f, hf⟩ := (v.contents_fails_iff s.files).mpr ⟨_, file, _, read⟩
      rw [contents] at hf
      cases hf
  | unanswered found' contents' asked' =>
      rw [found] at found'
      cases found'
      rw [contents] at contents'
      cases contents'
      rw [← v.logged_nil] at asked'
      obtain ⟨u', hasked⟩ := ask_logged_error hm es asked'
      rw [asked] at hasked
      cases hasked

/-- If a stage comes to nothing the document is the empty one, whatever the options. -/
theorem FallsBack.infer_eq_empty (hm : model.Confined) (h : FallsBack model c m mode w)
    (options : RunOptions) : (infer model c m mode options w).1 = .empty := by
  cases h with
  | unresolved found => rw [(Ending.unresolved found).infer_eq]
  | nothing found none => rw [(Ending.nothing found none).infer_eq]
  | @unreadable s v p fault found file read =>
      obtain ⟨f, hf⟩ := (v.contents_fails_iff s.files).mpr ⟨p, file, fault, read⟩
      rw [(Ending.unreadable found (List.ne_nil_of_mem file) hf).infer_eq]
  | @unanswered s v u files f found contents asked =>
      -- Without files the model is not even asked, and the document is empty all the same.
      by_cases hnone : s.files = []
      · rw [(Ending.nothing found hnone).infer_eq]
      · rw [← v.logged_nil] at asked
        obtain ⟨u', hasked⟩ := ask_logged_error hm [foundFiles s] asked
        rw [(Ending.unanswered found hnone contents hasked).infer_eq]

/-- If no stage comes to nothing the model has answered. -/
theorem Ending.of_not_fallsBack (hm : model.Confined) (h : ¬ FallsBack model c m mode w)
    {d : Schema.Document} {v : World} (hend : Ending model c m mode options w d v) :
    ∃ s v₀ u files o, (Sources.find c m mode).run w = (.ok s, v₀) ∧
      (ask model c.inference.schemaName files).run (v₀.logged [foundFiles s]) = (.ok o, u) ∧
      d = .ofOutputs m options o.response.outputs ∧ v.calls = u.calls := by
  cases hend with
  | unresolved found => exact (h (.unresolved found)).elim
  | nothing found none => exact (h (.nothing found none)).elim
  | unreadable found some contents => exact (h (.of_contents found contents)).elim
  | unanswered found some contents asked => exact (h (.of_asked hm found contents asked)).elim
  | answered found some contents asked =>
      exact ⟨_, _, _, _, _, found, asked, rfl, by simp⟩

/-! ## Whole runs -/

/-- A run has the empty document, in its plain form, exactly as its stages have it: if
one of them comes to nothing. Otherwise the document is the image of the response in the
answer to the last call, wrapped if the options ask for it. Runs that differ in their
options ask the model the same in the same order, and whether the document is wrapped
makes no difference to its fragments. -/
theorem infer_fallback (f : List Call → Except Failure Completion) (c : Config) (m : ModuleRef)
    (mode : SourceMode) (w : World) :
    (FallsBack (.ofHistory f) c m mode w → ∀ options,
      (infer (.ofHistory f) c m mode options w).1 = .empty) ∧
    (¬ FallsBack (.ofHistory f) c m mode w → ∀ options,
      ∃ asked completion response, asked ≠ [] ∧
        (infer (.ofHistory f) c m mode options w).2.calls = w.calls ++ asked ∧
        f (w.calls ++ asked) = .ok completion ∧
        completion.response = .ok response ∧
        (infer (.ofHistory f) c m mode options w).1 =
          if options.override then .override m (Schema.mapOutputs options response.outputs)
          else .plain (Schema.mapOutputs options response.outputs)) ∧
    (∀ options options', (infer (.ofHistory f) c m mode options w).2.calls =
      (infer (.ofHistory f) c m mode options' w).2.calls) ∧
    (∀ options options', options.skipStrings = options'.skipStrings →
      (infer (.ofHistory f) c m mode options w).1.outputs =
        (infer (.ofHistory f) c m mode options' w).1.outputs) := by
  have hm := Model.ofHistory_confined f
  -- The ending of the run with one set of options is, but for the document, that with another.
  have hother : ∀ options options', ∃ d v, infer (.ofHistory f) c m mode options' w = (d, v) ∧
      v.calls = (infer (.ofHistory f) c m mode options w).2.calls ∧
      (options'.skipStrings = options.skipStrings →
        d.outputs = (infer (.ofHistory f) c m mode options w).1.outputs) := by
    intro options options'
    obtain ⟨d₀, v₀, hend₀⟩ := exists_ending (.ofHistory f) c m mode options w
    obtain ⟨d, v, hend, hcalls, houtputs⟩ := hend₀.other options'
    rw [hend₀.infer_eq]
    exact ⟨d, v, hend.infer_eq, hcalls, houtputs⟩
  refine ⟨fun h options => h.infer_eq_empty hm options, fun h options => ?_,
    fun options options' => ?_, fun options options' hskip => ?_⟩
  · obtain ⟨d, v', hend⟩ := exists_ending (.ofHistory f) c m mode options w
    obtain ⟨s, v, u, files, o, found, asked, hdocument, hcalls⟩ := hend.of_not_fallsBack hm h
    have hasked := ask_asked (.ofHistory f) c.inference.schemaName files (v.logged [foundFiles s])
    rw [asked] at hasked
    -- All calls of the run are made while asking, since finding sources makes none.
    obtain ⟨calls, completion, hsome, hall, hlast, hresponse⟩ := hasked.last
    have hfind := Sources.find_calls c m mode w
    rw [found] at hfind
    rw [World.logged_calls, hfind] at hall
    rw [hend.infer_eq]
    refine ⟨calls, completion, o.response, hsome, hcalls.trans hall, ?_, hresponse, hdocument⟩
    rwa [← hall]
  · obtain ⟨d, v, hrun, hcalls, -⟩ := hother options' options
    rw [hrun, hcalls]
  · obtain ⟨d, v, hrun, -, houtputs⟩ := hother options' options
    rw [hrun, houtputs hskip]

end Inference

end ModuleOutputs
