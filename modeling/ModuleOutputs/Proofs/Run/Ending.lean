import ModuleOutputs.Proofs.Run.Asking
import ModuleOutputs.Proofs.Run.Resolving

/-!
How a run ends. A run resolves a module, reads its files, asks the model about them
and maps its answer; each of the first three can fail or come to nothing, and then the
document is the empty one. `Ending` lists the five ways in which a run goes, with the
document and the world of each; what holds of every run is proved by going through
them.
-/

namespace ModuleOutputs

def World.finished (w : World) (s : Sources) : World :=
  match s.checkout with
  | some c => w.released c
  | none => w

@[simp] theorem World.finished_calls (w : World) (s : Sources) :
    (w.finished s).calls = w.calls := by
  unfold finished
  split
  · exact released_calls w _
  · rfl

@[simp] theorem World.finished_server (w : World) (s : Sources) :
    (w.finished s).server = w.server := by
  unfold finished
  split
  · exact released_server w _
  · rfl

theorem World.finished_events (w : World) (s : Sources) :
    (w.finished s).events = w.events := by
  unfold finished
  split
  · exact released_events w _
  · rfl

theorem World.SameTalk.finished {w v : World} (h : w.SameTalk v) (s : Sources) :
    (w.finished s).SameTalk (v.finished s) := by
  simpa [SameTalk] using h

namespace Sources

/-- The warning for a module that cannot be resolved. -/
def unresolved (m : ModuleRef) (f : Failure) : Event :=
  ⟨.warn, "Could not resolve module source", [("module", m.display), ("error", f.message)]⟩

theorem findOrNone_apply (c : Config) (m : ModuleRef) (mode : SourceMode) (w : World) :
    findOrNone c m mode w =
      match (find c m mode).run w with
      | (.ok s, v) => (s, v)
      | (.error f, v) => ({}, v.logged [unresolved m f]) := by
  unfold findOrNone
  rw [Run.bind_apply]
  rcases (find c m mode).run w with ⟨_ | _, v⟩ <;> rfl

theorem release_apply (s : Sources) (w : World) : release s w = ((), w.finished s) := by
  unfold release World.finished
  cases s.checkout with
  | none => rfl
  | some c => exact Clone.release_apply c w

end Sources

namespace Inference

open Chat (Model)

/-! ## Events -/

/-- The warning for a module without files. -/
def nothingFound (m : ModuleRef) : Event :=
  ⟨.warn, "No Terraform files found to analyze", [("module", m.display)]⟩

/-- The report on the files of a module. -/
def foundFiles (s : Sources) : Event :=
  ⟨.info, "Found Terraform files in the module", [("files", toString s.files.length)]⟩

/-- The warning for files that cannot be read. -/
def unreadable (f : Failure) : Event :=
  ⟨.warn, "Failed to read Terraform files", [("error", f.message)]⟩

/-- The error of a model that does not answer. -/
def unanswered (f : Failure) : Event :=
  ⟨.error, "Output type inference failed", [("error", f.message)]⟩

/-- The report on what the model inferred. -/
def inferred (o : Outcome) : Event :=
  ⟨.info, "Model inferred output types",
    [("outputs", toString o.response.outputs.length), ("degraded", toString o.degraded)]⟩

/-! ## Endings -/

/-- How a run can end: the document it has, and the world it leaves. -/
inductive Ending (model : Model) (c : Config) (m : ModuleRef) (mode : SourceMode)
    (options : RunOptions) (w : World) : Schema.Document → World → Prop
  /-- The module cannot be resolved. -/
  | unresolved {f : Failure} {v : World}
      (found : (Sources.find c m mode).run w = (.error f, v)) :
      Ending model c m mode options w .empty (v.logged [Sources.unresolved m f, nothingFound m])
  /-- The module has no files. -/
  | nothing {s : Sources} {v : World}
      (found : (Sources.find c m mode).run w = (.ok s, v)) (none : s.files = []) :
      Ending model c m mode options w .empty ((v.logged [nothingFound m]).finished s)
  /-- A file of the module cannot be read. -/
  | unreadable {s : Sources} {v : World} {f : Failure}
      (found : (Sources.find c m mode).run w = (.ok s, v)) (some : s.files ≠ [])
      (contents : v.contents s.files = .error f) :
      Ending model c m mode options w .empty
        ((v.logged [foundFiles s, Inference.unreadable f]).finished s)
  /-- The model does not answer. -/
  | unanswered {s : Sources} {v u : World} {files : List SourceFile} {f : Failure}
      (found : (Sources.find c m mode).run w = (.ok s, v)) (some : s.files ≠ [])
      (contents : v.contents s.files = .ok files)
      (asked : (ask model c.inference.schemaName files).run (v.logged [foundFiles s]) =
        (.error f, u)) :
      Ending model c m mode options w .empty ((u.logged [Inference.unanswered f]).finished s)
  /-- The model answers. -/
  | answered {s : Sources} {v u : World} {files : List SourceFile} {o : Outcome}
      (found : (Sources.find c m mode).run w = (.ok s, v)) (some : s.files ≠ [])
      (contents : v.contents s.files = .ok files)
      (asked : (ask model c.inference.schemaName files).run (v.logged [foundFiles s]) =
        (.ok o, u)) :
      Ending model c m mode options w (.ofOutputs m options o.response.outputs)
        ((u.logged (inferred o :: Schema.mapEvents options o.response.outputs)).finished s)

theorem documentOf_apply (model : Model) (c : Config) (m : ModuleRef) (options : RunOptions)
    (files : List SourceFile) (w : World) :
    documentOf model c m options files w =
      match (ask model c.inference.schemaName files).run w with
      | (.error f, u) => (.empty, u.logged [unanswered f])
      | (.ok o, u) =>
        (.ofOutputs m options o.response.outputs,
          u.logged (inferred o :: Schema.mapEvents options o.response.outputs)) := by
  unfold documentOf
  rw [Run.bind_apply]
  rcases (ask model c.inference.schemaName files).run w with ⟨f | o, u⟩
  · rfl
  · simp only [Run.bind_apply, Run.info, Run.log_apply, Run.forM_log_apply, World.logged,
      List.append_assoc, List.cons_append, List.nil_append]
    rfl

theorem ofSources_apply (model : Model) (c : Config) (m : ModuleRef) (options : RunOptions)
    (s : Sources) (w : World) :
    ofSources model c m options s w =
      if s.files = [] then (.empty, w.logged [nothingFound m])
      else
        match w.contents s.files with
        | .error f => (.empty, w.logged [foundFiles s, unreadable f])
        | .ok files => documentOf model c m options files (w.logged [foundFiles s]) := by
  unfold ofSources
  by_cases hnone : s.files = []
  · have hempty : s.isEmpty = true := by simp [Sources.isEmpty, hnone]
    rw [if_pos hempty, if_pos hnone]
    rfl
  · have hempty : ¬ s.isEmpty = true := by simpa [Sources.isEmpty] using hnone
    rw [if_neg hempty, if_neg hnone]
    simp only [Run.bind_apply, Run.info, Run.log_apply, Sources.readFiles_run]
    rw [(World.SameFiles.logged w _).contents_eq]
    cases w.contents s.files with
    | error f =>
        simp only [Run.bind_apply, Run.warn, Run.log_apply, World.logged, List.append_assoc,
          List.cons_append, List.nil_append]
        rfl
    | ok files => rfl

theorem infer_apply (model : Model) (c : Config) (m : ModuleRef) (mode : SourceMode)
    (options : RunOptions) (w : World) :
    infer model c m mode options w =
      let found := Sources.findOrNone c m mode w
      let document := ofSources model c m options found.1 found.2
      (document.1, document.2.finished found.1) := by
  unfold infer
  simp only [Run.bind_apply, Sources.release_apply]
  rfl

variable {model : Model} {c : Config} {m : ModuleRef} {mode : SourceMode} {options : RunOptions}
  {w v : World}

/-- An ending determines the run. -/
theorem Ending.infer_eq {d : Schema.Document} (h : Ending model c m mode options w d v) :
    infer model c m mode options w = (d, v) := by
  rw [infer_apply, Sources.findOrNone_apply]
  cases h with
  | unresolved found =>
      simp [found, ofSources_apply, World.logged, World.finished]
  | nothing found none =>
      simp [found, none, ofSources_apply]
  | unreadable found some contents =>
      simp [found, some, contents, ofSources_apply]
  | unanswered found some contents asked =>
      simp [found, some, contents, ofSources_apply, documentOf_apply, asked]
  | answered found some contents asked =>
      simp [found, some, contents, ofSources_apply, documentOf_apply, asked]

/-- Every run ends in one of the five ways. -/
theorem exists_ending (model : Model) (c : Config) (m : ModuleRef) (mode : SourceMode)
    (options : RunOptions) (w : World) : ∃ d v, Ending model c m mode options w d v := by
  rcases hfound : (Sources.find c m mode).run w with ⟨f | s, v⟩
  · exact ⟨_, _, .unresolved hfound⟩
  · by_cases hnone : s.files = []
    · exact ⟨_, _, .nothing hfound hnone⟩
    · cases hcontents : v.contents s.files with
      | error f => exact ⟨_, _, .unreadable hfound hnone hcontents⟩
      | ok files =>
          rcases hasked : (ask model c.inference.schemaName files).run (v.logged [foundFiles s])
            with ⟨f | o, u⟩
          · exact ⟨_, _, .unanswered hfound hnone hcontents hasked⟩
          · exact ⟨_, _, .answered hfound hnone hcontents hasked⟩

end Inference

end ModuleOutputs
