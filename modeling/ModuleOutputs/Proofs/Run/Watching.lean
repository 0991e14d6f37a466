import ModuleOutputs.Proofs.Run.Ending

/-!
Runs that are watched. A watched run does what the run does and notes the state of the
file system each time a source file is read. Without the notes it is the run itself, so
what the notes say holds of the run.
-/

namespace ModuleOutputs

/-- A source file that is read, and the file system when it is read. -/
structure Reading where
  path : Path
  tree : FileTree

/-- A run that notes its readings. -/
abbrev Watched := StateT (List Reading) Run

namespace Watched

open Chat (Model)

def note (p : Path) : Watched Unit := do
  let w ← getThe World
  modify fun readings => readings ++ [⟨p, w.tree⟩]

def readFile (p : Path) : ExceptT Failure Watched SourceFile := do
  note p
  ExceptT.mk (liftM (Sources.readFile p).run)

def readFiles (paths : List Path) : ExceptT Failure Watched (List SourceFile) :=
  paths.mapM readFile

def ofSources (model : Model) (c : Config) (m : ModuleRef) (options : RunOptions)
    (sources : Sources) : Watched Schema.Document := do
  if sources.isEmpty then
    Run.warn "No Terraform files found to analyze" [("module", m.display)]
    return .empty
  else
    Run.info "Found Terraform files in the module" [("files", toString sources.files.length)]
    match ← (readFiles sources.files).run with
    | .error f =>
      Run.warn "Failed to read Terraform files" [("error", f.message)]
      return .empty
    | .ok files => Inference.documentOf model c m options files

def infer (model : Model) (c : Config) (m : ModuleRef) (mode : SourceMode)
    (options : RunOptions) : Watched Schema.Document := do
  let sources ← Sources.findOrNone c m mode
  let document ← ofSources model c m options sources
  sources.release
  return document

/-! ## Without the notes -/

theorem bind_apply {α β : Type} (x : Watched α) (f : α → Watched β) (readings : List Reading)
    (w : World) :
    (x >>= f) readings w = f (x readings w).1.1 (x readings w).1.2 (x readings w).2 := rfl

theorem lift_apply {α : Type} (x : Run α) (readings : List Reading) (w : World) :
    (liftM x : Watched α) readings w = (((x w).1, readings), (x w).2) := rfl

theorem run_bind {α β : Type} (x : ExceptT Failure Watched α) (f : α → ExceptT Failure Watched β)
    (readings : List Reading) (w : World) :
    (x >>= f).run readings w =
      match x.run readings w with
      | ((.ok a, readings'), v) => (f a).run readings' v
      | ((.error e, readings'), v) => ((.error e, readings'), v) := by
  rw [ExceptT.run_bind, bind_apply]
  rcases x.run readings w with ⟨⟨_ | _, readings'⟩, v⟩ <;> rfl

theorem readFile_run (p : Path) (readings : List Reading) (w : World) :
    (readFile p).run readings w =
      ((match w.tree.read w.here p with
        | .ok bytes => .ok ⟨p, Text.lossy bytes⟩
        | .error fault => .error (.file p fault), readings ++ [⟨p, w.tree⟩]), w) := by
  change ((((Sources.readFile p).run w).1, readings ++ [⟨p, w.tree⟩]),
    ((Sources.readFile p).run w).2) = _
  exact congrArg (fun x => ((x.1, readings ++ [⟨p, w.tree⟩]), x.2)) (Sources.readFile_run p w)

/-- Files are read in order, up to the first that cannot be read, and reading changes
nothing. -/
theorem readFiles_run (paths : List Path) (readings : List Reading) (w : World) :
    ∃ read, read <+: paths ∧ (readFiles paths).run readings w =
      ((w.contents paths, readings ++ read.map (⟨·, w.tree⟩)), w) := by
  induction paths generalizing readings with
  | nil => exact ⟨[], List.prefix_rfl, by simp [readFiles, World.contents]; rfl⟩
  | cons p rest ih =>
      obtain ⟨read, hprefix, hrest⟩ := ih (readings ++ [⟨p, w.tree⟩])
      unfold readFiles at *
      simp only [List.mapM_cons, run_bind, readFile_run, World.contents_cons]
      cases w.tree.read w.here p with
      | error fault => exact ⟨[p], by simp, rfl⟩
      | ok bytes =>
          refine ⟨p :: read, by simpa using hprefix, ?_⟩
          simp only [hrest]
          rw [List.map_cons, List.append_assoc]
          cases w.contents rest <;> rfl

theorem ofSources_apply (model : Model) (c : Config) (m : ModuleRef) (options : RunOptions)
    (s : Sources) (readings : List Reading) (w : World) :
    ∃ read, read <+: s.files ∧ ofSources model c m options s readings w =
      (((Inference.ofSources model c m options s w).1, readings ++ read.map (⟨·, w.tree⟩)),
        (Inference.ofSources model c m options s w).2) := by
  unfold ofSources Inference.ofSources
  by_cases hempty : s.isEmpty
  · refine ⟨[], List.nil_prefix, ?_⟩
    simp only [hempty, if_true, List.map_nil, List.append_nil]
    rfl
  · obtain ⟨read, hprefix, hread⟩ := readFiles_run s.files readings
      (w.logged [Inference.foundFiles s])
    refine ⟨read, hprefix, ?_⟩
    rw [if_neg hempty, if_neg hempty]
    simp only [bind_apply, lift_apply, Run.bind_apply, Run.info, Run.log_apply,
      Sources.readFiles_run]
    rw [← Inference.foundFiles, hread]
    cases (w.logged [Inference.foundFiles s]).contents s.files <;> rfl

/-- A watched run is the run, and every file is read in the state that finding the sources
has left. -/
theorem infer_apply (model : Model) (c : Config) (m : ModuleRef) (mode : SourceMode)
    (options : RunOptions) (readings : List Reading) (w : World) :
    ∃ read, read <+: (Sources.findOrNone c m mode w).1.files ∧
      infer model c m mode options readings w =
        (((Inference.infer model c m mode options w).1,
          readings ++ read.map (⟨·, (Sources.findOrNone c m mode w).2.tree⟩)),
          (Inference.infer model c m mode options w).2) := by
  obtain ⟨read, hprefix, happly⟩ := ofSources_apply model c m options
    (Sources.findOrNone c m mode w).1 readings (Sources.findOrNone c m mode w).2
  refine ⟨read, hprefix, ?_⟩
  unfold infer Inference.infer
  simp only [bind_apply, lift_apply, Run.bind_apply, happly]
  rfl

end Watched

end ModuleOutputs
