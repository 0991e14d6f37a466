import ModuleOutputs.Program
import ModuleOutputs.Proofs.FileTree.Writing
import ModuleOutputs.Proofs.Run.Frame

/-!
What the program leaves in the file system. Before it infers anything the program reads
its configuration, its credential and its arguments; a run that ends there leaves the
world as it was. The document is written in one step at the end, so a run that fails
has written nothing, and a run that succeeds has written one file.
-/

namespace ModuleOutputs

open ModuleOutputs.Path (ofText)

namespace Inference

open Chat (Model)

def writing (p : Path) : Event :=
  ⟨.info, "Writing output", [("path", Path.display p)]⟩

/-- The report on a document that has been written. -/
def wrote (p : Path) (d : Schema.Document) : Event :=
  ⟨.info, "Schema written", [("path", Path.display p), ("outputs", toString d.outputs.length)]⟩

theorem prepare_apply (c : Config) (w : World) :
    prepare c w = ((), w.logged (Scan.events c.scan)) :=
  Run.forM_log_apply _ w

theorem write_run (c : Config) (d : Schema.Document) (p : Path) (w : World) :
    (write c d p).run w =
      match w.tree.write w.here p (Text.utf8 (d.render c.output.pretty)) with
      | .error fault => (.error (.file p fault), w)
      | .ok tree => (.ok (), (w.withTree tree).logged [wrote p d]) := by
  rw [write, Attempt.run_bind, Run.writeBytes_run]
  cases w.tree.write w.here p (Text.utf8 (d.render c.output.pretty)) <;> rfl

theorem run_run (model : Model) (c : Config) (m : ModuleRef) (mode : SourceMode)
    (options : RunOptions) (outputFile : Path) (w : World) :
    (run model c m mode options outputFile).run w =
      let p := outputPath w.workingDirectory outputFile
      let inferred := infer model c m mode options w
      let v := inferred.2.logged [writing p]
      match v.tree.write v.here p (Text.utf8 (inferred.1.render c.output.pretty)) with
      | .error fault => (.error (.file p fault), v)
      | .ok tree => (.ok inferred.1, (v.withTree tree).logged [wrote p inferred.1]) := by
  simp only [run, Attempt.run_bind, Attempt.run_get, Attempt.run_lift, Run.info, Run.log_apply,
    write_run]
  rcases infer model c m mode options w with ⟨d, v⟩
  dsimp only [writing]
  generalize v.logged [_] = u
  cases u.tree.write u.here (outputPath w.workingDirectory outputFile)
    (Text.utf8 (d.render c.output.pretty)) <;> rfl

end Inference

/-- The text of a document is not empty. -/
theorem Schema.Document.utf8_render_ne_nil (d : Document) (indented : Bool) :
    Text.utf8 (d.render indented) ≠ [] := by
  have hbrace : ∀ cs, Text.utf8 (String.ofList ('\x7b' :: cs)) ≠ [] := by
    intro cs h
    rw [Text.utf8, String.toList_ofList, Text.encode, List.flatMap_cons,
      List.append_eq_nil_iff] at h
    exact absurd h.1 (by decide)
  cases d <;> cases indented <;> exact hbrace _

namespace Program

def configFile? (line : CommandLine) (w : World) : Option Path :=
  match line.config with
  | some name => some (Path.ofText name)
  | none => (configNames.map Path.ofText).find? (w.tree.pathExists w.here)

/-- The configuration that a file holds. -/
def configOf (env : Environment) (w : World) (p : Path) : Except Failure Config :=
  match w.tree.read w.here p with
  | .error fault => .error (.file p fault)
  | .ok bytes =>
    match Text.strict bytes with
    | none => .error (.file p .notText)
    | some content => Config.ofText env content

def configIn (env : Environment) (line : CommandLine) (w : World) : Except Failure Config :=
  match configFile? line w with
  | none => .ok (line.mergeInto {})
  | some p => (configOf env w p).map line.mergeInto

theorem configPath_apply (line : CommandLine) (w : World) :
    configPath line w = (configFile? line w, w) := by
  unfold configPath configFile?
  cases line.config <;> rfl

theorem readConfig_run (env : Environment) (p : Path) (w : World) :
    (readConfig env p).run w = (configOf env w p, w) := by
  rw [readConfig, Attempt.run_bind, Run.readBytes_run, configOf]
  cases w.tree.read w.here p with
  | error fault => rfl
  | ok bytes =>
      dsimp only
      cases Text.strict bytes <;> rfl

/-- Reading the configuration changes nothing. -/
theorem configFor_run (env : Environment) (line : CommandLine) (w : World) :
    (configFor env line).run w = (configIn env line w, w) := by
  rw [configFor, Attempt.run_bind, Attempt.run_lift, configPath_apply, configIn]
  cases configFile? line w with
  | none => rfl
  | some p =>
      simp only [Attempt.run_bind, readConfig_run]
      cases configOf env w p <;> rfl

/-- What is settled before anything is inferred: the configuration, the credential and
what the arguments say. -/
def prepared (env : Environment) (line : CommandLine) (w : World) :
    Except Failure (Config × String × Invocation) := do
  let config ← configIn env line w
  let key ← config.credential env
  let invocation ← line.invocation
  return (config, key, invocation)

/-- What is inferred once that is settled, and the world that is left. -/
def inferred (config : Config) (key : String) (invocation : Invocation) (line : CommandLine)
    (w : World) : Schema.Document × World :=
  Inference.infer (.service config.inference key) config invocation.module invocation.mode
    line.runOptions (w.logged (Scan.events config.scan))

/-- Where the document of an invocation is written. -/
def outputFor (invocation : Invocation) (w : World) : Path :=
  Inference.outputPath w.workingDirectory (Path.ofText invocation.outputFile)

/-- How a command line can be carried out. -/
inductive Carried (env : Environment) (line : CommandLine) (w : World) :
    Except Failure (Schema.Document × Path) → World → Prop
  /-- The run ends before anything is inferred. -/
  | refused {f : Failure} (prepared : prepared env line w = .error f) :
      Carried env line w (.error f) w
  /-- The document cannot be written. -/
  | unwritten {config : Config} {key : String} {invocation : Invocation} {d : Schema.Document}
      {v : World} {fault : FileFault}
      (prepared : prepared env line w = .ok (config, key, invocation))
      (inferred : inferred config key invocation line w = (d, v))
      (write : v.tree.write v.here (outputFor invocation w)
        (Text.utf8 (d.render config.output.pretty)) = .error fault) :
      Carried env line w (.error (.file (outputFor invocation w) fault))
        (v.logged [Inference.writing (outputFor invocation w)])
  /-- The document is written. -/
  | written {config : Config} {key : String} {invocation : Invocation} {d : Schema.Document}
      {v : World} {tree : FileTree} {p : Path}
      (prepared : prepared env line w = .ok (config, key, invocation))
      (inferred : inferred config key invocation line w = (d, v))
      (write : v.tree.write v.here (outputFor invocation w)
        (Text.utf8 (d.render config.output.pretty)) = .ok tree) :
      Carried env line w (.ok (d, p))
        (((v.logged [Inference.writing (outputFor invocation w)]).withTree tree).logged
          [Inference.wrote (outputFor invocation w) d])

/-- Every command line is carried out in one of the three ways. -/
theorem inferFor_carried (env : Environment) (line : CommandLine) (w : World) :
    Carried env line w ((inferFor env line).run w).1 ((inferFor env line).run w).2 := by
  rw [inferFor, Attempt.run_bind, configFor_run]
  -- Each of the three parts of what is prepared can be the last one.
  cases hconfig : configIn env line w with
  | error f => exact .refused (by simp [prepared, hconfig, bind, Except.bind])
  | ok config =>
      simp only [Attempt.run_bind, Attempt.run_mk]
      cases hkey : config.credential env with
      | error f => exact .refused (by simp [prepared, hconfig, hkey, bind, Except.bind])
      | ok key =>
          cases hinvocation : line.invocation with
          | error f =>
              exact .refused (by simp [prepared, hconfig, hkey, hinvocation, bind, Except.bind])
          | ok invocation =>
              have hprepared : prepared env line w = .ok (config, key, invocation) := by
                simp [prepared, hconfig, hkey, hinvocation, bind, Except.bind, pure, Except.pure]
              have hpath : Inference.outputPath (w.logged (Scan.events config.scan)).workingDirectory
                  (Path.ofText invocation.outputFile) = outputFor invocation w := rfl
              rcases hinferred : inferred config key invocation line w with ⟨d, v⟩
              have hinfer := hinferred
              unfold inferred at hinfer
              simp only [Run.pure_apply, Attempt.run_lift, Inference.prepare_apply,
                Inference.run_run, hinfer, hpath, World.logged_tree, World.logged_here]
              cases hwrite : v.tree.write v.here (outputFor invocation w)
                  (Text.utf8 (d.render config.output.pretty)) with
              | error fault => exact .unwritten hprepared hinferred hwrite
              | ok tree => exact .written hprepared hinferred hwrite

/-- A command line that is carried out leaves the world of that, and ends with the code
of its failure, or with none. -/
theorem runLine_apply (env : Environment) {line : CommandLine} (h : line.printConfig = false)
    (w : World) :
    (runLine env line w).2 = ((inferFor env line).run w).2 ∧
      (runLine env line w).1.exitCode =
        match ((inferFor env line).run w).1 with
        | .error f => f.exitCode
        | .ok _ => 0 := by
  unfold runLine
  simp only [h, Bool.false_eq_true, if_false, Run.bind_apply]
  rcases (inferFor env line).run w with ⟨f | ⟨d, p⟩, v⟩ <;> exact ⟨rfl, rfl⟩

theorem runLine_printConfig (env : Environment) {line : CommandLine} (h : line.printConfig = true)
    (w : World) : runLine env line w = ({ stdout := Config.exampleText }, w) := by
  unfold runLine
  simp only [h, if_true]
  rfl

/-- The arguments of a run, as far as they are understood. -/
def parsed (env : Environment) (args : List String) : Except CommandLine.Refusal CommandLine :=
  CommandLine.parse (env.get? CommandLine.configVariable) args

theorem run_of_refusal {env : Environment} {args : List String} {r : CommandLine.Refusal}
    (h : parsed env args = .error r) (w : World) :
    (run env args w).2 = w ∧ (run env args w).1.exitCode = r.exitCode := by
  unfold parsed at h
  unfold run
  rw [h]
  dsimp only
  split <;> exact ⟨rfl, rfl⟩

theorem run_of_line {env : Environment} {args : List String} {line : CommandLine}
    (h : parsed env args = .ok line) (w : World) : run env args w = runLine env line w := by
  unfold parsed at h
  unfold run
  rw [h]

end Program

/-- A failure of a file ends with one of two codes, neither for the configuration. -/
theorem Failure.exitCode_file (p : Path) (fault : FileFault) :
    (Failure.file p fault).exitCode = 1 ∨ (Failure.file p fault).exitCode = 13 := by
  cases h : fault.isDenied with
  | false => exact .inl (by simp [exitCode, h])
  | true => exact .inr (by simp [exitCode, h])

theorem Failure.exitCode_ne_zero (f : Failure) : f.exitCode ≠ 0 := by
  cases f with
  | file path fault => rcases exitCode_file path fault with h | h <;> simp [h]
  | _ => simp [exitCode]

/-- The output file is the last of the positional arguments. -/
theorem CommandLine.getLast?_args {line : CommandLine} {invocation : Invocation}
    (h : line.invocation = .ok invocation) : line.args.getLast? = some invocation.outputFile := by
  unfold CommandLine.invocation at h
  split at h
  · next hargs =>
      cases h
      rw [hargs]
      rfl
  · next hargs =>
      cases h
      rw [hargs]
      rfl
  · cases h

namespace Program

theorem invocation_of_prepared {env : Environment} {line : CommandLine} {w : World}
    {config : Config} {key : String} {invocation : Invocation}
    (h : prepared env line w = .ok (config, key, invocation)) :
    line.invocation = .ok invocation := by
  unfold prepared at h
  cases hconfig : configIn env line w with
  | error f => simp [hconfig, bind, Except.bind] at h
  | ok config =>
      cases hkey : config.credential env with
      | error f => simp [hconfig, hkey, bind, Except.bind] at h
      | ok key =>
          cases hinvocation : line.invocation with
          | error f => simp [hconfig, hkey, hinvocation, bind, Except.bind] at h
          | ok i => simp_all [bind, Except.bind, pure, Except.pure]

theorem inferred_leaves (config : Config) (key : String) (invocation : Invocation)
    (line : CommandLine) (w : World) :
    Sources.Leaves config invocation.module invocation.mode w
      (inferred config key invocation line w).2.tree :=
  (Inference.infer_leaves (Chat.Model.service_confined config.inference key) config
    invocation.module invocation.mode line.runOptions (w.logged (Scan.events config.scan))).of_logged

theorem inferred_here (config : Config) (key : String) (invocation : Invocation)
    (line : CommandLine) (w : World) : (inferred config key invocation line w).2.here = w.here :=
  Inference.infer_here (Chat.Model.service_confined config.inference key) config
    invocation.module invocation.mode line.runOptions (w.logged (Scan.events config.scan))

/-- What a run leaves in the file system is settled by the code with which it ends. With
a code other than zero nothing has changed, except that a clone that succeeded and was to be
kept is there. With zero, either it only printed something, or the document has been written at
the path of the last positional argument, and nothing else has changed with the same exception.
With a code for the command line, the configuration or the credential, nothing has happened at
all. -/
theorem run_atomic (env : Environment) (args : List String) (w : World) :
    ((run env args w).1.exitCode ≠ 0 → (run env args w).2.tree = w.tree ∨
      ∃ line config key invocation d files,
        parsed env args = .ok line ∧ prepared env line w = .ok (config, key, invocation) ∧
        Sources.Keeps config invocation.module invocation.mode w d files ∧
        (run env args w).2.tree = w.tree.withDirectory d.location files) ∧
    ((run env args w).1.exitCode = 0 →
      ((run env args w).2 = w ∧
        ((∃ r, parsed env args = .error r ∧ r.isAnswer = true) ∨
          ∃ line, parsed env args = .ok line ∧ line.printConfig = true)) ∨
      ∃ line config key invocation base,
        parsed env args = .ok line ∧ line.printConfig = false ∧
        prepared env line w = .ok (config, key, invocation) ∧
        line.args.getLast? = some invocation.outputFile ∧
        Sources.Leaves config invocation.module invocation.mode w base ∧
        FileTree.IsWritten base (run env args w).2.tree w.here (outputFor invocation w)
          (Text.utf8 ((inferred config key invocation line w).1.render config.output.pretty))) ∧
    ((run env args w).1.exitCode ∈ [2, 18, 20] → (run env args w).2 = w) := by
  cases hparsed : parsed env args with
  | error r =>
      obtain ⟨hworld, hexit⟩ := run_of_refusal hparsed w
      rw [hworld, hexit]
      refine ⟨fun _ => .inl rfl, fun hzero => ?_, fun _ => rfl⟩
      refine .inl ⟨rfl, .inl ⟨r, rfl, ?_⟩⟩
      unfold CommandLine.Refusal.exitCode at hzero
      split at hzero
      · assumption
      · cases hzero
  | ok line =>
      rw [run_of_line hparsed]
      cases hprint : line.printConfig with
      | true =>
          rw [runLine_printConfig env hprint]
          exact ⟨fun _ => .inl rfl, fun _ => .inl ⟨rfl, .inr ⟨line, rfl, hprint⟩⟩, fun _ => rfl⟩
      | false =>
          obtain ⟨hworld, hexit⟩ := runLine_apply env hprint w
          rw [hworld, hexit]
          have hcarried := inferFor_carried env line w
          generalize ((inferFor env line).run w).1 = r at hcarried ⊢
          generalize ((inferFor env line).run w).2 = v at hcarried ⊢
          cases hcarried with
          | @refused f _ =>
              exact ⟨fun _ => .inl rfl, fun hzero => absurd hzero f.exitCode_ne_zero,
                fun _ => rfl⟩
          | @unwritten config key invocation d v fault hprepared hinferred hwrite =>
              have hleaves := inferred_leaves config key invocation line w
              rw [hinferred] at hleaves
              refine ⟨fun _ => ?_, fun hzero => absurd hzero (Failure.exitCode_ne_zero _),
                fun hcode => ?_⟩
              · rcases hleaves.eq_or_keeps with htree | ⟨clone, files, hkeeps, htree⟩
                · exact .inl htree
                · exact .inr ⟨line, config, key, invocation, clone, files, rfl, hprepared, hkeeps,
                    htree⟩
              · -- The code is that of a file's failure, so it is none of the three.
                rcases Failure.exitCode_file (outputFor invocation w) fault with h | h <;>
                  simp [h] at hcode
          | @written config key invocation d v tree p hprepared hinferred hwrite =>
              have hleaves := inferred_leaves config key invocation line w
              have hhere := inferred_here config key invocation line w
              rw [hinferred] at hleaves hhere
              refine ⟨fun hcode => absurd rfl hcode, fun _ => .inr ?_, fun hcode => by simp at hcode⟩
              refine ⟨line, config, key, invocation, v.tree, rfl, hprint, hprepared,
                CommandLine.getLast?_args (invocation_of_prepared hprepared), hleaves, ?_⟩
              rw [hinferred, ← hhere]
              exact FileTree.isWritten_of_write hwrite

/-! ## Clones that are kept, and devices -/

theorem prepared_of_default {env : Environment} {line : CommandLine} {w : World} {key : String}
    {invocation : Invocation} (hconfig : configFile? line w = none)
    (hkey : (line.mergeInto {}).credential env = .ok key)
    (hinvocation : line.invocation = .ok invocation) :
    prepared env line w = .ok (line.mergeInto {}, key, invocation) := by
  simp [prepared, configIn, hconfig, hkey, hinvocation, bind, Except.bind, pure, Except.pure]

/-- Once all is prepared, it is the write that decides. -/
theorem run_of_prepared {env : Environment} {args : List String} {line : CommandLine} {w : World}
    {config : Config} {key : String} {invocation : Invocation} (hparsed : parsed env args = .ok line)
    (hprint : line.printConfig = false)
    (hprepared : prepared env line w = .ok (config, key, invocation)) :
    ((run env args w).2.tree, (run env args w).1.exitCode) =
      let (d, v) := inferred config key invocation line w
      match v.tree.write w.here (outputFor invocation w)
        (Text.utf8 (d.render config.output.pretty)) with
      | .error fault => (v.tree, (Failure.file (outputFor invocation w) fault).exitCode)
      | .ok tree => (tree, 0) := by
  have hhere := inferred_here config key invocation line w
  obtain ⟨hworld, hexit⟩ := runLine_apply env hprint w
  have hcarried := inferFor_carried env line w
  rw [run_of_line hparsed, hworld, hexit, ← hhere]
  generalize ((inferFor env line).run w).1 = r at hcarried ⊢
  generalize ((inferFor env line).run w).2 = u at hcarried ⊢
  cases hcarried with
  | refused hrefused =>
      rw [hprepared] at hrefused
      cases hrefused
  | unwritten hprepared' hinferred hwrite | written hprepared' hinferred hwrite =>
      rw [hprepared] at hprepared'
      cases hprepared'
      simp only [hinferred, hwrite]
      rfl

/-- An environment with a credential. -/
def keyed : Environment :=
  [("OPENAI_KEY", "k")]

/-- A command line for a module in a registry, whose clone is to be kept and whose document is
to be written into a directory that is not there. -/
def keeping : CommandLine :=
  { keepClone := true, args := ["a/b/c", "1.0.0", "missing/out.json"] }

/-- A world whose temporary directory is in the working directory. -/
def cramped : World :=
  { World.offering [] ⟨[([ofText "tmp", ofText "work"], .directory), ([ofText "work"], .directory)]⟩
      [] with
    temporary := ofText "/work/tmp" }

/-- The directory of a clone in that world. -/
def crampedClone : Clone.Directory :=
  ⟨ofText "/work/tmp/terraform-modulea1B2c3",
    [ofText "terraform-modulea1B2c3", ofText "tmp", ofText "work"]⟩

/-- A command line for a module in a directory. -/
def plain : CommandLine :=
  { args := ["m", "out.json"] }

/-- A world in which the output file is a link to a device that keeps nothing. -/
def silenced : World :=
  { World.replying [] with
    tree := ⟨[([ofText "work"], .directory), ([ofText "m", ofText "work"], .directory),
      ([ofText "dev"], .directory), ([ofText "null", ofText "dev"], .sink),
      ([ofText "out.json", ofText "work"], .link (ofText "/dev/null"))]⟩ }

theorem cramped_keeps : Sources.Keeps (keeping.mergeInto {}) ⟨"a/b/c", "1.0.0"⟩ .registry cramped
    crampedClone (Git.clone []) := by
  have hnext : Clone.nextDirectory cramped = .ok crampedClone := by cbv
  obtain ⟨a, hpublished⟩ := Sources.published_offering (c := keeping.mergeInto {}) rfl [] .bare []
  have hcloning := Sources.cloning_offering [] .bare []
  exact ⟨rfl, rfl, a, _, _, ⟨hpublished.address, hpublished.reply, hpublished.repository⟩, hnext,
    congrArg Cloning.fault hcloning, congrArg Cloning.files hcloning⟩

theorem run_keeping :
    (run keyed ["--keep-clone", "a/b/c", "1.0.0", "missing/out.json"] cramped).2.tree =
        cramped.tree.withDirectory crampedClone.location (Git.clone []) ∧
      (run keyed ["--keep-clone", "a/b/c", "1.0.0", "missing/out.json"] cramped).1.exitCode = 1 := by
  have hparsed : parsed keyed ["--keep-clone", "a/b/c", "1.0.0", "missing/out.json"] =
    .ok keeping := rfl
  have hprepared : prepared keyed keeping cramped = .ok (keeping.mergeInto {}, "k",
      ⟨⟨"a/b/c", "1.0.0"⟩, .registry, "missing/out.json"⟩) :=
    prepared_of_default (by cbv) rfl rfl
  have htree := (inferred_leaves (keeping.mergeInto {}) "k"
    ⟨⟨"a/b/c", "1.0.0"⟩, .registry, "missing/out.json"⟩ keeping cramped).eq_of_keeps cramped_keeps
  have hspot : FileTree.writeSpot
      (cramped.tree.withDirectory crampedClone.location (Git.clone [])) cramped.here
      (ofText "/work/missing/out.json") = .error .notFound := by cbv
  have hpath : outputFor ⟨⟨"a/b/c", "1.0.0"⟩, .registry, "missing/out.json"⟩ cramped =
    ofText "/work/missing/out.json" := by decide +kernel
  have hrun := run_of_prepared hparsed rfl hprepared
  simp only [htree, hpath, FileTree.write, hspot, Prod.mk.injEq] at hrun
  exact hrun

theorem run_plain :
    (run keyed ["m", "out.json"] silenced).2.tree = silenced.tree ∧
      (run keyed ["m", "out.json"] silenced).1.exitCode = 0 := by
  have hparsed : parsed keyed ["m", "out.json"] = .ok plain := rfl
  have hprepared : prepared keyed plain silenced = .ok (plain.mergeInto {}, "k",
      ⟨⟨"m", ""⟩, .directory, "out.json"⟩) :=
    prepared_of_default (by cbv) rfl rfl
  have htree := (inferred_leaves (plain.mergeInto {}) "k" ⟨⟨"m", ""⟩, .directory, "out.json"⟩ plain
    silenced).eq_of_unkept fun _ _ => Sources.not_keeps_directory
  have hspot : FileTree.writeSpot silenced.tree silenced.here (ofText "/work/out.json") =
    .ok none := by cbv
  have hpath : outputFor ⟨⟨"m", ""⟩, .directory, "out.json"⟩ silenced =
    ofText "/work/out.json" := by decide +kernel
  have hrun := run_of_prepared hparsed rfl hprepared
  simp only [htree, hpath, FileTree.write, hspot, Prod.mk.injEq] at hrun
  exact hrun

/-- A run that fails may leave a clone that was to be kept in the working directory, and a run
that succeeds may have written its document to a device that does not keep it. -/
theorem run_not_atomic :
    ((run keyed ["--keep-clone", "a/b/c", "1.0.0", "missing/out.json"] cramped).1.exitCode = 1 ∧
      cramped.here <:+ crampedClone.location ∧
      cramped.tree.entry? crampedClone.location = none ∧
      FileTree.entry?
        (run keyed ["--keep-clone", "a/b/c", "1.0.0", "missing/out.json"] cramped).2.tree
        crampedClone.location = some .directory) ∧
    parsed keyed ["m", "out.json"] = .ok plain ∧ plain.printConfig = false ∧
      (run keyed ["m", "out.json"] silenced).1.exitCode = 0 ∧
      ∀ (d : Schema.Document) (indented : Bool),
        FileTree.read (run keyed ["m", "out.json"] silenced).2.tree silenced.here
          (ofText "out.json") ≠ .ok (Text.utf8 (d.render indented)) := by
  obtain ⟨hkept, hfailed⟩ := run_keeping
  obtain ⟨hsame, hdone⟩ := run_plain
  have hread : FileTree.read silenced.tree silenced.here (ofText "out.json") = .ok [] := by cbv
  refine ⟨⟨hfailed, by decide, by decide +kernel, ?_⟩, rfl, rfl, hdone, ?_⟩
  · rw [hkept]
    exact FileTree.entry?_withDirectory_self _ (List.cons_ne_nil _ _) _
  · intro d indented h
    rw [hsame, hread] at h
    exact d.utf8_render_ne_nil indented (Except.ok.inj h).symm

end Program

end ModuleOutputs
