import ModuleOutputs.Proofs.Run.Alike

/-!
What of the file system a run on a cloned repository depends on. The repository is not
trusted, and its links are followed wherever they lead: one that leads out of the clone
directory makes the run read a file there and send it to the model. If no link leads out,
nothing that is sent depends on files outside of the clone directory.
-/

namespace ModuleOutputs

open ModuleOutputs.Path (ofText)

namespace Inference

open Chat (Model)

/-- If no link of the repository that is cloned leads out of the clone, a run sends the
same and has the same document in two worlds that differ in their files alone. -/
theorem infer_contained {model : Model} (hm : model.Confined) (c : Config) (m : ModuleRef)
    (options : RunOptions) {w v : World} {d : Clone.Directory} (h : w.Alike v) (hw : w.IsReady d)
    (hv : v.IsReady d)
    (hstays : ∀ files, Sources.Clones c m w d files → files.HasProperNames ∧
      (w.tree.withDirectory d.location files).LinksStay d.location) :
    (infer model c m .registry options w).1 = (infer model c m .registry options v).1 ∧
      (infer model c m .registry options w).2.SameTalk (infer model c m .registry options v).2 := by
  obtain ⟨document, u, hend⟩ := exists_ending model c m .registry options w
  rw [hend.infer_eq]
  -- Sources, contents and answers are the same in both worlds, and so is the ending.
  cases hend with
  | unresolved found =>
      obtain ⟨u', found', htalk, _⟩ := Sources.find_alike h hw hv hstays found
      rw [(Ending.unresolved found').infer_eq]
      exact ⟨rfl, htalk.logged _ _⟩
  | nothing found none =>
      obtain ⟨u', found', htalk, _⟩ := Sources.find_alike h hw hv hstays found
      rw [(Ending.nothing found' none).infer_eq]
      exact ⟨rfl, (htalk.logged _ _).finished _⟩
  | unreadable found some contents =>
      obtain ⟨u', found', htalk, hcontents⟩ := Sources.find_alike h hw hv hstays found
      rw [(Ending.unreadable found' some ((hcontents _ rfl).trans contents)).infer_eq]
      exact ⟨rfl, (htalk.logged _ _).finished _⟩
  | unanswered found some contents asked =>
      obtain ⟨u', found', htalk, hcontents⟩ := Sources.find_alike h hw hv hstays found
      obtain ⟨u₁, asked', hafter⟩ := ask_alike hm (htalk.logged _ _) asked
      rw [(Ending.unanswered found' some ((hcontents _ rfl).trans contents) asked').infer_eq]
      exact ⟨rfl, (hafter.logged _ _).finished _⟩
  | answered found some contents asked =>
      obtain ⟨u', found', htalk, hcontents⟩ := Sources.find_alike h hw hv hstays found
      obtain ⟨u₁, asked', hafter⟩ := ask_alike hm (htalk.logged _ _) asked
      rw [(Ending.answered found' some ((hcontents _ rfl).trans contents) asked').infer_eq]
      exact ⟨rfl, (hafter.logged _ _).finished _⟩

end Inference

/-! ## Links that stay -/

/-- A working directory and a temporary one, with a file in the working directory. -/
def FileTree.aroundFile : FileTree :=
  FileTree.around.put [ofText "secret.tf", ofText "work"]
    (.file (Text.utf8 "output \"token\" \x7b\x7d"))

theorem FileTree.around_isDirect : FileTree.IsDirect .around (ofText "/tmp") := by
  decide +kernel

theorem FileTree.aroundFile_isDirect : FileTree.IsDirect .aroundFile (ofText "/tmp") := by
  decide +kernel

theorem World.offering_alike (files : List (Location × Entry)) {t t' : FileTree}
    (h : t.IsDirect (ofText "/tmp")) (h' : t'.IsDirect (ofText "/tmp")) :
    (offering files t []).Alike (offering files t' []) where
  talk := ⟨rfl, rfl⟩
  workingDirectory := rfl
  temporary := rfl
  scratch := rfl
  git := rfl
  way l hl := by
    have hparent : Clone.parent (offering files t []) = ofText "/tmp" := by cbv
    rw [hparent] at hl
    exact (h'.directories l (h.sees hl)).trans (h.directories l (h.sees hl)).symm

theorem World.offering_around_isReady (files : List (Location × Entry)) :
    (offering files .around []).IsReady Clone.offered where
  next := by cbv
  absolute := by cbv

theorem World.offering_aroundFile_isReady (files : List (Location × Entry)) :
    (offering files .aroundFile []).IsReady Clone.offered where
  next := by cbv
  absolute := by cbv

/-- A repository with a file and a link to it. -/
def Git.neighbours : List (Location × Entry) :=
  [([ofText "outputs.tf"], .file (Text.utf8 "output \"id\" \x7b\x7d")),
    ([ofText "main.tf"], .link (ofText "outputs.tf"))]

theorem Git.linkEntries_neighbours :
    (FileTree.around.withDirectory Clone.offered.location (Git.clone Git.neighbours)).linkEntries =
      [(ofText "main.tf" :: Clone.offered.location, .link (ofText "outputs.tf"))] := by
  decide +kernel

/-- Its link does not lead out of the clone. -/
theorem Git.neighbours_stay :
    (FileTree.around.withDirectory Clone.offered.location (Git.clone Git.neighbours)).LinksStay
      Clone.offered.location := by
  have hlink : ∀ loc name target, FileTree.entry?
      (FileTree.around.withDirectory Clone.offered.location (Git.clone Git.neighbours))
        (name :: loc) = some (.link target) →
      (name = ofText "main.tf" ∧ loc = Clone.offered.location) ∧ target = ofText "outputs.tf" := by
    intro loc name target hlink
    have hmem := FileTree.mem_linkEntries hlink
    simpa [Git.linkEntries_neighbours] using hmem
  refine FileTree.linksStay_of_neighbours fun loc name target _ h => ?_
  obtain ⟨⟨rfl, rfl⟩, rfl⟩ := hlink loc name target h
  refine ⟨by decide, by decide, fun target' hneighbour => ?_⟩
  exact absurd (hlink _ _ _ hneighbour).1.1 (by decide)

theorem Git.neighbours_hasProperNames : (Git.clone Git.neighbours).HasProperNames := by
  decide +kernel

/-- Such a repository is contained, whether or not there is a file beside the clone. -/
theorem Inference.infer_contained_neighbours :
    (Chat.Model.service {} "key").Confined ∧
      (World.offering Git.neighbours .around []).Alike (.offering Git.neighbours .aroundFile []) ∧
      (World.offering Git.neighbours .around []).IsReady Clone.offered ∧
      (World.offering Git.neighbours .aroundFile []).IsReady Clone.offered ∧
      (∀ files,
        Sources.Clones {} ⟨"a/b/c", "1.0.0"⟩ (.offering Git.neighbours .around []) Clone.offered files →
        files.HasProperNames ∧ (FileTree.around.withDirectory Clone.offered.location files).LinksStay
          Clone.offered.location) ∧
      (infer (.service {} "key") {} ⟨"a/b/c", "1.0.0"⟩ .registry {}
          (.offering Git.neighbours .around [])).1 =
        (infer (.service {} "key") {} ⟨"a/b/c", "1.0.0"⟩ .registry {}
          (.offering Git.neighbours .aroundFile [])).1 ∧
      (infer (.service {} "key") {} ⟨"a/b/c", "1.0.0"⟩ .registry {}
          (.offering Git.neighbours .around [])).2.SameTalk
        (infer (.service {} "key") {} ⟨"a/b/c", "1.0.0"⟩ .registry {}
          (.offering Git.neighbours .aroundFile [])).2 := by
  have hconfined := Chat.Model.service_confined {} "key"
  have halike := World.offering_alike Git.neighbours FileTree.around_isDirect
    FileTree.aroundFile_isDirect
  have hready := World.offering_around_isReady Git.neighbours
  have hready' := World.offering_aroundFile_isReady Git.neighbours
  have hstays : ∀ files,
      Sources.Clones {} ⟨"a/b/c", "1.0.0"⟩ (.offering Git.neighbours .around []) Clone.offered files →
      files.HasProperNames ∧ (FileTree.around.withDirectory Clone.offered.location files).LinksStay
        Clone.offered.location := by
    intro files hclones
    obtain ⟨-, rfl⟩ := (Sources.clones_offering rfl hready.next).unique hclones
    exact ⟨Git.neighbours_hasProperNames, Git.neighbours_stay⟩
  exact ⟨hconfined, halike, hready, hready', hstays,
    infer_contained hconfined {} ⟨"a/b/c", "1.0.0"⟩ {} halike hready hready' hstays⟩

/-! ## A link that leads out -/

/-- A repository whose file of outputs is a link to a file in the working directory. -/
def Git.leak : List (Location × Entry) :=
  [([ofText "outputs.tf"], .link (ofText "../../work/secret.tf"))]

/-- An answer with one output. -/
def Chat.oneOutput : String :=
  "\x7b\"outputs\": [\x7b\"output_name\": \"token\", \"output_type\": \"string\"\x7d]\x7d"

/-- A model that always gives this answer. -/
def Chat.Model.oneOutput : Model :=
  .ofHistory fun _ => .ok ⟨[Chat.oneOutput]⟩

namespace Inference

theorem ask_oneOutput (formatName : String) (files : List SourceFile) (w : World) :
    (ask .oneOutput formatName files).run w =
      (.ok ⟨⟨[⟨"token", "string"⟩]⟩, false⟩, w.called (callFor formatName files)) := by
  have hresponse : Chat.Completion.response ⟨[Chat.oneOutput]⟩ = .ok ⟨[⟨"token", "string"⟩]⟩ := by
    cbv
  rw [ask_run, request_run, Chat.Model.oneOutput]
  simp only [Chat.Model.ofHistory_answer, Except.bind, hresponse]

/-- With the file that the link leads to, the model is asked about it; without the file
there is nothing to ask about. -/
theorem infer_not_contained :
    (World.offering Git.leak .aroundFile []).Alike (.offering Git.leak .around []) ∧
      (World.offering Git.leak .aroundFile []).IsReady Clone.offered ∧
      (World.offering Git.leak .around []).IsReady Clone.offered ∧
      (Git.clone Git.leak).HasProperNames ∧
      (infer .oneOutput .unfiltered ⟨"a/b/c", "1.0.0"⟩ .registry {}
          (.offering Git.leak .aroundFile [])).1 ≠
        (infer .oneOutput .unfiltered ⟨"a/b/c", "1.0.0"⟩ .registry {}
          (.offering Git.leak .around [])).1 ∧
      (infer .oneOutput .unfiltered ⟨"a/b/c", "1.0.0"⟩ .registry {}
          (.offering Git.leak .aroundFile [])).2.calls ≠
        (infer .oneOutput .unfiltered ⟨"a/b/c", "1.0.0"⟩ .registry {}
          (.offering Git.leak .around [])).2.calls := by
  have hready := World.offering_aroundFile_isReady Git.leak
  have hready' := World.offering_around_isReady Git.leak
  have halike := World.offering_alike Git.leak FileTree.aroundFile_isDirect
    FileTree.around_isDirect
  refine ⟨halike, hready, hready', by decide +kernel, ?_⟩
  -- With the file the walk lists the link; without it the link leads nowhere, and the walk
  -- fails.
  have hwalk : (FileTree.aroundFile.withDirectory Clone.offered.location
      (Git.clone Git.leak)).sourceFiles (Scan.ofConfig Config.unfiltered.scan) [ofText "work"]
        Clone.offered.path = .ok [Clone.offeredOutputs] := by cbv
  have hread : ∀ here, (FileTree.aroundFile.withDirectory Clone.offered.location
      (Git.clone Git.leak)).read here Clone.offeredOutputs =
        .ok (Text.utf8 "output \"token\" \x7b\x7d") := fun here => by cbv
  have hdangling : (FileTree.around.withDirectory Clone.offered.location
      (Git.clone Git.leak)).sourceFiles (Scan.ofConfig Config.unfiltered.scan) [ofText "work"]
        Clone.offered.path = .error (FileTree.unreachable Clone.offeredOutputs .notFound) := by cbv
  obtain ⟨u, hfound, hcalls, htree⟩ := Sources.find_offering rfl hready.next hwalk
  obtain ⟨v, hfailed, hnone, -⟩ := Sources.find_offering rfl hready'.next hdangling
  have hcontents : u.contents [Clone.offeredOutputs] =
      .ok [⟨Clone.offeredOutputs, Text.lossy (Text.utf8 "output \"token\" \x7b\x7d")⟩] := by
    rw [World.contents_cons, htree _ rfl, hread]
    rfl
  have hanswered : Ending .oneOutput .unfiltered ⟨"a/b/c", "1.0.0"⟩ .registry {} _ _ _ :=
    .answered hfound (List.cons_ne_nil _ _) hcontents (ask_oneOutput _ _ _)
  have hunresolved : Ending .oneOutput .unfiltered ⟨"a/b/c", "1.0.0"⟩ .registry {} _ _ _ :=
    .unresolved hfailed
  rw [hanswered.infer_eq, hunresolved.infer_eq]
  constructor
  · intro h
    cases h
  · simp [World.called, hcalls, hnone]

end Inference

end ModuleOutputs
