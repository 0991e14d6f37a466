import ModuleOutputs.Proofs.FileTree.NewDirectory
import ModuleOutputs.Proofs.Run.Basic

/-!
Resolving a module to its source files. A module in a directory is resolved by a walk
alone. A module in a registry is looked up, cloned and walked, and each step can be
the last; `Resolved` lists the seven ways in which that goes, with the world that each
of them leaves.
-/

namespace ModuleOutputs

/-! ## Looking up -/

namespace Registry

/-- The event with which a look-up begins. -/
def fetching (c : RegistryConfig) (m : ModuleRef) : Event :=
  ⟨.info, "Fetching module metadata", [("url", metadataUrl c.baseUrl m)]⟩

def lookup (address : Http.Url) : Http.Sent :=
  .document "GET" address.target none none ""

theorem metadata_run (c : RegistryConfig) (m : ModuleRef) (w : World) :
    (metadata c m).run w =
      match Http.Url.ofText (metadataUrl c.baseUrl m) with
      | .error fault =>
        (.error (unanswered (metadataUrl c.baseUrl m) fault.message), w.logged [fetching c m])
      | .ok address =>
        (metadataIn c m (w.reply 0), (w.logged [fetching c m]).sent [lookup address]) := by
  unfold metadata
  simp only [Attempt.run_bind, Attempt.run_lift, Run.info, Run.log_apply]
  cases Http.Url.ofText (metadataUrl c.baseUrl m) with
  | error fault => rfl
  | ok address =>
      simp only [Attempt.run_bind, Attempt.run_lift, Run.send_apply]
      rfl

end Registry

/-! ## Cloning -/

namespace Clone

def cloning (url : String) (path : Path) : Event :=
  ⟨.info, "Cloning repository to extract source code",
    [("url", url), ("path", Path.display path)]⟩

end Clone

namespace World

/-- The world once a clone is asked for. -/
def asked (w : World) (url : String) : World :=
  { w with clones := w.clones ++ [url] }

/-- The world once git has been given an address and a new directory. -/
def fetched (w : World) (url : String) (d : Clone.Directory) : World :=
  { w with
    clones := w.clones ++ [url]
    events := w.events ++ [Clone.cloning url d.path]
    server := w.server.after (w.git url w.server.replies).requests
    tree := w.tree.withDirectory d.location (w.git url w.server.replies).files }

@[simp] theorem asked_tree (w : World) (url : String) : (w.asked url).tree = w.tree := rfl

@[simp] theorem asked_calls (w : World) (url : String) : (w.asked url).calls = w.calls := rfl

@[simp] theorem asked_server (w : World) (url : String) : (w.asked url).server = w.server := rfl

@[simp] theorem fetched_calls (w : World) (url : String) (d : Clone.Directory) :
    (w.fetched url d).calls = w.calls := rfl

end World

namespace Clone

theorem release_apply (c : Checkout) (w : World) : release c w = ((), w.released c) := by
  unfold release World.released
  cases c.kept <;> rfl

theorem makeDirectory_run (w : World) :
    makeDirectory.run w =
      match nextDirectory w with
      | .error fault => (.error (.file w.temporary fault), w)
      | .ok d => (.ok d, w.withTree (w.tree.put d.location .directory)) := by
  simp only [makeDirectory, Attempt.run_bind, Attempt.run_get]
  cases nextDirectory w <;> rfl

/-- A clone is made in a new directory, if that can be made, and goes if git fails. -/
theorem make_run (keep : Bool) (source : String) (w : World) :
    (make keep source).run w =
      let url := repositoryUrl source
      match nextDirectory w with
      | .error fault => (.error (.file w.temporary fault), w.asked url)
      | .ok d =>
        match (w.git url w.server.replies).fault with
        | some reason => (.error (.clone url reason), (w.fetched url d).discarded d)
        | none => (.ok ⟨d, keep⟩, w.fetched url d) := by
  have hnext : nextDirectory (w.asked (repositoryUrl source)) = nextDirectory w := rfl
  unfold make
  rw [Attempt.run_bind, Attempt.run_modify, ← World.asked]
  simp only [Attempt.run_bind, makeDirectory_run, hnext]
  cases nextDirectory w with
  | error fault => rfl
  | ok d =>
      have hfetch : fetch (repositoryUrl source) d
          (((w.asked (repositoryUrl source)).withTree (w.tree.put d.location .directory)).logged
            [cloning (repositoryUrl source) d.path]) =
          ((w.git (repositoryUrl source) w.server.replies).fault,
            w.fetched (repositoryUrl source) d) := rfl
      rw [cloning] at hfetch
      simp only [Attempt.run_lift, Run.info, Run.log_apply, World.asked_tree, hfetch]
      cases (w.git (repositoryUrl source) w.server.replies).fault <;> rfl

end Clone

/-! ## Resolving -/

namespace Sources

/-- What is reported about a module that the registry describes. -/
def described (m : ModuleRef) (metadata : Metadata) : List Event :=
  match metadata.description with
  | some description =>
    if description != "" then
      [⟨.info, "Module description", [("module", m.display), ("description", description)]⟩]
    else []
  | none => []

/-- The world once the registry has answered about a module. -/
def lookedUp (c : Config) (m : ModuleRef) (address : Http.Url) (w : World) : World :=
  (w.logged [Registry.fetching c.registry m]).sent [Registry.lookup address]

/-- The world in which a clone is made, if the registry names a repository. -/
def beforeClone (c : Config) (m : ModuleRef) (address : Http.Url) (metadata : Metadata)
    (w : World) : World :=
  (lookedUp c m address w).logged (described m metadata)

/-- What git makes of a source, when the registry has had the first reply. -/
def cloning (source : String) (w : World) : Cloning :=
  w.git (Clone.repositoryUrl source) (w.server.replies.drop 1)

/-- The world with a clone of the source that the registry names. -/
def cloned (c : Config) (m : ModuleRef) (address : Http.Url) (metadata : Metadata)
    (source : String) (d : Clone.Directory) (w : World) : World :=
  (beforeClone c m address metadata w).fetched (Clone.repositoryUrl source) d

theorem cloned_tree (c : Config) (m : ModuleRef) (a : Http.Url) (metadata : Metadata)
    (source : String) (d : Clone.Directory) (w : World) :
    (cloned c m a metadata source d w).tree =
      w.tree.withDirectory d.location (cloning source w).files := rfl

/-- Whether the registry, asked at an address, names the source of a module. -/
structure Published (c : Config) (m : ModuleRef) (w : World) (a : Http.Url) (metadata : Metadata)
    (source : String) : Prop where
  address : Http.Url.ofText (Registry.metadataUrl c.registry.baseUrl m) = .ok a
  reply : Registry.metadataIn c.registry m (w.reply 0) = .ok metadata
  repository : repository? metadata = some source

/-- What resolving a module that a registry knows can come to, and the world that is
left. -/
inductive Resolved (c : Config) (m : ModuleRef) (w : World) :
    Except Failure Sources → World → Prop
  /-- The address of the metadata cannot be asked. -/
  | unaddressed {fault : Http.UrlFault}
      (address : Http.Url.ofText (Registry.metadataUrl c.registry.baseUrl m) = .error fault) :
      Resolved c m w
        (.error (Registry.unanswered (Registry.metadataUrl c.registry.baseUrl m) fault.message))
        (w.logged [Registry.fetching c.registry m])
  /-- The registry does not answer with metadata. -/
  | unknown {a : Http.Url} {f : Failure}
      (address : Http.Url.ofText (Registry.metadataUrl c.registry.baseUrl m) = .ok a)
      (reply : Registry.metadataIn c.registry m (w.reply 0) = .error f) :
      Resolved c m w (.error f) (lookedUp c m a w)
  /-- The metadata names no repository. -/
  | unnamed {a : Http.Url} {metadata : Metadata}
      (address : Http.Url.ofText (Registry.metadataUrl c.registry.baseUrl m) = .ok a)
      (reply : Registry.metadataIn c.registry m (w.reply 0) = .ok metadata)
      (repository : repository? metadata = none) :
      Resolved c m w (.error (.noRepository m.source)) (lookedUp c m a w)
  /-- No directory can be made for the clone. -/
  | unmade {a : Http.Url} {metadata : Metadata} {source : String} {fault : FileFault}
      (published : Published c m w a metadata source)
      (directory : Clone.nextDirectory w = .error fault) :
      Resolved c m w (.error (.file w.temporary fault))
        ((beforeClone c m a metadata w).asked (Clone.repositoryUrl source))
  /-- The repository cannot be cloned. -/
  | uncloned {a : Http.Url} {metadata : Metadata} {source : String} {d : Clone.Directory}
      {reason : String} (published : Published c m w a metadata source)
      (directory : Clone.nextDirectory w = .ok d) (git : (cloning source w).fault = some reason) :
      Resolved c m w (.error (.clone (Clone.repositoryUrl source) reason))
        ((cloned c m a metadata source d w).discarded d)
  /-- The clone cannot be walked. -/
  | unlisted {a : Http.Url} {metadata : Metadata} {source : String} {d : Clone.Directory}
      {f : Failure} (published : Published c m w a metadata source)
      (directory : Clone.nextDirectory w = .ok d) (git : (cloning source w).fault = none)
      (walk : (w.tree.withDirectory d.location (cloning source w).files).sourceFiles
        (Scan.ofConfig c.scan) w.here d.path = .error f) :
      Resolved c m w (.error f)
        ((cloned c m a metadata source d w).released ⟨d, c.git.keepClone⟩)
  /-- The files of the clone are listed. -/
  | listed {a : Http.Url} {metadata : Metadata} {source : String} {d : Clone.Directory}
      {files : List Path} (published : Published c m w a metadata source)
      (directory : Clone.nextDirectory w = .ok d) (git : (cloning source w).fault = none)
      (walk : (w.tree.withDirectory d.location (cloning source w).files).sourceFiles
        (Scan.ofConfig c.scan) w.here d.path = .ok files) :
      Resolved c m w (.ok ⟨files, metadata.description, some ⟨d, c.git.keepClone⟩⟩)
        (cloned c m a metadata source d w)

theorem ofCheckout_run (c : Config) (description : Option String) (checkout : Clone.Checkout)
    (w : World) :
    (ofCheckout c description checkout).run w =
      match w.tree.sourceFiles (Scan.ofConfig c.scan) w.here checkout.path with
      | .ok files => (.ok ⟨files, description, some checkout⟩, w)
      | .error f => (.error f, w.released checkout) := by
  rw [ofCheckout, Attempt.run_tryCatch, Attempt.run_map, filesBelow_run]
  cases w.tree.sourceFiles (Scan.ofConfig c.scan) w.here checkout.path with
  | ok files => rfl
  | error f =>
      simp only [Attempt.run_bind, Attempt.run_lift, Clone.release_apply]
      rfl

variable {c : Config} {m : ModuleRef} {w v : World} {a : Http.Url} {metadata : Metadata}
  {source : String}

/-- With a repository that the metadata names, what is left is to clone and to walk. -/
theorem ofRegistry_run_of_published (h : Published c m w a metadata source) :
    (ofRegistry c m).run w =
      (Clone.make c.git.keepClone source >>= ofCheckout c metadata.description).run
        (beforeClone c m a metadata w) := by
  unfold ofRegistry
  rw [Attempt.run_bind, Registry.metadata_run, h.address]
  simp only [h.reply, h.repository, beforeClone, described, lookedUp]
  cases metadata.description with
  | none => simp
  | some description =>
      by_cases h : description = ""
      · simp [h]
      · simp only [bne_iff_ne, ne_eq, h, not_false_eq_true, if_true, Attempt.run_bind,
          Attempt.run_lift, Run.info, Run.log_apply]

/-- A clone that git makes is walked. -/
theorem make_ofCheckout_run {d : Clone.Directory} (directory : Clone.nextDirectory w = .ok d)
    (git : (cloning source w).fault = none) :
    (Clone.make c.git.keepClone source >>= ofCheckout c metadata.description).run
        (beforeClone c m a metadata w) =
      match (w.tree.withDirectory d.location (cloning source w).files).sourceFiles
        (Scan.ofConfig c.scan) w.here d.path with
      | .error f =>
        (.error f, (cloned c m a metadata source d w).released ⟨d, c.git.keepClone⟩)
      | .ok files =>
        (.ok ⟨files, metadata.description, some ⟨d, c.git.keepClone⟩⟩,
          cloned c m a metadata source d w) := by
  have hnext : Clone.nextDirectory (beforeClone c m a metadata w) = .ok d := directory
  have hgit : ((beforeClone c m a metadata w).git (Clone.repositoryUrl source)
    (beforeClone c m a metadata w).server.replies).fault = none := git
  have hhere : (cloned c m a metadata source d w).here = w.here := rfl
  rw [Attempt.run_bind, Clone.make_run]
  simp only [hnext, hgit, ← cloned.eq_1, ofCheckout_run, cloned_tree, hhere]
  split <;> simp_all only

/-- Each of the seven ways determines what resolving comes to. -/
theorem Resolved.run_eq {r : Except Failure Sources} (h : Resolved c m w r v) :
    (ofRegistry c m).run w = (r, v) := by
  cases h with
  | unaddressed haddress =>
      rw [ofRegistry, Attempt.run_bind, Registry.metadata_run, haddress]
  | unknown haddress hreply =>
      rw [ofRegistry, Attempt.run_bind, Registry.metadata_run, haddress]
      simp only [hreply]
      rfl
  | unnamed haddress hreply hrepository =>
      rw [ofRegistry, Attempt.run_bind, Registry.metadata_run, haddress]
      simp only [hreply, hrepository]
      rfl
  | @unmade a metadata source fault published directory =>
      have hnext : Clone.nextDirectory (beforeClone c m a metadata w) = .error fault := directory
      rw [ofRegistry_run_of_published published, Attempt.run_bind, Clone.make_run]
      simp only [hnext]
      rfl
  | @uncloned a metadata source d reason published directory git =>
      have hnext : Clone.nextDirectory (beforeClone c m a metadata w) = .ok d := directory
      have hgit : ((beforeClone c m a metadata w).git (Clone.repositoryUrl source)
        (beforeClone c m a metadata w).server.replies).fault = some reason := git
      rw [ofRegistry_run_of_published published, Attempt.run_bind, Clone.make_run]
      simp only [hnext, hgit]
      rfl
  | unlisted published directory git walk =>
      rw [ofRegistry_run_of_published published, make_ofCheckout_run directory git]
      simp only [walk]
  | listed published directory git walk =>
      rw [ofRegistry_run_of_published published, make_ofCheckout_run directory git]
      simp only [walk]

/-- Whatever the registry, the file system and git come to, resolving comes to one of the
seven. -/
theorem exists_resolved (c : Config) (m : ModuleRef) (w : World) : ∃ r v, Resolved c m w r v := by
  -- The cases follow the steps of resolving; each step may be the last.
  cases haddress : Http.Url.ofText (Registry.metadataUrl c.registry.baseUrl m) with
  | error fault => exact ⟨_, _, .unaddressed haddress⟩
  | ok a =>
      cases hreply : Registry.metadataIn c.registry m (w.reply 0) with
      | error f => exact ⟨_, _, .unknown haddress hreply⟩
      | ok metadata =>
          cases hrepository : repository? metadata with
          | none => exact ⟨_, _, .unnamed haddress hreply hrepository⟩
          | some source =>
              have hpublished : Published c m w a metadata source :=
                ⟨haddress, hreply, hrepository⟩
              cases hnext : Clone.nextDirectory w with
              | error fault => exact ⟨_, _, .unmade hpublished hnext⟩
              | ok d =>
                  cases hgit : (cloning source w).fault with
                  | some reason => exact ⟨_, _, .uncloned hpublished hnext hgit⟩
                  | none =>
                      cases hwalk : (w.tree.withDirectory d.location
                          (cloning source w).files).sourceFiles (Scan.ofConfig c.scan) w.here
                            d.path with
                      | error f => exact ⟨_, _, .unlisted hpublished hnext hgit hwalk⟩
                      | ok files => exact ⟨_, _, .listed hpublished hnext hgit hwalk⟩

theorem resolved_of_run {r : Except Failure Sources} (h : (ofRegistry c m).run w = (r, v)) :
    Resolved c m w r v := by
  obtain ⟨r', v', hresolved⟩ := exists_resolved c m w
  rw [hresolved.run_eq] at h
  cases h
  exact hresolved

theorem Resolved.calls_eq {r : Except Failure Sources} (h : Resolved c m w r v) :
    v.calls = w.calls := by
  cases h <;> simp [cloned, beforeClone, lookedUp]

/-- A module in a directory is resolved by a walk, which changes nothing. -/
theorem ofDirectory_run (c : Config) (m : ModuleRef) (w : World) :
    (ofDirectory c m).run w =
      ((w.tree.sourceFiles (Scan.ofConfig c.scan) w.here
        (Path.join w.workingDirectory (Path.ofText m.source))).map ({ files := · }), w) := by
  simp only [ofDirectory, Attempt.run_bind, Attempt.run_get, filesBelow_run]
  cases w.tree.sourceFiles (Scan.ofConfig c.scan) w.here
    (Path.join w.workingDirectory (Path.ofText m.source)) <;> rfl

/-- Resolving a module asks the model nothing. -/
theorem find_calls (c : Config) (m : ModuleRef) (mode : SourceMode) (w : World) :
    ((find c m mode).run w).2.calls = w.calls := by
  cases mode with
  | directory => rw [find, ofDirectory_run]
  | registry =>
      obtain ⟨r, v, hresolved⟩ := exists_resolved c m w
      rw [find, hresolved.run_eq]
      exact hresolved.calls_eq

end Sources

/-! ## A world that offers a repository -/

namespace Git

/-- A few of the records that git keeps in a clone, on its head and its branch. -/
def records : List (Location × Entry) :=
  let git := Path.ofText ".git"
  [([git], .directory),
    ([Path.ofText "HEAD", git], .file (Text.utf8 "ref: refs/heads/main\n")),
    ([Path.ofText "refs", git], .directory),
    ([Path.ofText "heads", Path.ofText "refs", git], .directory),
    ([Path.ofText "main", Path.ofText "heads", Path.ofText "refs", git],
      .file (Text.utf8 "83baae61804e65cc73a7201a7252750c76066a30\n")),
    ([Path.ofText "logs", git], .directory),
    ([Path.ofText "HEAD", Path.ofText "logs", git],
      .file (Text.utf8 "clone: from https://host/r.git\n"))]

/-- A clone of a repository with these files. -/
def clone (files : List (Location × Entry)) : FileTree :=
  ⟨files ++ records⟩

/-- The requests of a clone. -/
def packs : List Http.Sent :=
  [.pack "GET" "/r.git/info/refs?service=git-upload-pack" none false,
    .pack "POST" "/r.git/git-upload-pack" (some "1") false,
    .pack "POST" "/r.git/git-upload-pack" (some "1") true]

/-- A library that clones a repository with these files, from one address. -/
def hosting (files : List (Location × Entry)) : Git := fun url _ =>
  if url = "https://host/r.git" then { requests := packs, files := clone files }
  else { fault := some "there is no such repository" }

end Git

/-- A file system with a working directory and a temporary one. -/
def FileTree.around : FileTree :=
  ⟨[([Path.ofText "work"], .directory), ([Path.ofText "tmp"], .directory)]⟩

/-- A world in which the registry names that repository. Once it has been cloned, the replies
are the given ones. -/
def World.offering (files : List (Location × Entry)) (tree : FileTree)
    (answers : List Http.Reply) : World where
  tree := tree
  workingDirectory := Path.ofText "/work"
  temporary := Path.ofText "/tmp"
  scratch := .ok ⟨"a1B2c3", by decide⟩
  git := .hosting files
  server :=
    { replies := [.document 200 (Text.utf8 "\x7b\"source\": \"https://host/r\"\x7d"),
        .repository "r", .repository "r", .repository "r"] ++ answers }

/-- The directory of a clone in such a world. -/
def Clone.offered : Clone.Directory :=
  ⟨Path.ofText "/tmp/terraform-modulea1B2c3",
    [Path.ofText "terraform-modulea1B2c3", Path.ofText "tmp"]⟩

/-- The path of a file of outputs in it. -/
def Clone.offeredOutputs : Path :=
  Path.ofText "/tmp/terraform-modulea1B2c3/outputs.tf"

/-- A configuration in which no name is passed over. -/
def Config.unfiltered : Config :=
  { scan := { excludePatterns := [] } }

namespace Sources

theorem published_offering (hc : c.registry = {}) (files : List (Location × Entry))
    (tree : FileTree) (answers : List Http.Reply) :
    ∃ a, Published c ⟨"a/b/c", "1.0.0"⟩ (.offering files tree answers) a ⟨some "https://host/r", none⟩
      "https://host/r" := by
  obtain ⟨a, haddress⟩ : ∃ a, Http.Url.ofText
      (Registry.metadataUrl ({} : RegistryConfig).baseUrl ⟨"a/b/c", "1.0.0"⟩) = .ok a := ⟨_, rfl⟩
  refine ⟨a, ?_, ?_, ?_⟩
  · rw [hc, haddress]
  · rw [hc]
    rfl
  · decide +kernel

theorem cloning_offering (files : List (Location × Entry)) (tree : FileTree)
    (answers : List Http.Reply) : cloning "https://host/r" (.offering files tree answers) =
      { requests := Git.packs, files := Git.clone files } := by
  have hurl : Clone.repositoryUrl "https://host/r" = "https://host/r.git" := by decide +kernel
  rw [cloning, hurl]
  rfl

/-- Resolving a module in such a world comes to what the walk of the clone comes to. -/
theorem find_offering (hc : c.registry = {}) {files : List (Location × Entry)} {tree : FileTree}
    {answers : List Http.Reply} {d : Clone.Directory} {found : Except Failure (List Path)}
    (hnext : Clone.nextDirectory (.offering files tree answers) = .ok d)
    (hwalk : (tree.withDirectory d.location (Git.clone files)).sourceFiles (Scan.ofConfig c.scan)
      [Path.ofText "work"] d.path = found) :
    ∃ u, (find c ⟨"a/b/c", "1.0.0"⟩ .registry).run (.offering files tree answers) =
        (found.map (⟨·, none, some ⟨d, c.git.keepClone⟩⟩), u) ∧
      u.calls = [] ∧ ∀ paths, found = .ok paths →
        u.tree = tree.withDirectory d.location (Git.clone files) := by
  obtain ⟨a, hpublished⟩ := published_offering hc files tree answers
  have hcloning := cloning_offering files tree answers
  have hgit : (cloning "https://host/r" (.offering files tree answers)).fault = none := by
    rw [hcloning]
  have htree : (cloned c ⟨"a/b/c", "1.0.0"⟩ a ⟨some "https://host/r", none⟩ "https://host/r" d
      (.offering files tree answers)).tree = tree.withDirectory d.location (Git.clone files) := by
    rw [cloned_tree, hcloning]
    rfl
  rw [find]
  cases found with
  | error f =>
      have hresolved := Resolved.unlisted hpublished hnext hgit (by rw [hcloning]; exact hwalk)
      exact ⟨_, hresolved.run_eq, hresolved.calls_eq, nofun⟩
  | ok paths =>
      have hresolved := Resolved.listed hpublished hnext hgit (by rw [hcloning]; exact hwalk)
      exact ⟨_, hresolved.run_eq, hresolved.calls_eq, fun _ _ => htree⟩

end Sources

end ModuleOutputs
