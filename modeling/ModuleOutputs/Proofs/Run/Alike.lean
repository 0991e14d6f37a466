import ModuleOutputs.Proofs.FileTree.Staying
import ModuleOutputs.Proofs.Run.Frame

/-!
Runs in two worlds that differ in their files. A clone is made in a new directory, so its
files are the same in both; and if none of its links leads out of it, the walk of it and the
reading of what is found there come to the same.
-/

namespace ModuleOutputs

open FileTree (LinksStay Sees)

namespace World

variable {w v : World} {d : Clone.Directory} {files : FileTree}

/-- Whether the next clone can be made in a directory, which has an absolute path. -/
structure IsReady (w : World) (d : Clone.Directory) : Prop where
  next : Clone.nextDirectory w = .ok d
  absolute : Path.isAbsolute (Clone.parent w) = true

/-- Whether two worlds agree on all but their files: what was said and will be replied,
where clones are made, and what git makes of an address. Of the files they agree on those
to which one comes on the way to the directory in which clones are made. -/
structure Alike (w v : World) : Prop where
  talk : w.SameTalk v
  workingDirectory : w.workingDirectory = v.workingDirectory
  temporary : w.temporary = v.temporary
  scratch : w.scratch = v.scratch
  git : w.git = v.git
  way : ∀ l, Sees w.tree (.ofPath w.here (Clone.parent w)) l → v.tree.entry? l = w.tree.entry? l

theorem Alike.here_eq (h : w.Alike v) : v.here = w.here := by
  rw [here, here, h.workingDirectory]

theorem Alike.parent_eq (h : w.Alike v) : Clone.parent v = Clone.parent w := by
  rw [Clone.parent, Clone.parent, h.workingDirectory, h.temporary]

/-- The directory of a clone that can be made is a new one of its name. -/
theorem IsReady.newLocation_eq (h : w.IsReady d) : ∃ e, w.scratch = .ok e ∧
    w.tree.newLocation w.here (Clone.parent w) (Clone.directoryName e) = .ok d.location ∧
    d.path = Path.join (Clone.parent w) (Clone.directoryName e) := by
  obtain ⟨e, loc, hscratch, hnew, rfl⟩ := Clone.nextDirectory_eq_ok_iff.mp h.next
  exact ⟨e, hscratch, hnew, rfl⟩

theorem contents_congr {paths : List Path}
    (h : ∀ p ∈ paths, v.tree.read v.here p = w.tree.read w.here p) :
    v.contents paths = w.contents paths := by
  unfold contents
  exact FileTree.mapM_congr fun p hp => by rw [h p hp]

end World

/-! ## Resolving -/

namespace Sources

variable {c : Config} {m : ModuleRef} {w v u : World} {a : Http.Url} {metadata : Metadata}
  {source : String} {d : Clone.Directory} {files : FileTree}

theorem cloning_eq (h : w.Alike v) (source : String) : cloning source v = cloning source w := by
  unfold cloning
  rw [h.git, h.talk.2]

theorem Published.alike (h : w.Alike v) (hpublished : Published c m w a metadata source) :
    Published c m v a metadata source where
  address := hpublished.address
  reply := by
    rw [← h.talk.reply_eq 0]
    exact hpublished.reply
  repository := hpublished.repository

theorem beforeClone_sameTalk (h : w.SameTalk v) (c : Config) (m : ModuleRef) (a : Http.Url)
    (metadata : Metadata) : (beforeClone c m a metadata w).SameTalk (beforeClone c m a metadata v) :=
  (h.logged [Registry.fetching c.registry m] [Registry.fetching c.registry m]).sent
    [Registry.lookup a]

theorem cloned_sameTalk (h : w.Alike v) (c : Config) (m : ModuleRef) (a : Http.Url)
    (metadata : Metadata) (source : String) (d : Clone.Directory) :
    (cloned c m a metadata source d w).SameTalk (cloned c m a metadata source d v) := by
  have hsent := (beforeClone_sameTalk h.talk c m a metadata).sent (cloning source w).requests
  have hv : (cloned c m a metadata source d v).server =
      ((beforeClone c m a metadata v).sent (cloning source w).requests).server := by
    rw [← cloning_eq h]
    rfl
  exact ⟨hsent.1, hsent.2.trans hv.symm⟩

/-- If no link leads out of a clone, the same files are found in it in alike worlds, with
the same contents. -/
theorem walk_alike (h : w.Alike v) (hw : w.IsReady d) (hv : v.IsReady d)
    (hfiles : files.HasProperNames)
    (hstay : (w.tree.withDirectory d.location files).LinksStay d.location) (scan : Scan) :
    (v.tree.withDirectory d.location files).sourceFiles scan v.here d.path =
        (w.tree.withDirectory d.location files).sourceFiles scan w.here d.path ∧
      ∀ paths, (w.tree.withDirectory d.location files).sourceFiles scan w.here d.path = .ok paths →
        ∀ p ∈ paths, (v.tree.withDirectory d.location files).read v.here p =
          (w.tree.withDirectory d.location files).read w.here p := by
  obtain ⟨e, hscratch, hnew, hpath⟩ := hw.newLocation_eq
  obtain ⟨e', hscratch', hnew', -⟩ := hv.newLocation_eq
  rw [← h.scratch, hscratch] at hscratch'
  cases hscratch'
  rw [h.here_eq, h.parent_eq] at hnew'
  rw [h.here_eq, hpath]
  have hname := Clone.directoryName_isProper e
  have hopen := FileTree.find_withDirectory hnew hname
    (fun hzero => (Clone.ne_of_mem_directoryName hzero).1 rfl) files
  obtain ⟨-, _, -, hlocation, hclear⟩ := FileTree.newLocation_eq_ok_iff.mp hnew
  have hsome : d.location ≠ [] := by simp [hlocation]
  have hnamed := FileTree.named_withDirectory (hlocation ▸ hclear) hsome hstay hfiles
  have hagree := fun l => FileTree.withDirectory_agree (l := l) hstay hw.absolute hname hnew hnew' h.way
  exact ⟨FileTree.sourceFiles_congr hopen hnamed hagree, fun _ hpaths p hp =>
    FileTree.read_sourceFiles hopen hnamed hagree hpaths hp⟩

variable (h : w.Alike v) (hw : w.IsReady d) (hv : v.IsReady d)
  (hstays : ∀ files, Clones c m w d files → files.HasProperNames ∧
    (w.tree.withDirectory d.location files).LinksStay d.location)
include h hw hv hstays

/-- In alike worlds a module is resolved alike, and its files have the same contents, if
no link of the repository that is cloned leads out of the clone. -/
theorem Resolved.alike {found : Except Failure Sources} (hfound : Resolved c m w found u) :
    ∃ u', Resolved c m v found u' ∧ u.SameTalk u' ∧
      ∀ s, found = .ok s → u'.contents s.files = u.contents s.files := by
  have hreply : w.reply 0 = v.reply 0 := h.talk.reply_eq 0
  -- The replies are the same, and git does the same with them, so the same of the seven ways
  -- is taken; the last two alone depend on files.
  cases hfound with
  | unaddressed address => exact ⟨_, .unaddressed address, h.talk, nofun⟩
  | unknown address reply =>
      exact ⟨_, .unknown address (hreply ▸ reply), beforeClone_sameTalk h.talk c m _ {}, nofun⟩
  | unnamed address reply repository =>
      exact ⟨_, .unnamed address (hreply ▸ reply) repository,
        beforeClone_sameTalk h.talk c m _ {}, nofun⟩
  | unmade published directory =>
      have hnext := hw.next
      rw [directory] at hnext
      cases hnext
  | @uncloned a metadata source d' reason published directory git =>
      obtain rfl : d' = d := Except.ok.inj (directory.symm.trans hw.next)
      refine ⟨_, .uncloned (published.alike h) hv.next ?_,
        (cloned_sameTalk h c m a metadata source d').discarded _ _, nofun⟩
      rw [cloning_eq h, git]
  | @unlisted a metadata source d' f published directory git walk =>
      obtain rfl : d' = d := Except.ok.inj (directory.symm.trans hw.next)
      obtain ⟨hproper, hstay⟩ := hstays _ ⟨a, metadata, source, published, directory, git, rfl⟩
      obtain ⟨hsame, -⟩ := walk_alike h hw hv hproper hstay (Scan.ofConfig c.scan)
      refine ⟨_, .unlisted (published.alike h) hv.next ?_ ?_,
        (cloned_sameTalk h c m a metadata source d').released _ _, nofun⟩
      · rw [cloning_eq h, git]
      · rw [cloning_eq h, hsame, walk]
  | @listed a metadata source d' paths published directory git walk =>
      obtain rfl : d' = d := Except.ok.inj (directory.symm.trans hw.next)
      obtain ⟨hproper, hstay⟩ := hstays _ ⟨a, metadata, source, published, directory, git, rfl⟩
      obtain ⟨hsame, hread⟩ := walk_alike h hw hv hproper hstay (Scan.ofConfig c.scan)
      refine ⟨_, .listed (published.alike h) hv.next ?_ ?_,
        cloned_sameTalk h c m a metadata source d', fun s hs => ?_⟩
      · rw [cloning_eq h, git]
      · rw [cloning_eq h, hsame, walk]
      · cases hs
        refine World.contents_congr fun p hp => ?_
        rw [cloned_tree, cloned_tree, cloning_eq h]
        exact hread paths walk p hp

theorem find_alike {found : Except Failure Sources}
    (hfound : (find c m .registry).run w = (found, u)) :
    ∃ u', (find c m .registry).run v = (found, u') ∧ u.SameTalk u' ∧
      ∀ s, found = .ok s → u'.contents s.files = u.contents s.files := by
  rw [find] at hfound ⊢
  obtain ⟨u', hresolved, htalk, hcontents⟩ :=
    Resolved.alike h hw hv hstays (resolved_of_run hfound)
  exact ⟨u', hresolved.run_eq, htalk, hcontents⟩

end Sources

end ModuleOutputs
