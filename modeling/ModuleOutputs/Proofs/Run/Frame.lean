import Mathlib
import ModuleOutputs.Proofs.Run.Ending

/-!
What a run leaves behind. To infer a document a run makes one directory at most, for its
clone, and takes it away again unless it is to be kept. So in the end the files are as they
were, or they are that with the clone in its directory; `Leaves` has both ways.
-/

namespace ModuleOutputs

namespace World

theorem released_here (w : World) (k : Clone.Checkout) : (w.released k).here = w.here := by
  unfold released
  split <;> rfl

theorem finished_here (w : World) (s : Sources) : (w.finished s).here = w.here := by
  unfold finished
  split
  · exact released_here w _
  · rfl

end World

/-! ## The directory of a clone -/

namespace Clone

/-- Whether a character is encoded by its code alone, and can stand in a name. -/
def IsPlain (c : Char) : Prop :=
  0 < c.toNat ∧ c.toNat ≠ 47 ∧ c.toNat < 128

instance : DecidablePred IsPlain :=
  fun c => inferInstanceAs (Decidable (0 < c.toNat ∧ c.toNat ≠ 47 ∧ c.toNat < 128))

theorem isPlain_of_isAlphanum {c : Char} (h : c.isAlphanum = true) : IsPlain c := by
  have hcode : c.val.toNat = c.toNat := rfl
  simp only [Char.isAlphanum, Char.isAlpha, Char.isUpper, Char.isLower, Char.isDigit,
    UInt32.le_iff_toNat_le, Bool.or_eq_true, Bool.and_eq_true, decide_eq_true_eq, ge_iff_le,
    hcode, Char.reduceVal, UInt32.reduceToNat] at h
  unfold IsPlain
  omega

theorem IsPlain.utf8EncodeChar_eq {c : Char} (h : IsPlain c) :
    String.utf8EncodeChar c = [UInt8.ofNat c.toNat] := by
  have hcode : c.val.toNat ≤ 0x7f := Nat.le_of_lt_succ h.2.2
  unfold String.utf8EncodeChar
  dsimp only
  rw [if_pos hcode]
  rfl

theorem isPlain_of_mem {e : NameEnding} {c : Char} (h : c ∈ (nameStart ++ e.val).toList) :
    IsPlain c := by
  have hstart : nameStart.toList.all (fun c => decide (IsPlain c)) = true := by decide
  rw [String.toList_append, List.mem_append] at h
  rcases h with h | h
  · exact of_decide_eq_true (List.all_eq_true.mp hstart c h)
  · exact isPlain_of_isAlphanum (List.all_eq_true.mp e.property.2 c h)

theorem directoryName_eq_map (e : NameEnding) :
    directoryName e = (nameStart ++ e.val).toList.map fun c => UInt8.ofNat c.toNat := by
  unfold directoryName Path.ofText Text.utf8 Text.encode
  rw [List.map_eq_flatMap]
  exact List.flatMap_congr fun c hc => (isPlain_of_mem hc).utf8EncodeChar_eq

theorem length_directoryName (e : NameEnding) : (directoryName e).length = 22 := by
  have hending := e.property.1
  rw [directoryName_eq_map, List.length_map, String.length_toList, String.length_append, hending]
  decide

/-- A byte of the name of a clone is neither a slash nor zero. -/
theorem ne_of_mem_directoryName {e : NameEnding} {b : UInt8} (h : b ∈ directoryName e) :
    b ≠ 0 ∧ b ≠ Path.slash := by
  rw [directoryName_eq_map] at h
  obtain ⟨c, hc, rfl⟩ := List.mem_map.mp h
  obtain ⟨hpositive, hslash, hascii⟩ := isPlain_of_mem hc
  have hcode : (UInt8.ofNat c.toNat).toNat = c.toNat := by
    rw [UInt8.toNat_ofNat']
    omega
  constructor
  · intro hzero
    rw [hzero] at hcode
    exact absurd hcode (Nat.ne_of_lt hpositive)
  · intro hbyte
    rw [hbyte] at hcode
    exact hslash hcode.symm

theorem directoryName_isProper (e : NameEnding) : (directoryName e).IsProper := by
  have hlength := length_directoryName e
  refine ⟨?_, fun hslash => (ne_of_mem_directoryName hslash).2 rfl, ?_, ?_, ?_⟩
  · intro h
    simp [h] at hlength
  · intro h
    rw [h] at hlength
    cases hlength
  · intro h
    rw [h] at hlength
    cases hlength
  · rw [hlength]
    decide

variable {w : World} {d : Directory}

theorem nextDirectory_eq_ok_iff : nextDirectory w = .ok d ↔ ∃ e loc,
    w.scratch = .ok e ∧
    w.tree.newLocation w.here (parent w) (directoryName e) = .ok loc ∧
    d = ⟨Path.join (parent w) (directoryName e), loc⟩ := by
  unfold nextDirectory
  cases w.scratch with
  | error fault =>
      constructor
      · intro h
        cases h
      · rintro ⟨_, _, hscratch, -⟩
        cases hscratch
  | ok e =>
      cases hnew : w.tree.newLocation w.here (parent w) (directoryName e) with
      | error fault => simp [bind, Except.bind, hnew]
      | ok loc =>
          simp only [bind, Except.bind, pure, Except.pure, hnew]
          constructor
          · intro h
            cases h
            exact ⟨e, loc, rfl, hnew, rfl⟩
          · rintro ⟨e', loc', hscratch, hnew', rfl⟩
            cases hscratch
            rw [hnew] at hnew'
            cases hnew'
            rfl

/-- The directory of a clone is made where nothing is. -/
theorem isClear_of_nextDirectory (h : nextDirectory w = .ok d) :
    w.tree.isClear d.location = true := by
  obtain ⟨e, loc, -, hnew, rfl⟩ := nextDirectory_eq_ok_iff.mp h
  obtain ⟨-, parent, -, rfl, hclear⟩ := FileTree.newLocation_eq_ok_iff.mp hnew
  exact hclear

end Clone

/-! ## The clone of a run -/

namespace Sources

variable {c : Config} {m : ModuleRef} {mode : SourceMode} {w v u : World} {a a' : Http.Url}
  {metadata metadata' : Metadata} {source source' : String} {d d' : Clone.Directory}
  {files files' : FileTree}

theorem Published.unique (h : Published c m w a metadata source)
    (h' : Published c m w a' metadata' source') : source' = source := by
  have hmetadata := h'.reply
  rw [h.reply] at hmetadata
  cases hmetadata
  exact Option.some.inj (h'.repository.symm.trans h.repository)

/-- Whether resolving a module clones a repository, with these files, into a directory. -/
def Clones (c : Config) (m : ModuleRef) (w : World) (d : Clone.Directory) (files : FileTree) :
    Prop :=
  ∃ a metadata source, Published c m w a metadata source ∧ Clone.nextDirectory w = .ok d ∧
    (cloning source w).fault = none ∧ (cloning source w).files = files

theorem Clones.nextDirectory_eq (h : Clones c m w d files) : Clone.nextDirectory w = .ok d := by
  obtain ⟨_, _, _, -, hnext, -⟩ := h
  exact hnext

theorem Clones.unique (h : Clones c m w d files) (h' : Clones c m w d' files') :
    d' = d ∧ files' = files := by
  obtain ⟨a, metadata, source, hpublished, hnext, -, rfl⟩ := h
  obtain ⟨a', metadata', source', hpublished', hnext', -, rfl⟩ := h'
  obtain rfl := hpublished.unique hpublished'
  rw [hnext] at hnext'
  cases hnext'
  exact ⟨rfl, rfl⟩

theorem clones_offering (hc : c.registry = {}) {files : List (Location × Entry)} {tree : FileTree}
    {answers : List Http.Reply} (hnext : Clone.nextDirectory (.offering files tree answers) = .ok d) :
    Clones c ⟨"a/b/c", "1.0.0"⟩ (.offering files tree answers) d (Git.clone files) := by
  obtain ⟨a, hpublished⟩ := published_offering hc files tree answers
  have hcloning := cloning_offering files tree answers
  exact ⟨a, _, _, hpublished, hnext, by rw [hcloning], by rw [hcloning]⟩

/-- Whether a run clones a repository and keeps the clone. -/
structure Keeps (c : Config) (m : ModuleRef) (mode : SourceMode) (w : World) (d : Clone.Directory)
    (files : FileTree) : Prop where
  mode : mode = .registry
  keep : c.git.keepClone = true
  cloned : Clones c m w d files

/-- Sources in a directory are not cloned. -/
theorem not_keeps_directory : ¬ Keeps c m .directory w d files := by
  intro h
  cases h.mode

/-- What was logged makes no difference to the clone of a run. -/
theorem keeps_logged_iff {es : List Event} :
    Keeps c m mode (w.logged es) d files ↔ Keeps c m mode w d files := by
  constructor
  · rintro ⟨hmode, hkeep, a, metadata, source, hpublished, hclone⟩
    exact ⟨hmode, hkeep, a, metadata, source,
      ⟨hpublished.address, hpublished.reply, hpublished.repository⟩, hclone⟩
  · rintro ⟨hmode, hkeep, a, metadata, source, hpublished, hclone⟩
    exact ⟨hmode, hkeep, a, metadata, source,
      ⟨hpublished.address, hpublished.reply, hpublished.repository⟩, hclone⟩

/-- How the files can be left by a run. -/
inductive Leaves (c : Config) (m : ModuleRef) (mode : SourceMode) (w : World) : FileTree → Prop
  /-- No clone is kept, and the files are as they were. -/
  | same (unkept : ∀ d files, ¬ Keeps c m mode w d files) : Leaves c m mode w w.tree
  /-- A clone is kept, and else the files are as they were. -/
  | kept {d : Clone.Directory} {files : FileTree} (keeps : Keeps c m mode w d files) :
      Leaves c m mode w (w.tree.withDirectory d.location files)

theorem Leaves.eq_of_keeps {t : FileTree} (h : Leaves c m mode w t)
    (hkeeps : Keeps c m mode w d files) : t = w.tree.withDirectory d.location files := by
  cases h with
  | same unkept => exact absurd hkeeps (unkept d files)
  | kept keeps =>
      obtain ⟨rfl, rfl⟩ := hkeeps.cloned.unique keeps.cloned
      rfl

theorem Leaves.eq_of_unkept {t : FileTree} (h : Leaves c m mode w t)
    (hunkept : ∀ d files, ¬ Keeps c m mode w d files) : t = w.tree := by
  cases h with
  | same => rfl
  | kept keeps => exact absurd keeps (hunkept _ _)

theorem Leaves.eq_or_keeps {t : FileTree} (h : Leaves c m mode w t) : t = w.tree ∨
    ∃ d files, Keeps c m mode w d files ∧ t = w.tree.withDirectory d.location files := by
  cases h with
  | same => exact .inl rfl
  | kept keeps => exact .inr ⟨_, _, keeps, rfl⟩

theorem Leaves.of_logged {es : List Event} {t : FileTree} (h : Leaves c m mode (w.logged es) t) :
    Leaves c m mode w t := by
  cases h with
  | same unkept => exact .same fun d files hkeeps => unkept d files (keeps_logged_iff.mpr hkeeps)
  | kept keeps => exact .kept (keeps_logged_iff.mp keeps)

theorem leaves_same_of_uncloned (h : ∀ d files, ¬ Clones c m w d files) :
    Leaves c m mode w w.tree :=
  .same fun d files hkeeps => h d files hkeeps.cloned

/-- A clone that is released is kept if clones are, and else it goes without a trace. -/
theorem leaves_released (hclones : Clones c m w d files)
    (hu : u.tree = w.tree.withDirectory d.location files) :
    Leaves c m .registry w (u.released ⟨d, c.git.keepClone⟩).tree := by
  have hclear := Clone.isClear_of_nextDirectory hclones.nextDirectory_eq
  unfold World.released
  cases hkeep : c.git.keepClone with
  | true =>
      rw [if_pos rfl, hu]
      exact .kept ⟨rfl, hkeep, hclones⟩
  | false =>
      have hgone : (u.discarded d).tree = w.tree := by
        rw [World.discarded, hu]
        exact FileTree.prune_withDirectory hclear files
      rw [if_neg (by simp)]
      simp only [hgone]
      exact .same fun d files hkeeps => by simp [hkeeps.keep] at hkeep

/-- The clone of a module that is resolved, with the files that are found in it. -/
theorem Resolved.exists_clone {s : Sources} (h : Resolved c m w (.ok s) v) : ∃ d files,
    Clones c m w d files ∧ v.tree = w.tree.withDirectory d.location files ∧
      s.checkout = some ⟨d, c.git.keepClone⟩ ∧
      (w.tree.withDirectory d.location files).sourceFiles (Scan.ofConfig c.scan) w.here d.path =
        .ok s.files := by
  cases h with
  | listed published directory git walk =>
      exact ⟨_, _, ⟨_, _, _, published, directory, git, rfl⟩, rfl, rfl, walk⟩

/-- A module that is not resolved leaves no clone, unless it was cloned and clones are
kept. -/
theorem Resolved.leaves_of_error {f : Failure} (h : Resolved c m w (.error f) v) :
    Leaves c m .registry w v.tree := by
  cases h with
  | unaddressed address =>
      refine leaves_same_of_uncloned ?_
      rintro d files ⟨_, _, _, published, -⟩
      have haddress := published.address
      rw [address] at haddress
      cases haddress
  | unknown address reply =>
      refine leaves_same_of_uncloned ?_
      rintro d files ⟨_, _, _, published, -⟩
      have hreply := published.reply
      rw [reply] at hreply
      cases hreply
  | unnamed address reply repository =>
      refine leaves_same_of_uncloned ?_
      rintro d files ⟨_, _, _, published, -⟩
      have hreply := published.reply
      rw [reply] at hreply
      cases hreply
      have hrepository := published.repository
      rw [repository] at hrepository
      cases hrepository
  | unmade published directory =>
      refine leaves_same_of_uncloned ?_
      rintro d files ⟨_, _, _, -, hnext, -⟩
      rw [directory] at hnext
      cases hnext
  | @uncloned a metadata source d reason published directory git =>
      -- Git may have left files; they go with the directory.
      have htree : ((cloned c m a metadata source d w).discarded d).tree = w.tree :=
        FileTree.prune_withDirectory (Clone.isClear_of_nextDirectory directory) _
      rw [htree]
      refine leaves_same_of_uncloned ?_
      rintro d files ⟨_, _, _, published', -, hgit, -⟩
      rw [published.unique published', git] at hgit
      cases hgit
  | unlisted published directory git _ =>
      exact leaves_released ⟨_, _, _, published, directory, git, rfl⟩ rfl

theorem Resolved.leaves_finished {s : Sources} (h : Resolved c m w (.ok s) v)
    (hu : u.tree = v.tree) : Leaves c m .registry w (u.finished s).tree := by
  obtain ⟨d, files, hclones, htree, hcheckout, -⟩ := h.exists_clone
  unfold World.finished
  rw [hcheckout]
  exact leaves_released hclones (hu.trans htree)

theorem Resolved.here_eq {r : Except Failure Sources} (h : Resolved c m w r v) :
    v.here = w.here := by
  cases h with
  | unlisted => exact World.released_here _ _
  | _ => rfl

/-- Sources in a directory lie in no clone. -/
theorem ofDirectory_checkout (c : Config) (m : ModuleRef) {s : Sources}
    (h : (ofDirectory c m).run w = (.ok s, v)) : s.checkout = none := by
  rw [ofDirectory_run] at h
  cases hfiles : w.tree.sourceFiles (Scan.ofConfig c.scan) w.here
      (Path.join w.workingDirectory (Path.ofText m.source)) with
  | error f =>
      rw [hfiles] at h
      cases h
  | ok files =>
      rw [hfiles] at h
      cases h
      rfl

theorem leaves_same_of_directory : Leaves c m .directory w w.tree :=
  .same fun _ _ => not_keeps_directory

theorem find_leaves_of_error {f : Failure} (h : (find c m mode).run w = (.error f, v)) :
    Leaves c m mode w v.tree := by
  cases mode with
  | directory =>
      rw [find, ofDirectory_run] at h
      obtain rfl := congrArg Prod.snd h
      exact leaves_same_of_directory
  | registry =>
      rw [find] at h
      exact (resolved_of_run h).leaves_of_error

theorem find_leaves_finished {s : Sources} (h : (find c m mode).run w = (.ok s, v))
    (hu : u.tree = v.tree) : Leaves c m mode w (u.finished s).tree := by
  cases mode with
  | directory =>
      unfold World.finished
      rw [ofDirectory_checkout c m h, hu]
      rw [find, ofDirectory_run] at h
      obtain rfl := congrArg Prod.snd h
      exact leaves_same_of_directory
  | registry =>
      rw [find] at h
      exact (resolved_of_run h).leaves_finished hu

theorem find_here {r : Except Failure Sources} (h : (find c m mode).run w = (r, v)) :
    v.here = w.here := by
  cases mode with
  | directory =>
      rw [find, ofDirectory_run] at h
      obtain rfl := congrArg Prod.snd h
      rfl
  | registry =>
      rw [find] at h
      exact (resolved_of_run h).here_eq

end Sources

/-! ## Whole runs -/

namespace Inference

open Chat (Model)

variable {model : Model}

/-- To infer a document changes no file, unless a clone is kept. -/
theorem infer_leaves (hm : model.Confined) (c : Config) (m : ModuleRef) (mode : SourceMode)
    (options : RunOptions) (w : World) :
    Sources.Leaves c m mode w (infer model c m mode options w).2.tree := by
  obtain ⟨d, v, hend⟩ := exists_ending model c m mode options w
  rw [hend.infer_eq]
  cases hend with
  | unresolved found =>
      have hleaves := Sources.find_leaves_of_error found
      exact hleaves
  | nothing found _ | unreadable found _ _ => exact Sources.find_leaves_finished found rfl
  | unanswered found _ _ asked | answered found _ _ asked =>
      exact Sources.find_leaves_finished found (ask_sameFiles hm asked).tree_eq

theorem infer_here (hm : model.Confined) (c : Config) (m : ModuleRef) (mode : SourceMode)
    (options : RunOptions) (w : World) : (infer model c m mode options w).2.here = w.here := by
  obtain ⟨d, v, hend⟩ := exists_ending model c m mode options w
  rw [hend.infer_eq]
  cases hend with
  | unresolved found =>
      rw [← Sources.find_here found]
      rfl
  | nothing found _ | unreadable found _ _ =>
      rw [← Sources.find_here found]
      exact World.finished_here _ _
  | unanswered found _ _ asked | answered found _ _ asked =>
      rw [← Sources.find_here found]
      exact (World.finished_here _ _).trans (ask_sameFiles hm asked).here_eq

end Inference

end ModuleOutputs
