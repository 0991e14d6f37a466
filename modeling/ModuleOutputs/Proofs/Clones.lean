import ModuleOutputs.Proofs.Containment
import ModuleOutputs.Proofs.Run.Watching
import ModuleOutputs.Proofs.Walk.Basic

/-!
The directories of clones. A run makes one at most, in the temporary directory, and takes
it away when it is over or when its clone fails, unless clones are kept. It does not take
it away before: while source files are read it is still there, as git has left it.
-/

namespace ModuleOutputs

/-! ## Clones in a directory -/

namespace Clone

/-- Whether a name is that of the directory of a clone. -/
def IsDirectoryName (n : Name) : Prop :=
  Text.utf8 "terraform-module" <+: n

instance : DecidablePred IsDirectoryName :=
  fun n => inferInstanceAs (Decidable (Text.utf8 "terraform-module" <+: n))

theorem isDirectoryName_directoryName (e : NameEnding) : IsDirectoryName (directoryName e) := by
  unfold IsDirectoryName directoryName Path.ofText Text.utf8 Text.encode
  rw [String.toList_append, List.flatMap_append]
  exact List.prefix_append _ _

end Clone

namespace FileTree

/-- The clones in a directory, by name. -/
def clones (t : FileTree) (directory : Location) : List Name :=
  (t.listed directory).filter fun n => decide (Clone.IsDirectoryName n)

variable {t : FileTree} {directory : Location} {n name : Name}

theorem mem_clones : n ∈ t.clones directory ↔
    (t.entry? (n :: directory)).isSome = true ∧ Clone.IsDirectoryName n := by
  simp [clones, mem_listed]

theorem nodup_clones (t : FileTree) (directory : Location) : (t.clones directory).Nodup :=
  (nodup_listed t _).filter _

/-- A new directory with the name of a clone is one more clone. -/
theorem clones_withDirectory (hclear : t.isClear (name :: directory) = true)
    (hname : Clone.IsDirectoryName name) (files : FileTree) :
    ((t.withDirectory (name :: directory) files).clones directory).Perm
      (name :: t.clones directory) := by
  have hnew : name ∉ t.clones directory := by
    rw [mem_clones, entry?_of_isClear hclear (List.cons_ne_nil _ _) List.suffix_rfl]
    simp
  rw [List.perm_ext_iff_of_nodup (nodup_clones _ _)
    (List.nodup_cons.mpr ⟨hnew, nodup_clones _ _⟩)]
  intro n
  rw [List.mem_cons, mem_clones, mem_clones]
  by_cases hn : n = name
  · subst hn
    simp [entry?_withDirectory_self t (List.cons_ne_nil n directory), hname]
  · have hbeside : ¬ name :: directory <:+ n :: directory := by
      intro hsuffix
      have heq := hsuffix.eq_of_length (by simp)
      simp only [List.cons.injEq, and_true] at heq
      exact hn heq.symm
    rw [entry?_withDirectory_outside t hbeside]
    simp [hn]

end FileTree

/-! ## The clone of a run -/

namespace Clone

variable {w : World} {d : Directory}

/-- The directory of a clone is made in the temporary one, with the name of a clone. -/
theorem exists_name_of_nextDirectory (h : nextDirectory w = .ok d) : ∃ name temporary,
    IsDirectoryName name ∧ d.location = name :: temporary ∧
      w.tree.find w.here (parent w) = .ok (temporary, .directory) := by
  obtain ⟨e, loc, -, hnew, rfl⟩ := nextDirectory_eq_ok_iff.mp h
  obtain ⟨-, temporary, hfind, rfl, -⟩ := FileTree.newLocation_eq_ok_iff.mp hnew
  exact ⟨_, temporary, isDirectoryName_directoryName e, rfl, hfind⟩

/-- The path of a clone leads to its directory while it is there. -/
theorem find_of_nextDirectory (h : nextDirectory w = .ok d) (files : FileTree) :
    (w.tree.withDirectory d.location files).find w.here d.path = .ok (d.location, .directory) := by
  obtain ⟨e, loc, -, hnew, rfl⟩ := nextDirectory_eq_ok_iff.mp h
  exact FileTree.find_withDirectory hnew (directoryName_isProper e)
    (fun hzero => (ne_of_mem_directoryName hzero).1 rfl) files

end Clone

namespace Inference

open Chat (Model)

variable {model : Model} {c : Config} {m : ModuleRef} {w : World}

/-- What becomes of the clone of a run that reads files. -/
structure Disposes (c : Config) (m : ModuleRef) (w v : World) (readings : List Reading) :
    Prop where
  /-- A clone that succeeded stays if clones are kept, as git has left it. The temporary
  directory has one more, and else nothing has changed. -/
  kept : c.git.keepClone = true → ∀ d files, Sources.Clones c m w d files →
    v.tree = w.tree.withDirectory d.location files ∧
      ∃ name temporary, d.location = name :: temporary ∧
        w.tree.find w.here (Clone.parent w) = .ok (temporary, .directory) ∧
        (v.tree.clones temporary).Perm (name :: w.tree.clones temporary)
  /-- Otherwise nothing at all has changed. -/
  gone : ¬ (c.git.keepClone = true ∧ ∃ d files, Sources.Clones c m w d files) → v.tree = w.tree
  /-- Files are read while the clone in which they were found is there as it was made. -/
  read : ∀ reading ∈ readings, ∃ d files paths, Sources.Clones c m w d files ∧
    reading.tree = w.tree.withDirectory d.location files ∧
    reading.tree.find w.here d.path = .ok (d.location, .directory) ∧
    reading.tree.sourceFiles (Scan.ofConfig c.scan) w.here d.path = .ok paths ∧
    reading.path ∈ paths

theorem read_of_found {read : List Path}
    (hread : read <+: (Sources.findOrNone c m .registry w).1.files) :
    ∀ p ∈ read, ∃ d files paths, Sources.Clones c m w d files ∧
      (Sources.findOrNone c m .registry w).2.tree = w.tree.withDirectory d.location files ∧
      (w.tree.withDirectory d.location files).sourceFiles (Scan.ofConfig c.scan) w.here d.path =
        .ok paths ∧
      p ∈ paths := by
  intro p hp
  rcases hfound : (Sources.find c m .registry).run w with ⟨f | s, v⟩
  · rw [Sources.findOrNone_apply, hfound] at hread
    rw [List.prefix_nil.mp hread] at hp
    cases hp
  · rw [Sources.findOrNone_apply, hfound] at hread ⊢
    obtain ⟨d, files, hcloned, htree, -, hpaths⟩ := (Sources.resolved_of_run hfound).exists_clone
    exact ⟨d, files, s.files, hcloned, htree, hpaths, hread.subset hp⟩

/-- A run in registry mode keeps its clone on disk until the last of its files is read, and
leaves it there only if the clone succeeded and is to be kept. Whether no directory can be
made, git fails with files in it, or the walk, a file or the model fails later, nothing else is
left. -/
theorem infer_disposes (hm : model.Confined) (c : Config) (m : ModuleRef) (options : RunOptions)
    (w : World) :
    ∃ readings, Watched.infer model c m .registry options [] w =
        (((infer model c m .registry options w).1, readings),
          (infer model c m .registry options w).2) ∧
      Disposes c m w (infer model c m .registry options w).2 readings := by
  obtain ⟨read, hread, happly⟩ := Watched.infer_apply model c m .registry options [] w
  have hleaves := infer_leaves hm c m .registry options w
  refine ⟨_, happly, ?_, ?_, ?_⟩
  · intro hkeep d files hcloned
    have htree := hleaves.eq_of_keeps ⟨rfl, hkeep, hcloned⟩
    have hnext := hcloned.nextDirectory_eq
    have hclear := Clone.isClear_of_nextDirectory hnext
    obtain ⟨name, temporary, hname, hlocation, hfind⟩ := Clone.exists_name_of_nextDirectory hnext
    refine ⟨htree, name, temporary, hlocation, hfind, ?_⟩
    rw [hlocation] at htree hclear
    rw [htree]
    exact FileTree.clones_withDirectory hclear hname files
  · intro hgone
    exact hleaves.eq_of_unkept fun d files hkeeps =>
      hgone ⟨hkeeps.keep, d, files, hkeeps.cloned⟩
  · intro reading hreading
    obtain ⟨p, hp, rfl⟩ := List.mem_map.mp hreading
    obtain ⟨d, files, paths, hcloned, htree, hpaths, hmem⟩ := read_of_found hread p hp
    refine ⟨d, files, paths, hcloned, htree, ?_, by rwa [htree], hmem⟩
    rw [htree]
    exact Clone.find_of_nextDirectory hcloned.nextDirectory_eq files

/-- With a repository that is cloned and kept, and a service that answers nothing. -/
theorem infer_disposes_neighbours :
    (Model.service {} "key").Confined ∧
      Sources.Clones { git := ⟨true⟩ } ⟨"a/b/c", "1.0.0"⟩ (.offering Git.neighbours .around [])
        Clone.offered (Git.clone Git.neighbours) ∧
      ∃ readings, Watched.infer (.service {} "key") { git := ⟨true⟩ } ⟨"a/b/c", "1.0.0"⟩ .registry {} []
          (.offering Git.neighbours .around []) =
        (((infer (.service {} "key") { git := ⟨true⟩ } ⟨"a/b/c", "1.0.0"⟩ .registry {}
            (.offering Git.neighbours .around [])).1, readings),
          (infer (.service {} "key") { git := ⟨true⟩ } ⟨"a/b/c", "1.0.0"⟩ .registry {}
            (.offering Git.neighbours .around [])).2) ∧
        Disposes { git := ⟨true⟩ } ⟨"a/b/c", "1.0.0"⟩ (.offering Git.neighbours .around [])
          (infer (.service {} "key") { git := ⟨true⟩ } ⟨"a/b/c", "1.0.0"⟩ .registry {}
            (.offering Git.neighbours .around [])).2 readings := by
  have hconfined := Model.service_confined {} "key"
  exact ⟨hconfined, Sources.clones_offering rfl (World.offering_around_isReady _).next,
    infer_disposes hconfined _ _ _ _⟩

end Inference

end ModuleOutputs
