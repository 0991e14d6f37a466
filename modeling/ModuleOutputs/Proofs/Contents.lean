import Mathlib
import ModuleOutputs.Proofs.Run.Basic
import ModuleOutputs.Proofs.Text.Lossy

/-!
What is read from source files. Either all of them are read, each in its place, or the first that
cannot be read is the failure. The text of a file is what its bytes encode, and damage to them
stays where it is.
-/

namespace ModuleOutputs

namespace World

variable {w : World} {p : Path} {paths : List Path} {files : List SourceFile} {f : Failure}

/-- Whether a file can be read, as bytes. -/
def Holds (w : World) (p : Path) (bytes : Text.Bytes) : Prop :=
  w.tree.read w.here p = .ok bytes

/-- Whether a file is the first among others that cannot be read, and why. -/
structure FailsFirst (w : World) (paths : List Path) (p : Path) (fault : FileFault) : Prop where
  fails : w.tree.read w.here p = .error fault
  first : ∃ before after, paths = before ++ p :: after ∧ ∀ q ∈ before, ∃ bytes, w.Holds q bytes

theorem holds_or_fails (w : World) (p : Path) :
    (∃ bytes, w.Holds p bytes) ∨ ∃ fault, w.tree.read w.here p = .error fault := by
  unfold Holds
  cases w.tree.read w.here p with
  | ok bytes => exact .inl ⟨bytes, rfl⟩
  | error fault => exact .inr ⟨fault, rfl⟩

theorem contents_cons_of_holds {bytes : Text.Bytes} (h : w.Holds p bytes) :
    w.contents (p :: paths) = (w.contents paths).map (⟨p, Text.lossy bytes⟩ :: ·) := by
  rw [contents_cons, h]

theorem contents_cons_of_fails {fault : FileFault} (h : w.tree.read w.here p = .error fault) :
    w.contents (p :: paths) = .error (.file p fault) := by
  rw [contents_cons, h]

/-- The files that are read have the paths that were asked for, and the texts of their bytes. -/
theorem contents_eq_ok_iff : w.contents paths = .ok files ↔
    List.Forall₂ (fun p file => ∃ bytes, w.Holds p bytes ∧ file = ⟨p, Text.lossy bytes⟩)
      paths files := by
  induction paths generalizing files with
  | nil =>
      rw [List.forall₂_nil_left_iff, contents, List.mapM_nil]
      exact ⟨fun h => (Except.ok.inj h).symm, fun h => congrArg Except.ok h.symm⟩
  | cons p paths ih =>
      rw [List.forall₂_cons_left_iff]
      constructor
      · intro h
        obtain ⟨bytes, hbytes⟩ | ⟨fault, hfault⟩ := w.holds_or_fails p
        · rw [contents_cons_of_holds hbytes] at h
          cases hothers : w.contents paths with
          | error f =>
              rw [hothers] at h
              cases h
          | ok others =>
              rw [hothers] at h
              cases h
              exact ⟨_, others, ⟨bytes, hbytes, rfl⟩, ih.mp hothers, rfl⟩
        · rw [contents_cons_of_fails hfault] at h
          cases h
      · rintro ⟨_, others, ⟨bytes, hbytes, rfl⟩, hothers, rfl⟩
        rw [contents_cons_of_holds hbytes, ih.mpr hothers]
        rfl

theorem failsFirst_cons_of_fails {fault fault' : FileFault} {q : Path}
    (h : w.tree.read w.here p = .error fault) :
    w.FailsFirst (p :: paths) q fault' ↔ q = p ∧ fault' = fault := by
  constructor
  · rintro ⟨hfails, before, after, hsplit, hbefore⟩
    cases before with
    | nil =>
        obtain ⟨rfl, -⟩ := List.cons.inj hsplit
        rw [h] at hfails
        exact ⟨rfl, (Except.error.inj hfails).symm⟩
    | cons q before =>
        obtain ⟨rfl, -⟩ := List.cons.inj hsplit
        obtain ⟨bytes, hbytes⟩ := hbefore _ List.mem_cons_self
        rw [Holds, h] at hbytes
        cases hbytes
  · rintro ⟨rfl, rfl⟩
    exact ⟨h, [], paths, rfl, nofun⟩

theorem failsFirst_cons_of_holds {fault : FileFault} {q : Path} {bytes : Text.Bytes}
    (h : w.Holds p bytes) : w.FailsFirst (p :: paths) q fault ↔ w.FailsFirst paths q fault := by
  constructor
  · rintro ⟨hfails, before, after, hsplit, hbefore⟩
    cases before with
    | nil =>
        obtain ⟨rfl, -⟩ := List.cons.inj hsplit
        rw [h] at hfails
        cases hfails
    | cons r before =>
        obtain ⟨-, hsplit⟩ := List.cons.inj hsplit
        exact ⟨hfails, before, after, hsplit, (List.forall_mem_cons.mp hbefore).2⟩
  · rintro ⟨hfails, before, after, rfl, hbefore⟩
    exact ⟨hfails, p :: before, after, rfl, List.forall_mem_cons.mpr ⟨⟨bytes, h⟩, hbefore⟩⟩

/-- Reading fails at the first file that cannot be read. -/
theorem contents_eq_error_iff : w.contents paths = .error f ↔
    ∃ p fault, w.FailsFirst paths p fault ∧ f = .file p fault := by
  induction paths with
  | nil =>
      refine iff_of_false nofun ?_
      rintro ⟨p, fault, ⟨-, before, after, hsplit, -⟩, -⟩
      cases before <;> cases hsplit
  | cons p paths ih =>
      obtain ⟨bytes, hbytes⟩ | ⟨fault, hfault⟩ := w.holds_or_fails p
      · simp only [contents_cons_of_holds hbytes, failsFirst_cons_of_holds hbytes, ← ih]
        cases w.contents paths <;> simp [Except.map]
      · simp only [contents_cons_of_fails hfault, failsFirst_cons_of_fails hfault]
        constructor
        · intro h
          exact ⟨p, fault, ⟨rfl, rfl⟩, (Except.error.inj h).symm⟩
        · rintro ⟨_, _, ⟨rfl, rfl⟩, rfl⟩
          rfl

/-- All files are read, or one of them is the first that cannot be. -/
theorem exists_contents_iff :
    (∃ files, w.contents paths = .ok files) ↔ ∀ p ∈ paths, ∃ bytes, w.Holds p bytes := by
  have hfails := w.contents_fails_iff paths
  constructor
  · rintro ⟨files, hfiles⟩ p hp
    refine (w.holds_or_fails p).resolve_right fun hfault => ?_
    obtain ⟨f, hf⟩ := hfails.mpr ⟨p, hp, hfault⟩
    cases hfiles.symm.trans hf
  · intro hall
    cases h : w.contents paths with
    | ok files => exact ⟨files, rfl⟩
    | error f =>
        obtain ⟨p, hp, fault, hfault⟩ := hfails.mp ⟨f, h⟩
        obtain ⟨bytes, hbytes⟩ := hall p hp
        cases hbytes.symm.trans hfault

end World

namespace Sources

/-- Files are read if all of them can be, each with its path and in its place, and otherwise the
failure is that of the first that cannot. The text of a file is the one that its bytes encode. From
a byte of ASCII on it is what it would be alone, whatever stands before, and its characters of
ASCII are the bytes of ASCII. -/
theorem readFiles_contents (paths : List Path) (w : World) :
    ((∃ files, ((readFiles paths).run w).1 = .ok files) ↔ ∀ p ∈ paths, ∃ bytes, w.Holds p bytes) ∧
    (∀ files, ((readFiles paths).run w).1 = .ok files ↔
      List.Forall₂ (fun p file => ∃ bytes, w.Holds p bytes ∧ file = ⟨p, Text.lossy bytes⟩)
        paths files) ∧
    (∀ f, ((readFiles paths).run w).1 = .error f ↔
      ∃ p fault, w.FailsFirst paths p fault ∧ f = .file p fault) ∧
    (∀ text, Text.lossy (Text.utf8 text) = text) ∧
    (∀ front back, Text.BeginsAscii back →
      Text.lossy (front ++ back) = Text.lossy front ++ Text.lossy back) ∧
    ∀ bytes, Text.asciiIn (Text.lossy bytes).toList = Text.asciiOf bytes := by
  rw [readFiles_run]
  exact ⟨World.exists_contents_iff, fun _ => World.contents_eq_ok_iff,
    fun _ => World.contents_eq_error_iff, Text.lossy_utf8, fun _ _ => Text.lossy_append,
    Text.asciiIn_lossy⟩

/-- A world with one file, in which the sign for a currency breaks off before a bracket. -/
def damaged : World :=
  { World.replying [] with
    tree := .plant .bare (Path.names (Path.ofText "/m/main.tf")).reverse
      (.file ([0xE2, 0x82] ++ Text.utf8 "\x7d\n"))
    workingDirectory := Path.ofText "/m" }

/-- The bracket stays where it is, and a file that is not there is the failure. -/
theorem readFiles_contents_damaged :
    Text.BeginsAscii (Text.utf8 "\x7d\n") ∧
    ((readFiles [Path.ofText "main.tf"]).run damaged).1 =
      .ok [⟨Path.ofText "main.tf", "\uFFFD\x7d\n"⟩] ∧
    ((readFiles [Path.ofText "main.tf", Path.ofText "gone.tf"]).run damaged).1 =
      .error (.file (Path.ofText "gone.tf") .notFound) := by
  have hmain : damaged.Holds (Path.ofText "main.tf") ([0xE2, 0x82] ++ Text.utf8 "\x7d\n") := by
    unfold World.Holds
    cbv
  have hbegins : Text.BeginsAscii (Text.utf8 "\x7d\n") := by decide +kernel
  refine ⟨hbegins, ?_, ?_⟩
  · obtain ⟨-, hok, -, hutf8, happend, -⟩ := readFiles_contents [Path.ofText "main.tf"] damaged
    have htext : Text.lossy ([0xE2, 0x82] ++ Text.utf8 "\x7d\n") = "\uFFFD\x7d\n" := by
      rw [happend _ _ hbegins, hutf8]
      decide +kernel
    exact (hok _).mpr (.cons ⟨_, hmain, by rw [htext]⟩ .nil)
  · obtain ⟨-, -, herror, -⟩ :=
      readFiles_contents [Path.ofText "main.tf", Path.ofText "gone.tf"] damaged
    refine (herror _).mpr ⟨_, _, ⟨?_, [_], [], rfl, ?_⟩, rfl⟩
    · cbv
    · exact List.forall_mem_singleton.mpr ⟨_, hmain⟩

end Sources

end ModuleOutputs
