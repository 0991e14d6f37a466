import ModuleOutputs.Proofs.Walk.Basic

/-!
What a walk depends on. Going from directory to directory it looks at nothing but what
is touched below the first one; so in two file systems that agree on that it finds the
same files, and each of them is at the end of a trail.
-/

namespace ModuleOutputs.FileTree

variable {t t' : FileTree} {root loc cwd : Location} {scan : Scan} {stack : List Ancestor}
  {top path : Path} {name : Name}

/-- Whether all entries that a walk can come by have proper names. -/
def Named (t : FileTree) (root : Location) : Prop :=
  ∀ loc name, Reached t root loc → (t.entry? (name :: loc)).isSome = true → name.IsProper

variable {depth : Nat}

/-- A walk finds the same in file systems that agree on what is touched. -/
theorem walkBelow_congr (hroot : t.entry? root = some .directory) (hnamed : Named t root)
    (hagree : ∀ l, Touched t cwd top root l → t'.entry? l = t.entry? l)
    (hreached : Reached t root loc) (hspells : Spells t cwd path loc)
    (hsees : ∀ l, Sees t (.ofPath cwd path) l → Touched t cwd top root l) :
    t'.walkBelow scan cwd depth stack path loc = t.walkBelow scan cwd depth stack path loc := by
  induction depth generalizing stack path loc with
  | zero => rfl
  | succ depth ih =>
      have hfind : t'.find cwd path = t.find cwd path :=
        find_congr fun l hl => hagree l (hsees l hl)
      have hnames : t'.namesAt cwd path loc = t.namesAt cwd path loc := by
        rw [namesAt, namesAt, hfind, children_congr fun name => hagree _ (.child name hreached)]
      cases hopened : t.namesAt cwd path loc with
      | error f =>
          rw [walkBelow_of_unopened hopened, walkBelow_of_unopened (hnames.trans hopened)]
      | ok names =>
          rw [walkBelow_of_opened hopened, walkBelow_of_opened (hnames.trans hopened)]
          obtain ⟨rfl, d, hopen⟩ := find_of_namesAt hspells hopened
          refine congrArg (Except.map List.flatten) (mapM_congr fun name hmem => ?_)
          have hname := hnamed loc name hreached (mem_children.mp hmem)
          have hsees' : ∀ l, Sees t (.ofPath cwd (Path.join path name)) l →
              Touched t cwd top root l :=
            fun l hl => (sees_of_sees_join hname hopen hl).elim (hsees l) (.on hreached hname)
          have hvisit : t'.visit cwd stack (Path.join path name) loc name =
              t.visit cwd stack (Path.join path name) loc name :=
            visit_congr (hagree _ (.child name hreached))
              (find_congr fun l hl => hagree l (hsees' l hl))
          cases hv : t.visit cwd stack (Path.join path name) loc name with
          | error f => rw [walkEntry_of_unvisited hv, walkEntry_of_unvisited (hvisit.trans hv)]
          | ok v =>
              rw [walkEntry_of_visited hv, walkEntry_of_visited (hvisit.trans hv)]
              have hinside := hreached.isDirectory hroot
              have hspells' := spells_of_visit hinside hname hopen hv
              obtain ⟨hvpath, hleads⟩ := visit_leads hinside hname hopen hv
              -- An entry that the walk goes into can be reached, so the rest is by induction.
              by_cases hdirectory : v.entry.isDirectory = true
              · rw [isDirectory_iff.mp hdirectory] at hleads
                rw [ih (.on hreached hname hleads) hspells' (hvpath ▸ hsees')]
              · simp only [hdirectory, Bool.false_eq_true, if_false]

/-- Every file that a walk finds is at the end of a trail. -/
theorem trail_of_walkBelow (hroot : t.entry? root = some .directory) (hnamed : Named t root)
    (hreached : Reached t root loc) (hspells : Spells t cwd path loc) {files : List Path}
    (h : t.walkBelow scan cwd depth stack path loc = .ok files) {p : Path} (hp : p ∈ files) :
    ∃ names, Trail t loc names ∧ p = names.foldl Path.join path := by
  induction depth generalizing stack path loc files with
  | zero =>
      cases h
      cases hp
  | succ depth ih =>
      obtain ⟨⟨d, hopen⟩, found, hfound, rfl⟩ := (walkBelow_eq_ok_iff hspells).mp h
      obtain ⟨part, hpart, hp⟩ := List.mem_flatten.mp hp
      obtain ⟨name, hmem, hyields⟩ := exists_of_forall₂ hfound hpart
      have hname := hnamed loc name hreached (mem_children.mp hmem)
      have hinside := hreached.isDirectory hroot
      cases hyields with
      | passedOver | leftOut => cases hp
      | entered visited _ directory below =>
          have hspells' := spells_of_visit hinside hname hopen visited
          obtain ⟨hpath, hleads⟩ := visit_leads hinside hname hopen visited
          rw [directory] at hleads
          obtain ⟨names, htrail, rfl⟩ := ih (.on hreached hname hleads) hspells' below hp
          exact ⟨name :: names, .on hname hleads htrail, by rw [hpath]; rfl⟩
      | listed visited =>
          obtain ⟨hpath, -⟩ := visit_leads hinside hname hopen visited
          obtain rfl := List.mem_singleton.mp hp
          exact ⟨[name], .last hname, hpath⟩

variable (hopen : t.find cwd path = .ok (root, .directory)) (hnamed : Named t root)
  (hagree : ∀ l, Touched t cwd path root l → t'.entry? l = t.entry? l)
include hopen hnamed hagree

/-- The source files below a directory depend on nothing but what is touched there. -/
theorem sourceFiles_congr : t'.sourceFiles scan cwd path = t.sourceFiles scan cwd path := by
  have hroot := entry?_of_followFrom (find_eq_ok_iff.mp hopen).2
  unfold sourceFiles
  rw [find_congr fun l hl => hagree l (.way hl), hopen]
  exact walkBelow_congr hroot hnamed hagree .root (spells_of_find hopen) fun _ hl => .way hl

/-- So does the content of each of these files. -/
theorem read_sourceFiles {files : List Path} (hfiles : t.sourceFiles scan cwd path = .ok files)
    {p : Path} (hp : p ∈ files) : t'.read cwd p = t.read cwd p := by
  have hroot := entry?_of_followFrom (find_eq_ok_iff.mp hopen).2
  unfold sourceFiles at hfiles
  rw [hopen] at hfiles
  obtain ⟨names, htrail, rfl⟩ :=
    trail_of_walkBelow hroot hnamed .root (spells_of_find hopen) hfiles hp
  exact read_congr hopen htrail hagree

end ModuleOutputs.FileTree
