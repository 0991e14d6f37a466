import ModuleOutputs.Proofs.FileTree.Entries
import ModuleOutputs.Proofs.FileTree.Joining

/-!
New directories. A directory is made where nothing is, so what is put into it is all that is
in it, and to take it away is to have the file system as it was before.
-/

namespace ModuleOutputs.FileTree

variable {t t' files : FileTree} {loc l below : Location} {cwd : Location} {parent : Path}
  {name : Name}

/-! ## Clear places -/

theorem isClear_iff : t.isClear loc = true ↔ ∀ x ∈ t.entries, ¬ loc <:+ x.1 := by
  simp [isClear, ← List.isSuffixOf_iff_suffix]

theorem entry?_of_isClear (h : t.isClear loc = true) (hloc : loc ≠ []) (hl : loc <:+ l) :
    t.entry? l = none := by
  have hsome : l ≠ [] := fun hnil => hloc (List.suffix_nil.mp (hnil ▸ hl))
  cases he : t.entry? l with
  | none => rfl
  | some e => exact absurd hl (isClear_iff.mp h _ (mem_entries hsome he))

theorem prune_of_isClear (h : t.isClear loc = true) : t.prune loc = t := by
  have hkept : ∀ x ∈ t.entries, (!loc.isSuffixOf x.1) = true := by
    simpa [isClear] using h
  rw [prune, List.filter_eq_self.mpr hkept]

theorem prune_put (t : FileTree) (loc : Location) (e : Entry) :
    (t.put loc e).prune loc = t.prune loc := by
  simp only [put, prune, mk.injEq]
  rw [List.filter_cons_of_neg (by simp), List.filter_filter]
  congr 1
  funext x
  -- What is not below the location is not at it.
  by_cases hx : x.1 = loc <;> simp [hx]

theorem prune_graft (t : FileTree) (directory : Location) (files : FileTree) :
    (t.graft directory files).prune directory = t.prune directory := by
  have hnone : (((files.entries.filter fun x => decide (x.1 ≠ [])).map
      fun x => (x.1 ++ directory, x.2)).filter fun x => !directory.isSuffixOf x.1) = [] := by
    rw [List.filter_eq_nil_iff]
    intro x hx
    obtain ⟨y, -, rfl⟩ := List.mem_map.mp hx
    simp
  rw [graft, prune, prune, List.filter_append, hnone, List.nil_append]

/-! ## Grafts -/

/-- What stands in a directory is what is grafted, and else what stood there. -/
theorem entry?_graft_below (t files : FileTree) (directory : Location) (h : below ≠ []) :
    FileTree.entry? (t.graft directory files) (below ++ directory) =
      (files.entry? below).or (t.entry? (below ++ directory)) := by
  have hbelow : below ++ directory ≠ [] := by simp [h]
  have hkept := find?_of_kept files.entries (fun l => decide (l ≠ [])) (l := below) (by simpa using h)
  have hmapped : (((files.entries.filter fun x => decide (x.1 ≠ [])).map
      fun x => (x.1 ++ directory, x.2)).find? fun x => x.1 = below ++ directory) =
        (files.entries.find? fun x => x.1 = below).map fun x => (x.1 ++ directory, x.2) := by
    rw [List.find?_map, ← hkept]
    congr 2
    funext x
    simp
  rw [entry?_of_ne_nil _ hbelow, entry?_of_ne_nil _ hbelow, entry?_of_ne_nil _ h, graft,
    List.find?_append, hmapped]
  cases files.entries.find? fun x => x.1 = below <;> simp

theorem entry?_graft_of_not_below (t files : FileTree) {directory : Location}
    (h : ∀ below ≠ [], l ≠ below ++ directory) :
    FileTree.entry? (t.graft directory files) l = t.entry? l := by
  by_cases hl : l = []
  · subst hl
    rfl
  · have hnone : (((files.entries.filter fun x => decide (x.1 ≠ [])).map
        fun x => (x.1 ++ directory, x.2)).find? fun x => x.1 = l) = none := by
      rw [List.find?_eq_none]
      intro x hx heq
      obtain ⟨y, hy, rfl⟩ := List.mem_map.mp hx
      have hsome : y.1 ≠ [] := by simpa using (List.mem_filter.mp hy).2
      exact h y.1 hsome (of_decide_eq_true heq).symm
    rw [entry?_of_ne_nil _ hl, entry?_of_ne_nil _ hl, graft, List.find?_append, hnone,
      Option.none_or]

/-! ## A directory with files in it -/

/-- The file system with a new directory and files in it. -/
def withDirectory (t : FileTree) (loc : Location) (files : FileTree) : FileTree :=
  (t.put loc .directory).graft loc files

theorem entry?_withDirectory_self (t : FileTree) (hloc : loc ≠ []) (files : FileTree) :
    FileTree.entry? (t.withDirectory loc files) loc = some .directory := by
  have hself : ∀ below ≠ [], loc ≠ below ++ loc := by simp
  rw [withDirectory, entry?_graft_of_not_below _ _ hself, entry?_put_self t hloc]

/-- What is outside of a new directory is as it was. -/
theorem entry?_withDirectory_outside (t : FileTree) (h : ¬ loc <:+ l) (files : FileTree) :
    FileTree.entry? (t.withDirectory loc files) l = t.entry? l := by
  have hbelow : ∀ below ≠ [], l ≠ below ++ loc := by
    rintro below - rfl
    exact h (List.suffix_append _ _)
  have hne : l ≠ loc := fun heq => h (heq ▸ List.suffix_rfl)
  rw [withDirectory, entry?_graft_of_not_below _ _ hbelow, entry?_put_ne t hne]

/-- What is in a new directory are its files. -/
theorem entry?_withDirectory_below (h : t.isClear loc = true) (hloc : loc ≠ []) (hbelow : below ≠ [])
    (files : FileTree) :
    FileTree.entry? (t.withDirectory loc files) (below ++ loc) = files.entry? below := by
  have hne : below ++ loc ≠ loc := by simp [hbelow]
  rw [withDirectory, entry?_graft_below _ _ _ hbelow, entry?_put_ne t hne,
    entry?_of_isClear h hloc (List.suffix_append _ _), Option.or_none]

/-- Two file systems with the same files in a new directory agree on what is in it, and
elsewhere if they did before. -/
theorem entry?_withDirectory_congr (h : t.isClear loc = true) (h' : t'.isClear loc = true)
    (hloc : loc ≠ []) (files : FileTree) (hl : loc <:+ l ∨ t'.entry? l = t.entry? l) :
    FileTree.entry? (t'.withDirectory loc files) l = FileTree.entry? (t.withDirectory loc files) l := by
  by_cases hin : loc <:+ l
  · obtain ⟨below, rfl⟩ := hin
    by_cases hbelow : below = []
    · rw [hbelow, List.nil_append, entry?_withDirectory_self t hloc,
        entry?_withDirectory_self t' hloc]
    · rw [entry?_withDirectory_below h hloc hbelow, entry?_withDirectory_below h' hloc hbelow]
  · rw [entry?_withDirectory_outside t hin, entry?_withDirectory_outside t' hin,
      hl.resolve_left hin]

/-- A new directory that is taken away again leaves nothing behind. -/
theorem prune_withDirectory (h : t.isClear loc = true) (files : FileTree) :
    (t.withDirectory loc files).prune loc = t := by
  rw [withDirectory, prune_graft, prune_put, prune_of_isClear h]

/-! ## Where it is made -/

theorem newLocation_eq_ok_iff : t.newLocation cwd parent name = .ok l ↔
    (Path.join parent name).length ≤ pathLimit ∧
      ∃ loc, t.find cwd parent = .ok (loc, .directory) ∧ l = name :: loc ∧
        t.isClear (name :: loc) = true := by
  constructor
  · intro h
    unfold newLocation at h
    split at h
    · cases h
    · next hshort =>
        split at h
        · cases h
        · next loc hfind =>
            split at h
            · next hclear =>
                cases h
                exact ⟨Nat.not_lt.mp hshort, loc, hfind, rfl, hclear⟩
            · cases h
        · cases h
  · rintro ⟨hshort, loc, hfind, rfl, hclear⟩
    simp [newLocation, Nat.not_lt.mpr hshort, hfind, hclear]

/-- Names ahead that come to an end are passed, whatever names there are behind them. -/
theorem Ends.followFrom_append {p : Position} {m : Location} (h : Ends t p m) {rest : List Name}
    (hrest : rest ≠ []) (asDirectory : Bool) :
    ∃ links, t.followFrom ⟨p.links, p.location, asDirectory, p.names ++ rest⟩ =
      t.followFrom ⟨links, m, asDirectory, rest⟩ := by
  induction h with
  | @here links => exact ⟨links, rfl⟩
  | later step _ ih =>
      obtain ⟨links, hlinks⟩ := ih
      refine ⟨links, Eq.trans ?_ hlinks⟩
      cases step with
      | here inside => exact followFrom_of_step (.here inside)
      | above inside => exact followFrom_of_step (.above inside)
      | entry inside notHere notAbove short ahead noLink =>
          exact followFrom_of_step (.entry inside notHere notAbove short ahead noLink)
      | @link links loc _ name names target inside notHere notAbove short ahead some =>
          have hstep := followFrom_of_step
            (@Step.link t links loc asDirectory name (names ++ rest) target inside notHere notAbove
              short ahead some)
          simpa [hrest] using hstep

section

variable {p q : Position} {e : Entry}
  (hmore : ∀ l e, t.entry? l = some e → t'.entry? l = some e)
include hmore

/-- A step is taken also if there are more entries. -/
theorem Step.of_more (h : Step t p q) : Step t' p q := by
  cases h with
  | here inside => exact .here (hmore _ _ inside)
  | above inside => exact .above (hmore _ _ inside)
  | link inside notHere notAbove short ahead some =>
      exact .link (hmore _ _ inside) notHere notAbove short (hmore _ _ ahead) some
  | entry inside notHere notAbove short ahead noLink =>
      exact .entry (hmore _ _ inside) notHere notAbove short (hmore _ _ ahead) noLink

/-- A path that leads to an entry leads there also if there are more entries. -/
theorem followFrom_of_more (h : t.followFrom p = .ok (.entry l e)) :
    t'.followFrom p = .ok (.entry l e) := by
  induction h using arrival_induction with
  | arrived q _ harrival =>
      cases harrival with
      | entry place kind => exact followFrom_nil _ (hmore _ _ place) kind
  | on p q _ hstep ih => exact (followFrom_of_step (hstep.of_more hmore)).trans ih

/-- On the way to that entry nothing else is looked at. -/
theorem sees_of_more (h : t.followFrom p = .ok (.entry loc e)) (hsees : Sees t' p l) :
    Sees t p l := by
  induction h using arrival_induction with
  | arrived q _ harrival =>
      cases harrival
      rw [hsees.eq_of_nil]
      exact .place
  | on p q _ hstep ih =>
      cases hsees with
      | place => exact .place
      | ahead names => exact .ahead names
      | later step sees =>
          obtain rfl := (hstep.of_more hmore).unique step
          exact .later hstep (ih sees)

end

/-- What stood somewhere still does if a new directory is made. -/
theorem entry?_withDirectory_of_some (h : t.isClear loc = true) (hloc : loc ≠ []) (files : FileTree)
    {e : Entry} (hl : t.entry? l = some e) :
    FileTree.entry? (t.withDirectory loc files) l = some e := by
  rw [entry?_withDirectory_outside t _ files, hl]
  intro hbelow
  rw [entry?_of_isClear h hloc hbelow] at hl
  cases hl

/-- The path of a new directory leads to it. -/
theorem find_withDirectory (h : t.newLocation cwd parent name = .ok loc) (hname : name.IsProper)
    (hnul : 0 ∉ name) (files : FileTree) :
    (t.withDirectory loc files).find cwd (Path.join parent name) = .ok (loc, .directory) := by
  obtain ⟨hshort, dir, hparent, rfl, hclear⟩ := newLocation_eq_ok_iff.mp h
  have hself := t.entry?_withDirectory_self (List.cons_ne_nil name dir) files
  have hsome := ne_nil_of_find hparent
  obtain ⟨hfault, hfollow⟩ := find_eq_ok_iff.mp hparent
  have hfollow' := followFrom_of_more
    (fun _ _ => entry?_withDirectory_of_some hclear (List.cons_ne_nil name dir) files) hfollow
  obtain ⟨links, hlast⟩ := (ends_of_followFrom hfollow').followFrom_append
    (List.cons_ne_nil name []) false
  have hstep : Step (t.withDirectory (name :: dir) files) ⟨links, dir, false, [name]⟩
      ⟨links, name :: dir, false, []⟩ :=
    .entry (entry?_of_followFrom hfollow') hname.notHere hname.notAbove hname.short hself (by simp)
  refine find_eq_ok_iff.mpr ⟨?_, ?_⟩
  · obtain ⟨hparentNul, -, -⟩ := pathFault?_eq_none_iff.mp hfault
    refine pathFault?_eq_none_iff.mpr ⟨?_, Path.join_ne_nil hsome hname, hshort⟩
    rw [Path.join_of_isProper hsome hname]
    split <;> simp [hparentNul, hnul, Path.slash]
  · rw [Position.ofPath_join cwd hsome hname]
    exact hlast.trans ((followFrom_of_step hstep).trans (followFrom_nil _ hself nofun))

end ModuleOutputs.FileTree
