import ModuleOutputs.Proofs.FileTree.NewDirectory
import ModuleOutputs.Proofs.FileTree.Walking

/-!
Directories that no link leads out of. Whatever is touched below such a directory is in
it or on the way to it, so what else a file system holds makes no difference to a walk
there and to the reading of what it finds.
-/

namespace ModuleOutputs

def Entry.isLink : Entry → Bool
  | .link _ => true
  | _ => false

namespace FileTree

variable {t t' files : FileTree} {directory loc l cwd : Location} {name : Name} {p : Path}

/-- Whether a location is in a directory or on the way to it. -/
def Near (directory l : Location) : Prop :=
  l <:+ directory ∨ directory <:+ l

/-- Whether no link in a directory leads out of it. To follow a link there looks at
nothing but what is near, and ends in the directory or nowhere. -/
def LinksStay (t : FileTree) (directory : Location) : Prop :=
  ∀ loc name target, directory <:+ loc → t.entry? (name :: loc) = some (.link target) →
    (∀ l, Sees t (.ofEntry loc name) l → Near directory l) ∧
    ∀ l e, t.followFrom (.ofEntry loc name) = .ok (.entry l e) → directory <:+ l

/-- The links of a file system, with their locations. -/
def linkEntries (t : FileTree) : List (Location × Entry) :=
  t.entries.filter (·.2.isLink)

theorem mem_linkEntries {target : Path} (h : t.entry? (name :: loc) = some (.link target)) :
    (name :: loc, .link target) ∈ t.linkEntries :=
  List.mem_filter.mpr ⟨mem_entries (List.cons_ne_nil name loc) h, rfl⟩

/-- No link leads out of a directory in which links point to their neighbours, and these
are no links. -/
theorem linksStay_of_neighbours
    (h : ∀ loc name target, directory <:+ loc → t.entry? (name :: loc) = some (.link target) →
      name.IsProper ∧ Name.IsProper target ∧
        ∀ target', t.entry? (target :: loc) ≠ some (.link target')) :
    t.LinksStay directory := by
  intro loc name target hloc hlink
  obtain ⟨hname, htarget, hneighbour⟩ := h loc name target hloc hlink
  have hbelow : ∀ n : Name, directory <:+ n :: loc := fun n => hloc.trans (List.suffix_cons n loc)
  -- The one step from a link is to the name of its neighbour, in the same directory.
  have hon : ∀ {q : Position}, Step t (.ofEntry loc name) q →
      ∃ k d, q = ⟨k, loc, d, [target]⟩ := fun hstep => by
    obtain ⟨d, rfl⟩ := hstep.eq_of_link hname.notHere hname.notAbove hlink
    refine ⟨linkLimit - 1, d, ?_⟩
    rw [Path.isAbsolute_of_isProper htarget, Path.names_of_isProper htarget]
    rfl
  constructor
  · intro l hsees
    cases hsees with
    | place => exact .inr hloc
    | ahead names =>
        cases names
        exact .inr (hbelow name)
    | later step sees =>
        obtain ⟨k, d, rfl⟩ := hon step
        rcases sees_of_noLink htarget hneighbour sees with rfl | rfl
        · exact .inr hloc
        · exact .inr (hbelow target)
  · intro l e hleads
    cases ends_of_followFrom hleads with
    | later step ends =>
        obtain ⟨k, d, rfl⟩ := hon step
        rw [ends_of_noLink htarget hneighbour ends]
        exact hbelow target

theorem LinksStay.leads (h : t.LinksStay directory) (hloc : directory <:+ loc)
    (proper : name.IsProper) {e : Entry}
    (hleads : t.followFrom (.ofEntry loc name) = .ok (.entry l e)) : directory <:+ l := by
  by_cases hlink : ∃ target, t.entry? (name :: loc) = some (.link target)
  · obtain ⟨target, hlink⟩ := hlink
    exact (h loc name target hloc hlink).2 l e hleads
  · rw [ends_of_noLink proper (not_exists.mp hlink) (ends_of_followFrom hleads)]
    exact hloc.trans (List.suffix_cons name loc)

theorem LinksStay.sees (h : t.LinksStay directory) (hloc : directory <:+ loc)
    (proper : name.IsProper) (hsees : Sees t (.ofEntry loc name) l) : Near directory l := by
  by_cases hlink : ∃ target, t.entry? (name :: loc) = some (.link target)
  · obtain ⟨target, hlink⟩ := hlink
    exact (h loc name target hloc hlink).1 l hsees
  · rcases sees_of_noLink proper (not_exists.mp hlink) hsees with rfl | rfl
    · exact .inr hloc
    · exact .inr (hloc.trans (List.suffix_cons name loc))

/-- From a directory that no link leads out of, one gets to nothing but what is in it. -/
theorem LinksStay.reached (h : t.LinksStay directory) (hreached : Reached t directory loc) :
    directory <:+ loc := by
  induction hreached with
  | root => exact List.suffix_rfl
  | on _ proper leads ih => exact h.leads ih proper leads

theorem LinksStay.touched (h : t.LinksStay directory) (htouched : Touched t cwd p directory l) :
    Sees t (.ofPath cwd p) l ∨ Near directory l := by
  cases htouched with
  | way sees => exact .inl sees
  | child name reached => exact .inr (.inr ((h.reached reached).trans (List.suffix_cons name _)))
  | on reached proper sees => exact .inr (h.sees (h.reached reached) proper sees)

/-! ## Directories in directories -/

theorem directories_of_tail (habove : ∀ l, l <:+ loc.tail → t.entry? l = some .directory)
    (hloc : t.entry? loc = some .directory) (hl : l <:+ loc) : t.entry? l = some .directory := by
  cases loc with
  | nil => rwa [List.suffix_nil.mp hl]
  | cons n parent =>
      rcases List.suffix_cons_iff.mp hl with rfl | hl
      · exact hloc
      · exact habove l hl

/-- Above where one arrives there are directories alone, if there were above where one began. -/
theorem directories_of_followFrom {q : Position} {e : Entry}
    (h : t.followFrom q = .ok (.entry loc e))
    (habove : ∀ l, l <:+ q.location.tail → t.entry? l = some .directory) :
    ∀ l, l <:+ loc.tail → t.entry? l = some .directory := by
  induction h using arrival_induction with
  | arrived q _ harrival =>
      cases harrival
      exact habove
  | on q q' _ hstep ih =>
      -- A step is made in a directory, and leads no further down than to an entry in it.
      refine ih fun l hl => ?_
      cases hstep with
      | here => exact habove l hl
      | above => exact habove l (hl.trans (List.tail_suffix _))
      | link =>
          dsimp only at hl
          split at hl
          · rw [List.suffix_nil.mp hl]
            rfl
          · exact habove l hl
      | entry inside => exact directories_of_tail habove inside hl

/-- A directory to which an absolute path leads stands in directories alone. -/
theorem directories_of_find (habsolute : Path.isAbsolute p = true)
    (h : t.find cwd p = .ok (loc, .directory)) (hl : l <:+ loc) : t.entry? l = some .directory := by
  have hfollow := (find_eq_ok_iff.mp h).2
  refine directories_of_tail (directories_of_followFrom hfollow fun l hl => ?_)
    (entry?_of_followFrom hfollow) hl
  simp only [Position.ofPath, habsolute, if_true, List.tail_nil, List.suffix_nil] at hl
  rw [hl]
  rfl

/-! ## A new directory -/

/-- Whether all entries have names that an entry of a directory can have. -/
def HasProperNames (t : FileTree) : Prop :=
  ∀ x ∈ t.entries, ∀ n ∈ x.1, n.IsProper

instance (t : FileTree) : Decidable t.HasProperNames :=
  inferInstanceAs (Decidable (∀ x ∈ t.entries, ∀ n ∈ x.1, n.IsProper))

variable (hclear : t.isClear directory = true) (hsome : directory ≠ [])
  (hstay : (t.withDirectory directory files).LinksStay directory)
include hclear hsome hstay

/-- If no link leads out of a new directory, one comes by no names there but those of its
files. -/
theorem named_withDirectory (hfiles : files.HasProperNames) :
    Named (t.withDirectory directory files) directory := by
  intro loc child hreached hchild
  obtain ⟨below, rfl⟩ := hstay.reached hreached
  rw [← List.cons_append, entry?_withDirectory_below hclear hsome (List.cons_ne_nil _ _)] at hchild
  obtain ⟨e, he⟩ := Option.isSome_iff_exists.mp hchild
  exact hfiles _ (mem_entries (List.cons_ne_nil _ _) he) child List.mem_cons_self

omit hclear hsome

/-- If no link leads out of a new directory, two file systems with its files agree on what is
touched there, provided that they do on what is looked at on the way to the directory in which
it is made. -/
theorem withDirectory_agree {parent : Path} (habsolute : Path.isAbsolute parent = true)
    (hname : name.IsProper) (h : t.newLocation cwd parent name = .ok directory)
    (h' : t'.newLocation cwd parent name = .ok directory)
    (hway : ∀ l, Sees t (.ofPath cwd parent) l → t'.entry? l = t.entry? l)
    (htouched : Touched (t.withDirectory directory files) cwd (Path.join parent name) directory l) :
    FileTree.entry? (t'.withDirectory directory files) l =
      FileTree.entry? (t.withDirectory directory files) l := by
  obtain ⟨-, loc, hparent, rfl, hclear⟩ := newLocation_eq_ok_iff.mp h
  obtain ⟨-, loc', hparent', heq, hclear'⟩ := newLocation_eq_ok_iff.mp h'
  cases heq
  have hsome := List.cons_ne_nil name loc
  have hself := entry?_withDirectory_self t hsome files
  have hmore := fun l e => entry?_withDirectory_of_some (l := l) (e := e) hclear hsome files
  obtain ⟨hfault, hfollow⟩ := find_eq_ok_iff.mp hparent
  have hopen := find_eq_ok_iff.mpr ⟨hfault, followFrom_of_more hmore hfollow⟩
  have habove : ∀ l, l <:+ loc → t'.entry? l = t.entry? l := fun l hl => by
    rw [directories_of_find habsolute hparent hl, directories_of_find habsolute hparent' hl]
  refine entry?_withDirectory_congr hclear hclear' hsome files ?_
  rcases hstay.touched htouched with hsees | hnear | hbelow
  · -- The path goes to the directory above, and from there to the new one, which is no link.
    rcases sees_of_sees_join hname hopen hsees with hsees | hsees
    · exact .inr (hway l (sees_of_more hmore hfollow hsees))
    · rcases sees_of_noLink hname (by simp [hself]) hsees with rfl | rfl
      · exact .inr (habove l List.suffix_rfl)
      · exact .inl List.suffix_rfl
  · rcases List.suffix_cons_iff.mp hnear with rfl | hnear
    · exact .inl List.suffix_rfl
    · exact .inr (habove l hnear)
  · exact .inl hbelow

end FileTree

end ModuleOutputs
