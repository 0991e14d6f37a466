import Mathlib.Data.List.Infix
import ModuleOutputs.Proofs.FileTree.Following
import ModuleOutputs.Proofs.FileTree.Names

/-!
What is looked at on the way to a file below a directory. A path to it goes to the
directory and then from one entry to the next, each of them followed if it is a link. So
nothing is looked at but the way to the directory, the directories that can be reached
from it, and what following their entries looks at.
-/

namespace ModuleOutputs.FileTree

variable {t : FileTree} {root loc l m cwd : Location} {links : Nat} {asDirectory : Bool}
  {name : Name} {rest : List Name} {p : Path}

/-! ## The parts of a path -/

/-- The path ahead of a position comes to its end at a location. -/
inductive Ends (t : FileTree) : Position → Location → Prop
  | here {links : Nat} {loc : Location} {asDirectory : Bool} :
      Ends t ⟨links, loc, asDirectory, []⟩ loc
  | later {p q : Position} {loc : Location} (step : Step t p q) (ends : Ends t q loc) :
      Ends t p loc

theorem Ends.sees {p : Position} (h : Ends t p loc) : Sees t p loc := by
  induction h with
  | here => exact .place
  | later step _ ih => exact .later step ih

theorem Ends.eq_of_followFrom {p : Position} {e : Entry} (h : Ends t p m)
    (hfollow : t.followFrom p = .ok (.entry l e)) : l = m := by
  induction h with
  | here =>
      rw [followFrom_eq] at hfollow
      cases hp : t.advance ⟨_, _, _, []⟩ with
      | arrived r =>
          rw [hp] at hfollow
          subst hfollow
          cases arrival_of_advance hp
          rfl
      | on q => cases advance_eq_on_iff.mp hp
  | later step _ ih => exact ih ((followFrom_of_step step).symm.trans hfollow)

theorem ends_of_followFrom {p : Position} {e : Entry} (h : t.followFrom p = .ok (.entry l e)) :
    Ends t p l := by
  induction h using arrival_induction with
  | arrived q _ harrival =>
      cases harrival
      exact .here
  | on p q _ hstep ih => exact .later hstep ih

theorem Sees.eq_of_nil (h : Sees t ⟨links, loc, asDirectory, []⟩ l) : l = loc := by
  cases h with
  | place => rfl
  | ahead names => cases names
  | later step => cases step

/-- What is looked at along a path is looked at along its first part, or along the rest
of it from where the first part ends. The first part may have more links to follow. -/
theorem Sees.split (names : List Name) (h : Sees t ⟨links, loc, asDirectory, names ++ rest⟩ l)
    {links' : Nat} (asDirectory' : Bool) (hlinks : links ≤ links') :
    Sees t ⟨links', loc, asDirectory', names⟩ l ∨
      ∃ j ≤ links, ∃ m d, Ends t ⟨links', loc, asDirectory', names⟩ m ∧
        Sees t ⟨j, m, d, rest⟩ l := by
  -- By induction on the looking: the two positions take the same steps until the names
  -- of the first part are used up.
  generalize hp : (⟨links, loc, asDirectory, names ++ rest⟩ : Position) = p at h
  induction h generalizing links loc asDirectory names links' asDirectory' with
  | place =>
      subst hp
      exact .inl .place
  | @ahead _ name' rest' hnames =>
      subst hp
      cases names with
      | nil => exact .inr ⟨links, Nat.le_refl _, loc, asDirectory, .here, .ahead hnames⟩
      | cons n ns =>
          cases hnames
          exact .inl (.ahead rfl)
  | @later _ q l step hsees ih =>
      subst hp
      cases names with
      | nil => exact .inr ⟨links, Nat.le_refl _, loc, asDirectory, .here, .later step hsees⟩
      | cons n ns =>
          have hon : ∀ {q' : Position}, Step t ⟨links', loc, asDirectory', n :: ns⟩ q' →
              (Sees t q' l ∨ ∃ j ≤ links, ∃ m d, Ends t q' m ∧ Sees t ⟨j, m, d, rest⟩ l) →
              Sees t ⟨links', loc, asDirectory', n :: ns⟩ l ∨
                ∃ j ≤ links, ∃ m d, Ends t ⟨links', loc, asDirectory', n :: ns⟩ m ∧
                  Sees t ⟨j, m, d, rest⟩ l := by
            rintro q' hstep (hfirst | ⟨j, hj, m, d, hends, hrest⟩)
            · exact .inl (.later hstep hfirst)
            · exact .inr ⟨j, hj, m, d, .later hstep hends, hrest⟩
          cases step with
          | here inside => exact hon (.here inside) (ih ns asDirectory' hlinks rfl)
          | above inside => exact hon (.above inside) (ih ns asDirectory' hlinks rfl)
          | entry inside notHere notAbove short ahead noLink =>
              exact hon (.entry inside notHere notAbove short ahead noLink)
                (ih ns asDirectory' hlinks rfl)
          | @link links _ _ _ _ target inside notHere notAbove short ahead some =>
              obtain ⟨k, rfl⟩ : ∃ k, links' = k + 1 := ⟨links' - 1, by omega⟩
              have hnames := List.append_assoc (Path.names target) ns rest
              refine hon (.link inside notHere notAbove short ahead some) ?_
              refine (ih _ _ (Nat.le_of_succ_le_succ hlinks) (congrArg _ hnames)).imp_right ?_
              rintro ⟨j, hj, hrest⟩
              exact ⟨j, Nat.le_succ_of_le hj, hrest⟩

/-- A name that is no link's leads to the entry of that name. -/
theorem Step.eq_of_noLink {q : Position} (h : Step t ⟨links, loc, asDirectory, name :: rest⟩ q)
    (notHere : name ≠ FileTree.here) (notAbove : name ≠ FileTree.above)
    (noLink : ∀ target, t.entry? (name :: loc) ≠ some (.link target)) :
    q = ⟨links, name :: loc, asDirectory, rest⟩ := by
  cases h with
  | here => exact absurd rfl notHere
  | above => exact absurd rfl notAbove
  | link _ _ _ _ ahead _ => exact absurd ahead (noLink _)
  | entry => rfl

/-- The name of a link leads on to where the link points. -/
theorem Step.eq_of_link {q : Position} {target : Path}
    (h : Step t ⟨links + 1, loc, asDirectory, name :: rest⟩ q) (notHere : name ≠ FileTree.here)
    (notAbove : name ≠ FileTree.above) (ahead : t.entry? (name :: loc) = some (.link target)) :
    ∃ d, q = ⟨links, if Path.isAbsolute target then [] else loc, d, Path.names target ++ rest⟩ := by
  cases h with
  | here => exact absurd rfl notHere
  | above => exact absurd rfl notAbove
  | link _ _ _ _ ahead' _ =>
      obtain rfl : target = _ := by simpa [ahead] using ahead'
      exact ⟨_, rfl⟩
  | entry _ _ _ _ ahead' noLink =>
      exact absurd (Option.some.inj (ahead'.symm.trans ahead)) (noLink _)

/-! ## Straight down -/

/-- Whether a path goes down from the root through directories alone. -/
structure IsDirect (t : FileTree) (p : Path) : Prop where
  absolute : Path.isAbsolute p = true
  down : ∀ n ∈ Path.names p, n ≠ here ∧ n ≠ above
  directories : ∀ l, l <:+ (Path.names p).reverse → t.entry? l = some .directory

theorem isDirect_iff :
    t.IsDirect p ↔ Path.isAbsolute p = true ∧ (∀ n ∈ Path.names p, n ≠ here ∧ n ≠ above) ∧
      ∀ l ∈ (Path.names p).reverse.tails, t.entry? l = some .directory := by
  simp only [List.mem_tails]
  exact ⟨fun h => ⟨h.absolute, h.down, h.directories⟩, fun h => ⟨h.1, h.2.1, h.2.2⟩⟩

instance (t : FileTree) (p : Path) : Decidable (t.IsDirect p) :=
  decidable_of_iff _ isDirect_iff.symm

/-- Going down through directories looks at nothing but these. -/
theorem sees_of_directories {names : List Name} (down : ∀ n ∈ names, n ≠ here ∧ n ≠ above)
    (directories : ∀ l, l <:+ names.reverse ++ loc → t.entry? l = some .directory)
    (h : Sees t ⟨links, loc, asDirectory, names⟩ l) : l <:+ names.reverse ++ loc := by
  induction names generalizing loc with
  | nil =>
      rw [h.eq_of_nil]
      exact List.suffix_rfl
  | cons n ns ih =>
      rw [List.reverse_cons, List.append_assoc, List.singleton_append] at directories ⊢
      obtain ⟨notHere, notAbove⟩ := down n List.mem_cons_self
      have hsuffix : n :: loc <:+ ns.reverse ++ n :: loc := List.suffix_append _ _
      cases h with
      | place => exact (List.suffix_cons n loc).trans hsuffix
      | ahead hnames =>
          cases hnames
          exact hsuffix
      | later step sees =>
          rw [step.eq_of_noLink notHere notAbove (by simp [directories _ hsuffix])] at sees
          exact ih (fun x hx => down x (List.mem_cons_of_mem n hx)) directories sees

/-- A path that goes straight down looks at nothing but the way to its directory. -/
theorem IsDirect.sees (h : t.IsDirect p) (hsees : Sees t (.ofPath cwd p) l) :
    l <:+ (Path.names p).reverse := by
  simp only [Position.ofPath, h.absolute, if_true] at hsees
  have hdown := sees_of_directories h.down (by simpa using h.directories) hsees
  rwa [List.append_nil] at hdown

/-! ## From entry to entry -/

/-- The position from which an entry of a directory is followed. -/
def Position.ofEntry (directory : Location) (name : Name) : Position :=
  ⟨linkLimit, directory, false, [name]⟩

/-- To follow an entry that is no link looks at it and at its directory. -/
theorem sees_of_noLink (proper : name.IsProper)
    (noLink : ∀ target, t.entry? (name :: loc) ≠ some (.link target))
    (h : Sees t ⟨links, loc, asDirectory, [name]⟩ l) : l = loc ∨ l = name :: loc := by
  cases h with
  | place => exact .inl rfl
  | ahead names =>
      cases names
      exact .inr rfl
  | later step sees =>
      rw [step.eq_of_noLink proper.notHere proper.notAbove noLink] at sees
      exact .inr sees.eq_of_nil

/-- An entry that is no link leads to itself. -/
theorem ends_of_noLink (proper : name.IsProper)
    (noLink : ∀ target, t.entry? (name :: loc) ≠ some (.link target))
    (h : Ends t ⟨links, loc, asDirectory, [name]⟩ l) : l = name :: loc := by
  cases h with
  | later step ends =>
      rw [step.eq_of_noLink proper.notHere proper.notAbove noLink] at ends
      exact ends.sees.eq_of_nil

/-- The directories that can be got to from a directory, by going into entries. -/
inductive Reached (t : FileTree) (root : Location) : Location → Prop
  | root : Reached t root root
  | on {loc l : Location} {name : Name} (reached : Reached t root loc) (proper : name.IsProper)
      (leads : t.followFrom (.ofEntry loc name) = .ok (.entry l .directory)) : Reached t root l

/-- The locations that are looked at by way of a path to a directory and below it. -/
inductive Touched (t : FileTree) (cwd : Location) (p : Path) (root : Location) : Location → Prop
  /-- What the path looks at. -/
  | way {l : Location} (sees : Sees t (.ofPath cwd p) l) : Touched t cwd p root l
  /-- What is in the directories that can be got to. -/
  | child {loc : Location} (name : Name) (reached : Reached t root loc) :
      Touched t cwd p root (name :: loc)
  /-- What following these entries looks at. -/
  | on {loc l : Location} {name : Name} (reached : Reached t root loc) (proper : name.IsProper)
      (sees : Sees t (.ofEntry loc name) l) : Touched t cwd p root l

/-- A way from a directory through other directories to an entry. -/
inductive Trail (t : FileTree) : Location → List Name → Prop
  | last {loc : Location} {name : Name} (proper : name.IsProper) : Trail t loc [name]
  | on {loc l : Location} {name : Name} {rest : List Name} (proper : name.IsProper)
      (leads : t.followFrom (.ofEntry loc name) = .ok (.entry l .directory))
      (trail : Trail t l rest) : Trail t loc (name :: rest)

theorem Trail.isProper {names : List Name} (h : Trail t loc names) : ∀ n ∈ names, n.IsProper := by
  induction h with
  | last proper => simpa using proper
  | on proper _ _ ih => simpa using ⟨proper, ih⟩

/-- What can be got to is a directory. -/
theorem Reached.isDirectory (hroot : t.entry? root = some .directory) (h : Reached t root loc) :
    t.entry? loc = some .directory := by
  cases h with
  | root => exact hroot
  | on _ _ leads => exact entry?_of_followFrom leads

/-- Going along a trail looks at nothing but what is touched. -/
theorem Trail.touches {names : List Name} (h : Trail t loc names) (hreached : Reached t root loc)
    (hlinks : links ≤ linkLimit) (hsees : Sees t ⟨links, loc, asDirectory, names⟩ l) :
    Touched t cwd p root l := by
  -- Each entry on the trail is followed with no more links than it could be on its own.
  induction h generalizing links asDirectory with
  | @last loc name proper =>
      rcases hsees.split [name] false hlinks with hfirst | ⟨j, _, m, d, hends, hrest⟩
      · exact .on hreached proper hfirst
      · rw [hrest.eq_of_nil]
        exact .on hreached proper hends.sees
  | @on loc l' name rest proper leads _ ih =>
      rcases hsees.split [name] false hlinks with hfirst | ⟨j, hj, m, d, hends, hrest⟩
      · exact .on hreached proper hfirst
      · obtain rfl := hends.eq_of_followFrom leads
        exact ih (.on hreached proper leads) (Nat.le_trans hj hlinks) hrest

end ModuleOutputs.FileTree
