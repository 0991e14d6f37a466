import ModuleOutputs.Proofs.FileTree.Trail

/-!
Paths with one more name. Such a path goes where the shorter one goes, and from there to
the entry of that name, for which fewer links may be left to follow. So what it leads to
is what the entry leads to on its own, and what is looked at on the way is looked at along
the shorter path or behind the entry.
-/

namespace ModuleOutputs

namespace Path

/-- A path that ends with the name of an entry is not spelled as that of a directory. -/
theorem endsInSlash_join {p : Path} {n : Name} (hp : p ≠ []) (h : n.IsProper) :
    endsInSlash (join p n) = false := by
  obtain ⟨front, b, rfl⟩ := (List.eq_nil_or_concat n).resolve_left h.notEmpty
  have hb : b ≠ slash := fun hb => h.noSlash (by simp [hb])
  rw [endsInSlash, join_of_isProper hp h]
  split <;> simp [List.getLast?_append, List.getLast?_cons, hb]

end Path

namespace FileTree

variable {t : FileTree} {loc l m : Location} {links : Nat} {asDirectory : Bool}
  {name : Name} {names rest : List Name} {cwd : Location} {path : Path} {e : Entry}

/-! ## The parts of a path -/

/-- A path that leads to a spot leads there by way of the end of its first part. That part
may have more links to follow. -/
theorem followFrom_split {spot : Spot} (names : List Name) (hrest : rest ≠ [])
    (h : t.followFrom ⟨links, loc, asDirectory, names ++ rest⟩ = .ok spot)
    {links' : Nat} (asDirectory' : Bool) (hlinks : links ≤ links') :
    ∃ j ≤ links, ∃ m, Ends t ⟨links', loc, asDirectory', names⟩ m ∧
      t.followFrom ⟨j, m, asDirectory, rest⟩ = .ok spot := by
  generalize hp : (⟨links, loc, asDirectory, names ++ rest⟩ : Position) = p at h
  induction h using arrival_induction generalizing links loc names links' asDirectory' with
  | arrived q h harrival =>
      subst hp
      cases names with
      | nil => exact ⟨links, Nat.le_refl _, loc, .here, h⟩
      | cons n ns =>
          exfalso
          generalize hq : (⟨links, loc, asDirectory, n :: ns ++ rest⟩ : Position) = q at harrival
          cases harrival with
          | entry => cases hq
          | vacant =>
              cases ns <;> simp_all
  | on q q' h hstep ih =>
      subst hp
      cases names with
      | nil => exact ⟨links, Nat.le_refl _, loc, .here, (followFrom_of_step hstep).trans h⟩
      | cons n ns =>
          have hon : ∀ {q : Position}, Step t ⟨links', loc, asDirectory', n :: ns⟩ q →
              (∃ j ≤ links, ∃ m, Ends t q m ∧ t.followFrom ⟨j, m, asDirectory, rest⟩ = .ok spot) →
              ∃ j ≤ links, ∃ m, Ends t ⟨links', loc, asDirectory', n :: ns⟩ m ∧
                t.followFrom ⟨j, m, asDirectory, rest⟩ = .ok spot := by
            rintro q hstep ⟨j, hj, m, hends, hfollow⟩
            exact ⟨j, hj, m, .later hstep hends, hfollow⟩
          cases hstep with
          | here inside => exact hon (.here inside) (ih ns asDirectory' hlinks rfl)
          | above inside => exact hon (.above inside) (ih ns asDirectory' hlinks rfl)
          | entry inside notHere notAbove short ahead noLink =>
              exact hon (.entry inside notHere notAbove short ahead noLink)
                (ih ns asDirectory' hlinks rfl)
          | @link links _ _ _ _ target inside notHere notAbove short ahead some =>
              obtain ⟨k, rfl⟩ : ∃ k, links' = k + 1 := ⟨links' - 1, by omega⟩
              have hkind : (if (ns.append rest).isEmpty then asDirectory || Path.endsInSlash target
                  else asDirectory) = asDirectory := by simp [hrest]
              have hnames := List.append_assoc (Path.names target) ns rest
              obtain ⟨j, hj, hends⟩ := ih _ _ (Nat.le_of_succ_le_succ hlinks)
                (by rw [hkind]; exact congrArg _ hnames)
              exact hon (.link inside notHere notAbove short ahead some)
                ⟨j, Nat.le_succ_of_le hj, hends⟩

/-- A path that leads to a spot leads there also with more links to follow. -/
theorem followFrom_mono {spot : Spot} {links' : Nat} (hlinks : links ≤ links')
    (h : t.followFrom ⟨links, loc, asDirectory, names⟩ = .ok spot) :
    t.followFrom ⟨links', loc, asDirectory, names⟩ = .ok spot := by
  generalize hp : (⟨links, loc, asDirectory, names⟩ : Position) = p at h
  induction h using arrival_induction generalizing links loc asDirectory names links' with
  | arrived q h harrival =>
      subst hp
      -- Where one arrives does not depend on the links that are left.
      cases harrival with
      | entry => rwa [followFrom_eq, advance] at h ⊢
      | vacant inside notHere notAbove short ahead =>
          simp [followFrom_eq, advance, inside, notHere, notAbove, Nat.not_lt.mpr short, ahead]
  | on q q' h hstep ih =>
      subst hp
      cases hstep with
      | here inside => rw [followFrom_of_step (.here inside), ih hlinks rfl]
      | above inside => rw [followFrom_of_step (.above inside), ih hlinks rfl]
      | entry inside notHere notAbove short ahead noLink =>
          rw [followFrom_of_step (.entry inside notHere notAbove short ahead noLink),
            ih hlinks rfl]
      | link inside notHere notAbove short ahead some =>
          obtain ⟨k, rfl⟩ : ∃ k, links' = k + 1 := ⟨links' - 1, by omega⟩
          rw [followFrom_of_step (.link inside notHere notAbove short ahead some),
            ih (Nat.le_of_succ_le_succ hlinks) rfl]

/-- What is looked at with fewer links to follow is looked at with more. -/
theorem Sees.mono {links' : Nat} (hlinks : links ≤ links')
    (h : Sees t ⟨links, loc, asDirectory, names⟩ l) (asDirectory' : Bool) :
    Sees t ⟨links', loc, asDirectory', names⟩ l := by
  rw [← List.append_nil names] at h
  rcases h.split names asDirectory' hlinks with hfirst | ⟨j, _, m, d, hends, hrest⟩
  · exact hfirst
  · rw [hrest.eq_of_nil]
    exact hends.sees

/-! ## One more name -/

theorem find_eq_ok_iff :
    t.find cwd path = .ok (l, e) ↔
      pathFault? path = none ∧ t.followFrom (.ofPath cwd path) = .ok (.entry l e) := by
  rw [find, locate_eq]
  cases pathFault? path with
  | some fault => simp
  | none =>
      cases t.followFrom (.ofPath cwd path) with
      | error fault => simp
      | ok spot => cases spot <;> simp

theorem Position.ofPath_join (cwd : Location) (hpath : path ≠ []) (hname : name.IsProper) :
    Position.ofPath cwd (Path.join path name) =
      ⟨linkLimit, (Position.ofPath cwd path).location, false, Path.names path ++ [name]⟩ := by
  rw [Position.ofPath, Path.names_join hpath hname, Path.endsInSlash_join hpath hname,
    Path.isAbsolute_join hpath hname]
  rfl

theorem ne_nil_of_find {found : Location × Entry} (h : t.find cwd path = .ok found) :
    path ≠ [] := by
  rintro rfl
  have hfault := (find_eq_ok_iff.mp h).1
  simp [pathFault?] at hfault

/-- What the path of an entry leads to is what the entry leads to on its own. -/
theorem leads_of_find_join {d : Entry} (hname : name.IsProper)
    (hopen : t.find cwd path = .ok (loc, d))
    (h : t.find cwd (Path.join path name) = .ok (l, e)) :
    t.followFrom (.ofEntry loc name) = .ok (.entry l e) := by
  have hjoined := (find_eq_ok_iff.mp h).2
  rw [Position.ofPath_join cwd (ne_nil_of_find hopen) hname] at hjoined
  obtain ⟨j, hj, m, hends, hrest⟩ :=
    followFrom_split _ (List.cons_ne_nil _ _) hjoined (Path.endsInSlash path) (Nat.le_refl _)
  obtain rfl := Ends.eq_of_followFrom hends (find_eq_ok_iff.mp hopen).2
  exact followFrom_mono hj hrest

/-- What the path of an entry looks at is looked at on the way to its directory or
behind the entry. -/
theorem sees_of_sees_join {d : Entry} (hname : name.IsProper)
    (hopen : t.find cwd path = .ok (loc, d))
    (h : Sees t (.ofPath cwd (Path.join path name)) l) :
    Sees t (.ofPath cwd path) l ∨ Sees t (.ofEntry loc name) l := by
  rw [Position.ofPath_join cwd (ne_nil_of_find hopen) hname] at h
  rcases h.split _ (Path.endsInSlash path) (Nat.le_refl _) with hfirst | ⟨j, hj, m, d, hends, hrest⟩
  · exact .inl hfirst
  · obtain rfl := Ends.eq_of_followFrom hends (find_eq_ok_iff.mp hopen).2
    exact .inr (hrest.mono hj false)

/-! ## Agreement -/

/-- A path leads to the same in file systems that agree on what it looks at. -/
theorem find_congr {t' : FileTree}
    (h : ∀ l, Sees t (.ofPath cwd path) l → t'.entry? l = t.entry? l) :
    t'.find cwd path = t.find cwd path := by
  rw [find, find, locate_eq, locate_eq, followFrom_congr h]

/-- In file systems that agree on what is touched below a directory, a trail from there
leads to the same content. -/
theorem read_congr {t' : FileTree} {root : Location}
    (hopen : t.find cwd path = .ok (root, .directory)) (htrail : Trail t root names)
    (hagree : ∀ l, Touched t cwd path root l → t'.entry? l = t.entry? l) :
    t'.read cwd (names.foldl Path.join path) = t.read cwd (names.foldl Path.join path) := by
  have hsome := ne_nil_of_find hopen
  rw [read, read, find_congr fun l hl => hagree l ?_]
  rw [Position.ofPath, Path.names_foldl_join hsome htrail.isProper,
    Path.isAbsolute_foldl_join hsome htrail.isProper] at hl
  rcases hl.split _ (Path.endsInSlash path) (Nat.le_refl _) with hway | ⟨j, hj, m, d, hends, hrest⟩
  · exact .way hway
  · obtain rfl := Ends.eq_of_followFrom hends (find_eq_ok_iff.mp hopen).2
    exact htrail.touches .root hj hrest

end FileTree

end ModuleOutputs
