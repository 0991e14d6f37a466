import ModuleOutputs.Proofs.Walk.Basic

/-!
The directories that a walk gets into, and how. Each of them is at the end of a way from
the root through directories, which its path spells. A walk that lists the files below its
root lists those below every directory that it gets into, and it gets to the end of every
way through names that are not passed over; so where one of these fails there is no list.
-/

namespace ModuleOutputs.FileTree

/-- Whether all names in a file system are ones that an entry can have. -/
def IsNamed (t : FileTree) : Prop :=
  ∀ x ∈ t.entries, ∀ n ∈ x.1, n.IsProper

instance (t : FileTree) : Decidable t.IsNamed := by
  unfold IsNamed
  infer_instance

variable {t : FileTree} {scan : Scan} {cwd loc : Location} {root path : Path} {left : Nat}
  {stack : List Ancestor} {name : Name}

theorem IsNamed.proper (h : t.IsNamed) (hsome : (t.entry? (name :: loc)).isSome = true) :
    name.IsProper := by
  obtain ⟨e, he⟩ := Option.isSome_iff_exists.mp hsome
  exact h _ (mem_entries (List.cons_ne_nil _ _) he) name List.mem_cons_self

theorem IsNamed.put (h : t.IsNamed) (hloc : ∀ n ∈ loc, n.IsProper) (e : Entry) :
    IsNamed (t.put loc e) := by
  rintro x hx
  rcases List.mem_cons.mp hx with rfl | hx
  · exact hloc
  · exact h x (List.mem_of_mem_filter hx)

/-! ## Ways -/

/-- The ways from a directory down through directories: the names on the way, and the
directories that it goes through, the last one first. Each name is that of an entry, which
is followed if it is a link. -/
inductive Way (t : FileTree) (top : Location) : List Name → List Location → Prop
  | top : Way t top [] [top]
  | on {names : List Name} {loc l : Location} {before : List Location} {name : Name}
      (way : Way t top names (loc :: before)) (proper : name.IsProper)
      (leads : t.followFrom (.ofEntry loc name) = .ok (.entry l .directory)) :
      Way t top (names ++ [name]) (l :: loc :: before)

theorem Way.isProper {top : Location} {names : List Name} {locs : List Location}
    (h : Way t top names locs) : ∀ n ∈ names, n.IsProper := by
  induction h with
  | top => nofun
  | on _ proper _ ih => simpa [or_imp, forall_and] using ⟨ih, proper⟩

/-! ## The directories that a walk gets into -/

/-- What a walk knows where it gets into a directory: how many levels there may be below,
the directories that it is inside of then, and the path of this one and its location. -/
inductive Enters (t : FileTree) (scan : Scan) (cwd : Location) (root : Path) :
    Nat → List Ancestor → Path → Location → Prop
  | root {loc : Location} (found : t.find cwd root = .ok (loc, .directory)) :
      Enters t scan cwd root scan.maxDepth [⟨loc, root⟩] root loc
  | on {left : Nat} {stack : List Ancestor} {path : Path} {loc : Location} {d : Entry}
      {name : Name} {v : Visited} (inside : Enters t scan cwd root (left + 1) stack path loc)
      (opened : t.find cwd path = .ok (loc, d))
      (visited : t.visit cwd stack (Path.join path name) loc name = .ok v)
      (kept : scan.excludes name = false) (directory : v.entry = .directory) :
      Enters t scan cwd root left (⟨v.location, v.path⟩ :: stack) v.path v.location

/-- What is found is what stands at its location. -/
theorem entry?_of_find {e : Entry} (h : t.find cwd path = .ok (loc, e)) :
    t.entry? loc = some e :=
  entry?_of_followFrom (find_eq_ok_iff.mp h).2

/-- What is visited is what stands at its location, and the name is that of an entry. -/
theorem entry?_of_visit {v : Visited} (h : t.visit cwd stack path loc name = .ok v) :
    t.entry? v.location = some v.entry ∧ (t.entry? (name :: loc)).isSome = true := by
  cases visit_eq_ok_iff.mp h with
  | entry ahead _ => exact ⟨ahead, by rw [ahead]; rfl⟩
  | link ahead found _ => exact ⟨entry?_of_find found, by rw [ahead]; rfl⟩

theorem Enters.isDirectory (h : Enters t scan cwd root left stack path loc) :
    t.entry? loc = some .directory := by
  cases h with
  | root found => exact entry?_of_find found
  | on _ _ visited _ directory => rw [← directory, (entry?_of_visit visited).1]

theorem Enters.exists_root (h : Enters t scan cwd root left stack path loc) :
    ∃ top, t.find cwd root = .ok (top, .directory) := by
  induction h with
  | root found => exact ⟨_, found⟩
  | on _ _ _ _ _ ih => exact ih

theorem Enters.exists_stack (h : Enters t scan cwd root left stack path loc) :
    ∃ outer, stack = ⟨loc, path⟩ :: outer := by
  cases h <;> exact ⟨_, rfl⟩

theorem Enters.spells (hnamed : t.IsNamed) (h : Enters t scan cwd root left stack path loc) :
    Spells t cwd path loc := by
  cases h with
  | root found => exact spells_of_find found
  | on inside opened visited _ _ =>
      exact spells_of_visit inside.isDirectory (hnamed.proper (entry?_of_visit visited).2) opened
        visited

/-- A directory that a walk gets into is at the end of a way, which its path spells. -/
theorem Enters.way (hnamed : t.IsNamed) {top : Location}
    (htop : t.find cwd root = .ok (top, .directory))
    (h : Enters t scan cwd root left stack path loc) :
    ∃ names, Way t top names (stack.map (·.location)) ∧ path = names.foldl Path.join root ∧
      (∀ n ∈ names, scan.excludes n = false) ∧ left + names.length = scan.maxDepth := by
  induction h with
  | root found =>
      rw [htop] at found
      cases found
      exact ⟨[], .top, rfl, nofun, rfl⟩
  | @on left stack path loc d name v inside opened visited kept directory ih =>
      obtain ⟨names, hway, rfl, hkept, hdepth⟩ := ih
      have hname := hnamed.proper (entry?_of_visit visited).2
      obtain ⟨hpath, hleads⟩ := visit_leads inside.isDirectory hname opened visited
      rw [directory] at hleads
      refine ⟨names ++ [name], ?_, ?_, ?_, ?_⟩
      · obtain ⟨outer, rfl⟩ := inside.exists_stack
        exact hway.on hname hleads
      · rw [hpath, List.foldl_append]
        rfl
      · simpa [or_imp, forall_and] using ⟨hkept, kept⟩
      · rw [List.length_append, List.length_singleton]
        omega

/-! ## Parts of a walk -/

variable {files : List Path}

theorem sourceFiles_eq_ok_iff :
    t.sourceFiles scan cwd root = .ok files ↔
      ∃ loc, t.find cwd root = .ok (loc, .directory) ∧
        t.walkBelow scan cwd scan.maxDepth [⟨loc, root⟩] root loc = .ok files := by
  unfold sourceFiles
  constructor
  · intro h
    split at h
    · next loc hfind => exact ⟨loc, hfind, h⟩
    · cases h
  · rintro ⟨loc, hfind, h⟩
    rw [hfind]
    exact h

/-- A walk below a directory that is there lists files, or fails as walks do. -/
theorem sourceFiles_cases {top : Location} (htop : t.find cwd root = .ok (top, .directory)) :
    (∃ files, t.sourceFiles scan cwd root = .ok files) ∨
      ∃ f, t.sourceFiles scan cwd root = .error f ∧ IsWalkFailure f := by
  have hwalk : t.sourceFiles scan cwd root =
      t.walkBelow scan cwd scan.maxDepth [⟨top, root⟩] root top := by
    rw [sourceFiles, htop]
  rw [hwalk]
  cases hbelow : t.walkBelow scan cwd scan.maxDepth [⟨top, root⟩] root top with
  | ok files => exact .inl ⟨files, rfl⟩
  | error f => exact .inr ⟨f, rfl, isWalkFailure_of_walkBelow hbelow⟩

/-- Where a walk lists the files below its root, it lists those below every directory that
it gets into. -/
theorem Enters.lists (hnamed : t.IsNamed) (hfiles : t.sourceFiles scan cwd root = .ok files)
    (h : Enters t scan cwd root left stack path loc) :
    ∃ below, t.walkBelow scan cwd left stack path loc = .ok below ∧ below ⊆ files := by
  induction h with
  | root found =>
      obtain ⟨loc', hfind, hbelow⟩ := sourceFiles_eq_ok_iff.mp hfiles
      rw [found] at hfind
      cases hfind
      exact ⟨files, hbelow, List.Subset.refl _⟩
  | on inside opened visited kept directory ih =>
      obtain ⟨_, houter, hsubset⟩ := ih
      obtain ⟨-, part, hyields, hpart⟩ :=
        yields_of_walkBelow (inside.spells hnamed) houter (entry?_of_visit visited).2
      exact ⟨part, hyields.below visited kept directory, List.Subset.trans hpart hsubset⟩

/-- Where a walk lists the files below its root, something becomes of every entry of a
directory that it gets into. -/
theorem Enters.yields (hnamed : t.IsNamed) (hfiles : t.sourceFiles scan cwd root = .ok files)
    (h : Enters t scan cwd root (left + 1) stack path loc)
    (hentry : (t.entry? (name :: loc)).isSome = true) :
    (∃ d, t.find cwd path = .ok (loc, d)) ∧
      ∃ part, Yields t scan cwd left stack path loc name part ∧ part ⊆ files := by
  obtain ⟨_, hbelow, hsubset⟩ := h.lists hnamed hfiles
  obtain ⟨hopen, part, hyields, hpart⟩ := yields_of_walkBelow (h.spells hnamed) hbelow hentry
  exact ⟨hopen, part, hyields, List.Subset.trans hpart hsubset⟩

/-- A name that leads to something is that of an entry. -/
theorem isSome_of_leads {l : Location} {e : Entry} (hname : name.IsProper)
    (h : t.followFrom (.ofEntry loc name) = .ok (.entry l e)) :
    (t.entry? (name :: loc)).isSome = true := by
  cases ends_of_followFrom h with
  | later step _ =>
      cases step with
      | here => exact absurd rfl hname.notHere
      | above => exact absurd rfl hname.notAbove
      | link _ _ _ _ ahead => rw [ahead]; rfl
      | entry _ _ _ _ ahead => rw [ahead]; rfl

/-- Where a walk lists the files below its root, it gets to the end of every way through
names that are not passed over. -/
theorem Way.enters (hnamed : t.IsNamed) (hfiles : t.sourceFiles scan cwd root = .ok files)
    {top : Location} (htop : t.find cwd root = .ok (top, .directory)) {names : List Name}
    {before : List Location} (hway : Way t top names (loc :: before))
    (hkept : ∀ n ∈ names, scan.excludes n = false) (hdepth : left + names.length = scan.maxDepth) :
    ∃ stack, stack.map (·.location) = loc :: before ∧
      Enters t scan cwd root left stack (names.foldl Path.join root) loc := by
  generalize hlocs : loc :: before = locs at hway ⊢
  induction hway generalizing loc before left with
  | top =>
      cases hlocs
      obtain rfl : left = scan.maxDepth := hdepth
      exact ⟨_, rfl, .root htop⟩
  | @on names loc' l before' name way proper leads ih =>
      cases hlocs
      have hdepth' : left + 1 + names.length = scan.maxDepth := by
        rw [← hdepth, List.length_append, List.length_singleton]
        omega
      obtain ⟨stack, hstack, henters⟩ :=
        ih (fun n hn => hkept n (List.mem_append_left _ hn)) hdepth' rfl
      obtain ⟨⟨d, hopen⟩, part, hyields, -⟩ :=
        henters.yields hnamed hfiles (isSome_of_leads proper leads)
      -- The walk visits the next directory, and finds there what the name leads to.
      obtain ⟨v, visited⟩ := hyields.visited
      obtain ⟨hpath, hleads⟩ := visit_leads henters.isDirectory proper hopen visited
      rw [leads] at hleads
      obtain ⟨rfl, directory⟩ : l = v.location ∧ Entry.directory = v.entry := by
        simpa using hleads
      have hon := henters.on hopen visited (hkept name (by simp)) directory.symm
      rw [List.foldl_append, ← hstack]
      exact ⟨_, rfl, hpath ▸ hon⟩

end ModuleOutputs.FileTree
