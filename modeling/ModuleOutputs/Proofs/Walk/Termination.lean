import Mathlib
import ModuleOutputs.Proofs.Walk.Entering

/-!
Why a walk ends. A directory that is got into through a link is none of those the walk is
inside of, so there are no more such steps than directories; and between two of them the
walk goes down, at most as far as the file system is high. This bounds how deep directories
are nested in any walk, whatever the greatest depth that it is given, and beyond that bound
the greatest depth makes no difference. A link back to a directory that the walk is inside
of ends it with a failure.
-/

namespace ModuleOutputs.FileTree

open ModuleOutputs.Path (ofText)

variable {t : FileTree} {scan : Scan} {cwd loc : Location} {root path : Path} {left : Nat}
  {stack : List Ancestor} {name : Name}

/-! ## Nesting -/

/-- The greatest number of names on the way from the root to an entry. -/
def height (t : FileTree) : Nat :=
  (t.entries.map fun x => x.1.length).foldr max 0

/-- How many directories a walk may be inside of at once. -/
def nestingBound (t : FileTree) : Nat :=
  (t.entries.length + 1) * (t.height + 1)

/-- The directories that a walk can be inside of at once, the innermost first. -/
inductive Nested (t : FileTree) : List Location → Prop
  | root {loc : Location} (directory : t.entry? loc = some .directory) : Nested t [loc]
  /-- A directory in the innermost one. -/
  | child {loc : Location} {before : List Location} {name : Name}
      (nested : Nested t (loc :: before)) (directory : t.entry? (name :: loc) = some .directory) :
      Nested t ((name :: loc) :: loc :: before)
  /-- A directory that a link leads to. -/
  | link {loc l : Location} {before : List Location} (nested : Nested t (loc :: before))
      (directory : t.entry? l = some .directory) (new : l ∉ loc :: before) :
      Nested t (l :: loc :: before)

theorem length_le_height {e : Entry} (h : t.entry? loc = some e) : loc.length ≤ t.height := by
  by_cases hloc : loc = []
  · simp [hloc]
  · have hmem : loc.length ∈ t.entries.map fun x => x.1.length :=
      List.mem_map.mpr ⟨_, mem_entries hloc h, rfl⟩
    unfold height
    generalize (t.entries.map fun x => x.1.length) = lengths at hmem ⊢
    induction lengths with
    | nil => cases hmem
    | cons k rest ih =>
        rcases List.mem_cons.mp hmem with rfl | hrest
        · exact Nat.le_max_left _ _
        · exact Nat.le_trans (ih hrest) (Nat.le_max_right _ _)

theorem Nested.directory_head {before : List Location} (h : Nested t (loc :: before)) :
    t.entry? loc = some .directory := by
  cases h with
  | root directory | child _ directory | link _ directory _ => exact directory

/-- The first directory and those got into through links are all different, and the
others are counted by the heights that the walk goes down in between. -/
theorem Nested.exists_targets {locs : List Location} (h : Nested t locs) :
    ∃ targets : List Location, targets.Nodup ∧ targets ⊆ locs ∧
      (∀ l ∈ targets, t.entry? l = some .directory) ∧
      ∀ loc before, locs = loc :: before →
        locs.length + t.height ≤ targets.length * (t.height + 1) + loc.length := by
  induction h with
  | @root loc directory =>
      refine ⟨[loc], by simp, List.Subset.refl _, by simpa using directory, ?_⟩
      rintro _ _ ⟨⟩
      simp only [List.length_singleton]
      omega
  | @child loc before name nested directory ih =>
      obtain ⟨targets, hnodup, hsubset, hdirectories, hlength⟩ := ih
      refine ⟨targets, hnodup, List.subset_cons_of_subset _ hsubset, hdirectories, ?_⟩
      rintro _ _ ⟨⟩
      have hbefore := hlength loc before rfl
      rw [List.length_cons, List.length_cons (a := name)]
      omega
  | @link loc l before nested directory new ih =>
      obtain ⟨targets, hnodup, hsubset, hdirectories, hlength⟩ := ih
      refine ⟨l :: targets, List.nodup_cons.mpr ⟨fun hl => new (hsubset hl), hnodup⟩,
        List.cons_subset_cons l hsubset, by simpa using ⟨directory, hdirectories⟩, ?_⟩
      rintro _ _ ⟨⟩
      have hbefore := hlength loc before rfl
      have hheight := length_le_height nested.directory_head
      rw [List.length_cons, List.length_cons (a := l), Nat.succ_mul]
      omega

/-- No more directories are nested than the bound allows. -/
theorem Nested.length_le {locs : List Location} (h : Nested t locs) :
    locs.length ≤ t.nestingBound := by
  obtain ⟨targets, hnodup, hsubset, hdirectories, hlength⟩ := h.exists_targets
  have hcount : targets.length ≤ t.entries.length + 1 := by
    have hsubset' : targets ⊆ [] :: t.entries.map (·.1) := fun l hl => by
      by_cases hnil : l = []
      · simp [hnil]
      · exact List.mem_cons_of_mem _
          (List.mem_map.mpr ⟨_, mem_entries hnil (hdirectories l hl), rfl⟩)
    simpa using (List.subperm_of_subset hnodup hsubset').length_le
  cases locs with
  | nil => exact Nat.zero_le _
  | cons loc before =>
      have hnested := hlength loc before rfl
      have hheight := length_le_height h.directory_head
      have hbound := Nat.mul_le_mul_right (t.height + 1) hcount
      unfold nestingBound
      omega

/-! ## Walks -/

theorem Nested.visit {outer : List Ancestor} {v : Visited}
    (h : Nested t ((⟨loc, path⟩ :: outer : List Ancestor).map (·.location)))
    {p : Path} (visited : t.visit cwd (⟨loc, path⟩ :: outer) p loc name = .ok v)
    (directory : v.entry = .directory) :
    Nested t ((⟨v.location, v.path⟩ :: ⟨loc, path⟩ :: outer : List Ancestor).map (·.location)) := by
  have hplace := (entry?_of_visit visited).1
  rw [directory] at hplace
  cases visit_eq_ok_iff.mp visited with
  | entry ahead _ => exact h.child hplace
  | link _ _ new => exact h.link hplace (new directory)

/-- The directories that a walk is inside of are nested in this way. -/
theorem Enters.nested (h : Enters t scan cwd root left stack path loc) :
    Nested t (stack.map (·.location)) := by
  induction h with
  | root found => exact .root (entry?_of_find found)
  | on inside _ visited _ directory ih =>
      obtain ⟨outer, rfl⟩ := inside.exists_stack
      exact ih.visit visited directory

/-- The source files below a directory, at any depth. `outer` holds the directories that
this one is inside of. -/
def walkFreely (t : FileTree) (excludes : Name → Bool) (cwd : Location) (outer : List Ancestor)
    (path : Path) (loc : Location)
    (h : Nested t ((⟨loc, path⟩ :: outer : List Ancestor).map (·.location))) :
    Except Failure (List Path) := do
  let names ← t.namesAt cwd path loc
  let found ← names.mapM fun name =>
    match visited : t.visit cwd (⟨loc, path⟩ :: outer) (Path.join path name) loc name with
    | .error f => .error f
    | .ok v =>
      if excludes name then .ok []
      else if directory : v.entry = .directory then
        t.walkFreely excludes cwd (⟨loc, path⟩ :: outer) v.path v.location
          (h.visit visited directory)
      else if v.entry.isFile && Path.hasExtension sourceExtension name then .ok [v.path]
      else .ok []
  .ok found.flatten
termination_by t.nestingBound - outer.length
decreasing_by
  -- The directories that the walk is inside of are nested, so there are not more than allowed.
  have hlength := h.length_le
  rw [List.length_map, List.length_cons] at hlength
  rw [List.length_cons]
  omega

/-- The source files below a directory, at any depth, or the failure that prevents a full
list. -/
def allSourceFiles (t : FileTree) (excludes : Name → Bool) (cwd : Location) (root : Path) :
    Except Failure (List Path) :=
  match found : t.find cwd root with
  | .ok (loc, .directory) => t.walkFreely excludes cwd [] root loc (.root (entry?_of_find found))
  | _ => .error (.directoryNotFound root)

/-- A walk that may go as deep as nesting allows is the one without a greatest depth. -/
theorem walkBelow_eq_walkFreely {depth : Nat} {outer : List Ancestor}
    (h : Nested t ((⟨loc, path⟩ :: outer : List Ancestor).map (·.location)))
    (hdepth : t.nestingBound ≤ outer.length + depth) :
    t.walkBelow scan cwd depth (⟨loc, path⟩ :: outer) path loc =
      t.walkFreely scan.excludes cwd outer path loc h := by
  induction depth generalizing loc path outer with
  | zero =>
      -- One more directory than the bound allows would be nested.
      have hlength := h.length_le
      rw [List.length_map, List.length_cons] at hlength
      omega
  | succ depth ih =>
      rw [walkFreely]
      cases hopened : t.namesAt cwd path loc with
      | error f => exact walkBelow_of_unopened hopened
      | ok names =>
          rw [walkBelow_of_opened hopened]
          refine congrArg (Except.map List.flatten) (mapM_congr fun name _ => ?_)
          split
          · next f hv => rw [walkEntry_of_unvisited hv]
          · next v hv =>
              rw [walkEntry_of_visited hv]
              by_cases hdirectory : v.entry = .directory
              · rw [dif_pos hdirectory, if_pos (isDirectory_iff.mpr hdirectory),
                  ih (h.visit hv hdirectory) (by rw [List.length_cons]; omega)]
              · rw [dif_neg hdirectory, if_neg (mt isDirectory_iff.mp hdirectory)]

theorem sourceFiles_eq_allSourceFiles (hdepth : t.nestingBound ≤ scan.maxDepth) :
    t.sourceFiles scan cwd root = t.allSourceFiles scan.excludes cwd root := by
  unfold sourceFiles allSourceFiles
  split
  · next loc hfind =>
      split
      · next loc' hfind' =>
          rw [hfind] at hfind'
          cases hfind'
          exact walkBelow_eq_walkFreely _ (by rw [List.length_nil]; omega)
      · next hother => exact absurd hfind (hother loc)
  · next hother =>
      split
      · next loc hfind => exact absurd hfind (hother loc)
      · rfl

/-! ## Loops -/

/-- Where a link leads back to a directory on the way to it, the walk fails. -/
theorem Way.fails_at_loop (hnamed : t.IsNamed) {top : Location}
    (htop : t.find cwd root = .ok (top, .directory)) {names : List Name}
    {before : List Location} (hway : Way t top names (loc :: before))
    (hkept : ∀ n ∈ names, scan.excludes n = false) (hdepth : names.length < scan.maxDepth)
    {target : Path} (hlink : t.entry? (name :: loc) = some (.link target)) {l : Location}
    (hleads : t.followFrom (.ofEntry loc name) = .ok (.entry l .directory))
    (hloop : l ∈ loc :: before) :
    ∃ f, t.sourceFiles scan cwd root = .error f ∧ IsWalkFailure f := by
  refine (sourceFiles_cases htop).resolve_left ?_
  rintro ⟨files, hfiles⟩
  have hsome : (t.entry? (name :: loc)).isSome = true := by rw [hlink]; rfl
  have hname := hnamed.proper hsome
  -- Otherwise the walk gets to the directory of the link, and can visit the link.
  obtain ⟨left, hleft⟩ := Nat.exists_eq_add_of_lt hdepth
  have hdepth' : left + 1 + names.length = scan.maxDepth := by omega
  obtain ⟨stack, hstack, henters⟩ := hway.enters hnamed hfiles htop hkept hdepth'
  obtain ⟨⟨d, hopen⟩, part, hyields, -⟩ := henters.yields hnamed hfiles hsome
  obtain ⟨v, visited⟩ := hyields.visited
  cases visit_eq_ok_iff.mp visited with
  | entry ahead noLink => exact noLink target (Option.some.inj (ahead.symm.trans hlink))
  | link ahead found new =>
      have hfound := leads_of_find_join hname hopen found
      rw [hleads] at hfound
      cases hfound
      exact new rfl (hstack ▸ hloop)

/-- Any walk ends: it is never inside of more directories than the bound allows, so without
a greatest depth it comes to the same as with any depth from there on, and it fails where
a way leads to a link back to a directory on that way. -/
theorem sourceFiles_ends (t : FileTree) (scan : Scan) (cwd : Location) (root : Path) :
    (∀ left stack path loc, Enters t scan cwd root left stack path loc →
      stack.length ≤ t.nestingBound) ∧
    (t.nestingBound ≤ scan.maxDepth →
      t.sourceFiles scan cwd root = t.allSourceFiles scan.excludes cwd root) ∧
    (t.IsNamed → ∀ top names loc before name target l,
      t.find cwd root = .ok (top, .directory) → Way t top names (loc :: before) →
      (∀ n ∈ names, scan.excludes n = false) → names.length < scan.maxDepth →
      t.entry? (name :: loc) = some (.link target) →
      t.followFrom (.ofEntry loc name) = .ok (.entry l .directory) → l ∈ loc :: before →
        ∃ f, t.sourceFiles scan cwd root = .error f ∧ IsWalkFailure f) := by
  refine ⟨fun _ _ _ _ h => ?_, sourceFiles_eq_allSourceFiles, ?_⟩
  · simpa using h.nested.length_le
  · intro hnamed top names loc before name target l htop hway hkept hdepth hlink hleads hloop
    exact hway.fails_at_loop hnamed htop hkept hdepth hlink hleads hloop

/-- A directory with a link to the one that it is in. -/
def linkOut : FileTree :=
  ⟨[([ofText "work"], .directory), ([ofText "module", ofText "work"], .directory),
    ([ofText "out", ofText "module", ofText "work"], .link (ofText "/work"))]⟩

theorem linkOut_leads :
    linkOut.followFrom (.ofEntry [ofText "module", ofText "work"] (ofText "out")) =
      .ok (.entry [ofText "work"] .directory) := by
  cbv

/-- The way leaves the root by the link and comes back to it through its directory. -/
theorem linkOut_way :
    Way linkOut [ofText "module", ofText "work"] [ofText "out", ofText "module"]
      [[ofText "module", ofText "work"], [ofText "work"], [ofText "module", ofText "work"]] := by
  have hout : Way linkOut [ofText "module", ofText "work"] [ofText "out"]
      [[ofText "work"], [ofText "module", ofText "work"]] :=
    Way.top.on (by decide) linkOut_leads
  exact hout.on (by decide) (by cbv)

theorem sourceFiles_ends_linkOut :
    linkOut.nestingBound ≤ 2 ^ 64 - 1 ∧
      linkOut.IsNamed ∧
      linkOut.find [] (ofText "/work/module") =
        .ok ([ofText "module", ofText "work"], .directory) ∧
      linkOut.sourceFiles ⟨[], 2 ^ 64 - 1⟩ [] (ofText "/work/module") =
        linkOut.allSourceFiles (Scan.excludes ⟨[], 2 ^ 64 - 1⟩) [] (ofText "/work/module") ∧
      ∃ f, linkOut.sourceFiles ⟨[], 2 ^ 64 - 1⟩ [] (ofText "/work/module") = .error f ∧
        IsWalkFailure f := by
  have hbound : linkOut.nestingBound ≤ 2 ^ 64 - 1 := by decide +kernel
  have hnamed : linkOut.IsNamed := by decide +kernel
  have hfind : linkOut.find [] (ofText "/work/module") =
      .ok ([ofText "module", ofText "work"], .directory) := by
    cbv
  have hkept : ∀ n, Scan.excludes ⟨[], 2 ^ 64 - 1⟩ n = false := fun n => by
    unfold Scan.excludes
    cases Text.strict n <;> rfl
  obtain ⟨-, hfree, hloop⟩ := sourceFiles_ends linkOut ⟨[], 2 ^ 64 - 1⟩ [] (ofText "/work/module")
  refine ⟨hbound, hnamed, hfind, hfree hbound, ?_⟩
  exact hloop hnamed _ _ _ _ (ofText "out") (ofText "/work") [ofText "work"] hfind linkOut_way
    (fun n _ => hkept n) (by decide) rfl linkOut_leads (by simp)

end ModuleOutputs.FileTree
