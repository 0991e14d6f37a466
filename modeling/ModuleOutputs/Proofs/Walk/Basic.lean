import Mathlib.Data.List.Forall2
import ModuleOutputs.Proofs.FileTree.Joining
import ModuleOutputs.Walk

/-!
One step of a walk: a directory is opened by its path, each of its entries is visited, and
an entry that is not passed over is gone into, listed or left out. What is visited is what
the name leads to, and the path of an entry leads nowhere else; so where a walk is inside
of a directory its path leads to that directory.
-/

namespace ModuleOutputs.FileTree

/-! ## Directories -/

theorem nodup_eraseDups (names : List Name) : names.eraseDups.Nodup := by
  induction hlength : names.length using Nat.strongRecOn generalizing names with
  | ind k ih =>
      cases names with
      | nil => exact List.nodup_nil
      | cons name rest =>
          rw [List.eraseDups_cons, List.nodup_cons]
          refine ⟨fun hmem => ?_, ih _ ?_ _ rfl⟩
          · simp at hmem
          · have hfilter := List.length_filter_le (fun b => !b == name) rest
            rw [List.length_cons] at hlength
            omega

theorem nodup_listed (t : FileTree) (directory : Location) : (t.listed directory).Nodup :=
  nodup_eraseDups _

theorem mem_listed {t : FileTree} {directory : Location} {name : Name} :
    name ∈ t.listed directory ↔ (t.entry? (name :: directory)).isSome = true := by
  rw [entry?_of_ne_nil t (List.cons_ne_nil name directory), Option.isSome_map, List.find?_isSome]
  simp only [listed, List.mem_eraseDups, List.mem_filterMap]
  constructor
  · rintro ⟨⟨_ | ⟨n, parent⟩, e⟩, hmem, hname⟩
    · cases hname
    · obtain ⟨rfl, rfl⟩ : parent = directory ∧ n = name := by simpa using hname
      exact ⟨_, hmem, by simp⟩
  · rintro ⟨⟨l, e⟩, hmem, hname⟩
    obtain rfl : l = name :: directory := by simpa using hname
    exact ⟨_, hmem, by simp⟩

theorem nameLe_iff {a b : Name} : nameLe a b = true ↔ a ≤ b := by
  simp [nameLe]

theorem pairwise_mergeSort_nameLe :
    ∀ names : List Name, (names.mergeSort nameLe).Pairwise fun a b => nameLe a b = true :=
  List.pairwise_mergeSort
    (fun a b c hab hbc => nameLe_iff.mpr (List.le_trans (nameLe_iff.mp hab) (nameLe_iff.mp hbc)))
    fun a b => by simpa [nameLe_iff] using List.le_total a b

/-- The names in a directory are those of its entries, in their order. -/
theorem children_congr {t t' : FileTree} {directory : Location}
    (h : ∀ name, t'.entry? (name :: directory) = t.entry? (name :: directory)) :
    t'.children directory = t.children directory := by
  have hlisted : (t'.listed directory).Perm (t.listed directory) :=
    (List.perm_ext_iff_of_nodup (nodup_listed _ _) (nodup_listed _ _)).mpr fun name => by
      rw [mem_listed, mem_listed, h]
  -- Lists that hold the same names once each, in order, are the same list.
  have hperm :=
    ((List.mergeSort_perm _ nameLe).trans hlisted).trans (List.mergeSort_perm _ nameLe).symm
  refine hperm.eq_of_pairwise (fun a b _ _ hab hba => ?_) (pairwise_mergeSort_nameLe _)
    (pairwise_mergeSort_nameLe _)
  exact List.le_antisymm (nameLe_iff.mp hab) (nameLe_iff.mp hba)

theorem nodup_children (t : FileTree) (directory : Location) : (t.children directory).Nodup :=
  (List.mergeSort_perm _ nameLe).nodup_iff.mpr (nodup_listed t directory)

/-- No name comes twice in a directory, and a lesser one comes first. -/
theorem children_sorted (t : FileTree) (directory : Location) :
    (t.children directory).Pairwise (· < ·) := by
  refine ((pairwise_mergeSort_nameLe _).and (nodup_children t directory)).imp fun {a b} h => ?_
  by_contra hlt
  exact h.2 (List.le_antisymm (nameLe_iff.mp h.1) (List.not_lt.mp hlt))

theorem mem_children {t : FileTree} {directory : Location} {name : Name} :
    name ∈ t.children directory ↔ (t.entry? (name :: directory)).isSome = true := by
  rw [children, List.mem_mergeSort, mem_listed]

/-! ## Entries -/

variable {t t' : FileTree} {root loc cwd cwd' : Location} {scan : Scan} {stack : List Ancestor}
  {path : Path} {name : Name}

theorem isDirectory_iff {e : Entry} : e.isDirectory = true ↔ e = .directory := by
  cases e <;> simp [Entry.isDirectory]

/-- An entry that is no link leads to itself. -/
theorem leads_of_noLink {e : Entry} (hinside : t.entry? loc = some .directory)
    (hname : name.IsProper) (hentry : t.entry? (name :: loc) = some e)
    (hlink : ∀ target, e ≠ .link target) :
    t.followFrom (.ofEntry loc name) = .ok (.entry (name :: loc) e) := by
  have hstep : Step t (.ofEntry loc name) ⟨linkLimit, name :: loc, false, []⟩ :=
    .entry hinside hname.notHere hname.notAbove hname.short hentry hlink
  rw [followFrom_of_step hstep, followFrom_eq]
  simp [advance, hentry]

/-- The two ways to visit an entry: it is no link, or it is a link that leads to something
other than a directory the walk is inside of. -/
inductive Visits (t : FileTree) (cwd : Location) (stack : List Ancestor) (path : Path)
    (loc : Location) (name : Name) : Visited → Prop
  | entry {e : Entry} (ahead : t.entry? (name :: loc) = some e)
      (noLink : ∀ target, e ≠ .link target) :
      Visits t cwd stack path loc name ⟨path, name :: loc, e⟩
  | link {target : Path} {l : Location} {e : Entry}
      (ahead : t.entry? (name :: loc) = some (.link target))
      (found : t.find cwd path = .ok (l, e))
      (new : e = .directory → l ∉ stack.map (·.location)) :
      Visits t cwd stack path loc name ⟨path, l, e⟩

theorem visit_eq_ok_iff {v : Visited} :
    t.visit cwd stack path loc name = .ok v ↔ Visits t cwd stack path loc name v := by
  constructor
  · intro h
    unfold visit at h
    split at h
    · cases h
    · next ahead =>
        split at h
        · cases h
        · next l e found =>
            split at h
            · cases h
            · next hnew =>
                cases h
                refine .link ahead found fun hdirectory hmem => ?_
                obtain ⟨a, ha, rfl⟩ := List.mem_map.mp hmem
                obtain ⟨b, hb⟩ := Option.isSome_iff_exists.mp
                  (List.find?_isSome.mpr ⟨a, ha, decide_eq_true rfl⟩ :
                    (stack.find? fun b => decide (b.location = a.location)).isSome = true)
                exact hnew b (by rw [hdirectory]; rfl) hb
    · next hlink ahead =>
        cases h
        exact .entry ahead hlink
  · rintro (⟨ahead, noLink⟩ | ⟨ahead, found, new⟩)
    · unfold visit
      rw [ahead]
      split
      · next h => cases h
      · next h => exact absurd (Option.some.inj h) (noLink _)
      · next h => rw [Option.some.inj h]
    · next l e =>
        have hnone : e.isDirectory = true →
            (stack.find? fun a => decide (a.location = l)) = none := by
          intro hdirectory
          rw [List.find?_eq_none]
          intro a ha heq
          exact new (isDirectory_iff.mp hdirectory)
            (List.mem_map.mpr ⟨a, ha, of_decide_eq_true heq⟩)
        rw [visit, ahead]
        simp only [found]
        split
        · next a hdirectory ha =>
            rw [hnone hdirectory] at ha
            cases ha
        · rfl

theorem visit_path {v : Visited} (h : t.visit cwd stack path loc name = .ok v) :
    v.path = path := by
  cases visit_eq_ok_iff.mp h <;> rfl

/-- An entry that is visited is what its name leads to. -/
theorem visit_leads {v : Visited} {d : Entry} (hinside : t.entry? loc = some .directory)
    (hname : name.IsProper) (hopen : t.find cwd path = .ok (loc, d))
    (h : t.visit cwd stack (Path.join path name) loc name = .ok v) :
    v.path = Path.join path name ∧
      t.followFrom (.ofEntry loc name) = .ok (.entry v.location v.entry) := by
  cases visit_eq_ok_iff.mp h with
  | entry ahead noLink => exact ⟨rfl, leads_of_noLink hinside hname ahead noLink⟩
  | link _ found _ => exact ⟨rfl, leads_of_find_join hname hopen found⟩

theorem visit_congr (hahead : t'.entry? (name :: loc) = t.entry? (name :: loc))
    (hfind : t'.find cwd' path = t.find cwd path) :
    t'.visit cwd' stack path loc name = t.visit cwd stack path loc name := by
  unfold visit
  rw [hahead, hfind]

/-- Whether a path that leads to anything leads to a location. -/
def Spells (t : FileTree) (cwd : Location) (path : Path) (loc : Location) : Prop :=
  ∀ l e, t.find cwd path = .ok (l, e) → l = loc

/-- The path of an entry that is visited leads nowhere else. -/
theorem spells_of_visit {v : Visited} {d : Entry} (hinside : t.entry? loc = some .directory)
    (hname : name.IsProper) (hopen : t.find cwd path = .ok (loc, d))
    (h : t.visit cwd stack (Path.join path name) loc name = .ok v) :
    Spells t cwd v.path v.location := by
  obtain ⟨hpath, hleads⟩ := visit_leads hinside hname hopen h
  intro l e hfind
  rw [hpath] at hfind
  rw [leads_of_find_join hname hopen hfind] at hleads
  cases hleads
  rfl

/-- A directory is opened where its path leads to it. -/
theorem find_of_namesAt {names : List Name} (hspells : Spells t cwd path loc)
    (h : t.namesAt cwd path loc = .ok names) :
    names = t.children loc ∧ ∃ d, t.find cwd path = .ok (loc, d) := by
  unfold namesAt at h
  split at h
  · cases h
  · next found hfind =>
      cases h
      obtain ⟨l, d⟩ := found
      obtain rfl := hspells l d hfind
      exact ⟨rfl, d, hfind⟩

/-- A directory that is found is where its path leads. -/
theorem spells_of_find {e : Entry} (h : t.find cwd path = .ok (loc, e)) :
    Spells t cwd path loc := by
  intro l e' h'
  rw [h] at h'
  cases h'
  rfl

/-! ## Steps -/

theorem mapM_congr {ε α β : Type} {f g : α → Except ε β} {l : List α}
    (h : ∀ a ∈ l, f a = g a) : l.mapM f = l.mapM g := by
  induction l with
  | nil => rfl
  | cons a rest ih =>
      rw [List.mapM_cons, List.mapM_cons, h a List.mem_cons_self,
        ih fun b hb => h b (List.mem_cons_of_mem a hb)]

theorem mapM_eq_ok_iff {ε α β : Type} {f : α → Except ε β} {l : List α} {found : List β} :
    l.mapM f = .ok found ↔ List.Forall₂ (fun a b => f a = .ok b) l found := by
  induction l generalizing found with
  | nil =>
      rw [List.mapM_nil, List.forall₂_nil_left_iff]
      constructor
      · rintro ⟨⟩
        rfl
      · rintro rfl
        rfl
  | cons a rest ih =>
      rw [List.mapM_cons, List.forall₂_cons_left_iff]
      constructor
      · intro h
        cases ha : f a with
        | error e =>
            rw [ha] at h
            cases h
        | ok b =>
            cases hrest : rest.mapM f with
            | error e =>
                rw [ha, hrest] at h
                cases h
            | ok bs =>
                rw [ha, hrest] at h
                cases h
                exact ⟨b, bs, rfl, ih.mp hrest, rfl⟩
      · rintro ⟨b, bs, ha, hrest, rfl⟩
        rw [ha, ih.mpr hrest]
        rfl

theorem flatten_mapM_cons {ε α β : Type} (f : α → Except ε (List β)) (a : α) (rest : List α) :
    ((a :: rest).mapM f).map List.flatten =
      (f a).bind fun first => ((rest.mapM f).map List.flatten).map (first ++ ·) := by
  rw [List.mapM_cons]
  cases f a with
  | error e => rfl
  | ok first => cases rest.mapM f <;> rfl

theorem exists_of_forall₂ {α β : Type} {r : α → β → Prop} {l : List α} {found : List β}
    (h : List.Forall₂ r l found) {b : β} (hb : b ∈ found) : ∃ a ∈ l, r a b := by
  induction h with
  | nil => cases hb
  | cons hr _ ih =>
      rcases List.mem_cons.mp hb with rfl | hb
      · exact ⟨_, List.mem_cons_self, hr⟩
      · obtain ⟨a, ha, hr⟩ := ih hb
        exact ⟨a, List.mem_cons_of_mem _ ha, hr⟩

theorem exists_of_forall₂_left {α β : Type} {r : α → β → Prop} {l : List α} {found : List β}
    (h : List.Forall₂ r l found) {a : α} (ha : a ∈ l) : ∃ b ∈ found, r a b := by
  obtain ⟨b, hb, hr⟩ := exists_of_forall₂ h.flip ha
  exact ⟨b, hb, hr⟩

theorem exists_of_mapM_error {ε α β : Type} {f : α → Except ε β} {l : List α} {e : ε}
    (h : l.mapM f = .error e) : ∃ a ∈ l, f a = .error e := by
  induction l with
  | nil => cases h
  | cons a rest ih =>
      rw [List.mapM_cons] at h
      cases ha : f a with
      | error e' =>
          rw [ha] at h
          cases h
          exact ⟨a, List.mem_cons_self, ha⟩
      | ok b =>
          cases hrest : rest.mapM f with
          | error e' =>
              rw [ha, hrest] at h
              cases h
              obtain ⟨a', ha', he⟩ := ih hrest
              exact ⟨a', List.mem_cons_of_mem a ha', he⟩
          | ok bs =>
              rw [ha, hrest] at h
              cases h

/-- What an entry of a directory contributes to a walk. -/
def walkEntry (t : FileTree) (scan : Scan) (cwd : Location) (depth : Nat) (stack : List Ancestor)
    (path : Path) (loc : Location) (name : Name) : Except Failure (List Path) := do
  let v ← t.visit cwd stack (Path.join path name) loc name
  if scan.excludes name then .ok []
  else if v.entry.isDirectory then
    walkBelow t scan cwd depth (⟨v.location, v.path⟩ :: stack) v.path v.location
  else if v.entry.isFile && Path.hasExtension sourceExtension name then .ok [v.path]
  else .ok []

variable {depth : Nat} {names : List Name} {files : List Path} {f : Failure}

theorem walkBelow_of_opened (h : t.namesAt cwd path loc = .ok names) :
    t.walkBelow scan cwd (depth + 1) stack path loc =
      (names.mapM (t.walkEntry scan cwd depth stack path loc)).map List.flatten := by
  rw [walkBelow, h]
  rfl

theorem walkBelow_of_unopened (h : t.namesAt cwd path loc = .error f) :
    t.walkBelow scan cwd (depth + 1) stack path loc = .error f := by
  rw [walkBelow, h]
  rfl

/-- The four things that can become of an entry, and the files that come of it. -/
inductive Yields (t : FileTree) (scan : Scan) (cwd : Location) (depth : Nat)
    (stack : List Ancestor) (path : Path) (loc : Location) (name : Name) : List Path → Prop
  | passedOver {v : Visited} (visited : t.visit cwd stack (Path.join path name) loc name = .ok v)
      (excluded : scan.excludes name = true) : Yields t scan cwd depth stack path loc name []
  | entered {v : Visited} {files : List Path}
      (visited : t.visit cwd stack (Path.join path name) loc name = .ok v)
      (kept : scan.excludes name = false) (directory : v.entry = .directory)
      (below : t.walkBelow scan cwd depth (⟨v.location, v.path⟩ :: stack) v.path v.location =
        .ok files) : Yields t scan cwd depth stack path loc name files
  | listed {v : Visited} (visited : t.visit cwd stack (Path.join path name) loc name = .ok v)
      (kept : scan.excludes name = false) (file : v.entry.isFile = true)
      (source : Path.hasExtension sourceExtension name = true) :
      Yields t scan cwd depth stack path loc name [v.path]
  | leftOut {v : Visited} (visited : t.visit cwd stack (Path.join path name) loc name = .ok v)
      (kept : scan.excludes name = false) (noDirectory : v.entry ≠ .directory)
      (noSource : v.entry.isFile = true → Path.hasExtension sourceExtension name = false) :
      Yields t scan cwd depth stack path loc name []

theorem walkEntry_of_visited {v : Visited}
    (h : t.visit cwd stack (Path.join path name) loc name = .ok v) :
    t.walkEntry scan cwd depth stack path loc name =
      if scan.excludes name then .ok []
      else if v.entry.isDirectory then
        t.walkBelow scan cwd depth (⟨v.location, v.path⟩ :: stack) v.path v.location
      else if v.entry.isFile && Path.hasExtension sourceExtension name then .ok [v.path]
      else .ok [] := by
  rw [walkEntry, h]
  rfl

theorem walkEntry_of_unvisited (h : t.visit cwd stack (Path.join path name) loc name = .error f) :
    t.walkEntry scan cwd depth stack path loc name = .error f := by
  rw [walkEntry, h]
  rfl

theorem walkEntry_eq_ok_iff :
    t.walkEntry scan cwd depth stack path loc name = .ok files ↔
      Yields t scan cwd depth stack path loc name files := by
  constructor
  · intro h
    cases hv : t.visit cwd stack (Path.join path name) loc name with
    | error f =>
        rw [walkEntry_of_unvisited hv] at h
        cases h
    | ok v =>
        rw [walkEntry_of_visited hv] at h
        split at h
        · next hexcluded =>
            cases h
            exact .passedOver hv hexcluded
        next hkept =>
        rw [Bool.not_eq_true] at hkept
        split at h
        · next hdirectory => exact .entered hv hkept (isDirectory_iff.mp hdirectory) h
        next hnone =>
        rw [isDirectory_iff] at hnone
        split at h
        · next hsource =>
            cases h
            rw [Bool.and_eq_true] at hsource
            exact .listed hv hkept hsource.1 hsource.2
        · next hno =>
            cases h
            exact .leftOut hv hkept hnone fun hfile => by simpa [hfile] using hno
  · rintro (⟨hv, hexcluded⟩ | ⟨hv, hkept, hdirectory, hbelow⟩ | ⟨hv, hkept, hfile, hsource⟩ |
      ⟨hv, hkept, hnone, hno⟩)
    · simp [walkEntry_of_visited hv, hexcluded]
    · simp [walkEntry_of_visited hv, hkept, hdirectory, Entry.isDirectory, hbelow]
    · next v =>
        have hnone : v.entry.isDirectory = false := by
          cases hentry : v.entry <;> simp_all [Entry.isFile, Entry.isDirectory]
        simp [walkEntry_of_visited hv, hkept, hnone, hfile, hsource]
    · next v =>
        have hnone' : v.entry.isDirectory = false := by simpa [← isDirectory_iff] using hnone
        simpa [walkEntry_of_visited hv, hkept, hnone'] using hno

/-- A walk below a directory lists the files that come of its entries, one entry after
the other. -/
theorem walkBelow_eq_ok_iff (hspells : Spells t cwd path loc) :
    t.walkBelow scan cwd (depth + 1) stack path loc = .ok files ↔
      (∃ d, t.find cwd path = .ok (loc, d)) ∧
        ∃ found, List.Forall₂ (Yields t scan cwd depth stack path loc) (t.children loc) found ∧
          files = found.flatten := by
  cases hopened : t.namesAt cwd path loc with
  | error f =>
      rw [walkBelow_of_unopened hopened]
      refine ⟨nofun, ?_⟩
      rintro ⟨⟨d, hopen⟩, -⟩
      rw [namesAt, hopen] at hopened
      cases hopened
  | ok names =>
      obtain ⟨rfl, hopen⟩ := find_of_namesAt hspells hopened
      have hyields : ∀ found, List.Forall₂ (Yields t scan cwd depth stack path loc)
          (t.children loc) found ↔
            (t.children loc).mapM (t.walkEntry scan cwd depth stack path loc) = .ok found :=
        fun found => by simp only [mapM_eq_ok_iff, walkEntry_eq_ok_iff]
      simp only [walkBelow_of_opened hopened, and_iff_right hopen, hyields]
      cases (t.children loc).mapM (t.walkEntry scan cwd depth stack path loc) with
      | error f => simp [Except.map]
      | ok found => simp [Except.map, eq_comm]

/-- Where a walk lists the files below a directory, something becomes of every entry. -/
theorem yields_of_walkBelow (hspells : Spells t cwd path loc)
    (h : t.walkBelow scan cwd (depth + 1) stack path loc = .ok files)
    (hentry : (t.entry? (name :: loc)).isSome = true) :
    (∃ d, t.find cwd path = .ok (loc, d)) ∧
      ∃ part, Yields t scan cwd depth stack path loc name part ∧ part ⊆ files := by
  obtain ⟨hopen, found, hfound, rfl⟩ := (walkBelow_eq_ok_iff hspells).mp h
  obtain ⟨part, hpart, hyields⟩ := exists_of_forall₂_left hfound (mem_children.mpr hentry)
  exact ⟨hopen, part, hyields, fun p hp => List.mem_flatten.mpr ⟨part, hpart, hp⟩⟩

theorem Yields.visited (h : Yields t scan cwd depth stack path loc name files) :
    ∃ v, t.visit cwd stack (Path.join path name) loc name = .ok v := by
  cases h with
  | passedOver visited | entered visited | listed visited | leftOut visited => exact ⟨_, visited⟩

/-- What becomes of a directory that is not passed over is that it is entered. -/
theorem Yields.below {v : Visited} (h : Yields t scan cwd depth stack path loc name files)
    (visited : t.visit cwd stack (Path.join path name) loc name = .ok v)
    (kept : scan.excludes name = false) (directory : v.entry = .directory) :
    t.walkBelow scan cwd depth (⟨v.location, v.path⟩ :: stack) v.path v.location = .ok files := by
  have hentry := walkEntry_eq_ok_iff.mpr h
  rwa [walkEntry_of_visited visited, kept, directory] at hentry

/-- What becomes of a source file that is not passed over is that it is listed. -/
theorem Yields.file {v : Visited} (h : Yields t scan cwd depth stack path loc name files)
    (visited : t.visit cwd stack (Path.join path name) loc name = .ok v)
    (kept : scan.excludes name = false) (file : v.entry.isFile = true)
    (source : Path.hasExtension sourceExtension name = true) : files = [v.path] := by
  have hlisted : Yields t scan cwd depth stack path loc name [v.path] :=
    .listed visited kept file source
  rw [← walkEntry_eq_ok_iff] at h hlisted
  exact Except.ok.inj (h.symm.trans hlisted)

/-! ## Failures -/

/-- Whether a failure is that of a walk, which names a path and a reason. -/
def IsWalkFailure (f : Failure) : Prop :=
  ∃ p reason, f = .walk p reason

theorem isWalkFailure_of_visit (h : t.visit cwd stack path loc name = .error f) :
    IsWalkFailure f := by
  unfold visit at h
  split at h
  · cases h
    exact ⟨_, _, rfl⟩
  · split at h
    · cases h
      exact ⟨_, _, rfl⟩
    · split at h <;> cases h
      exact ⟨_, _, rfl⟩
  · cases h

theorem isWalkFailure_of_walkBelow
    (h : t.walkBelow scan cwd depth stack path loc = .error f) : IsWalkFailure f := by
  induction depth generalizing stack path loc with
  | zero => cases h
  | succ depth ih =>
      cases hopened : t.namesAt cwd path loc with
      | error f' =>
          rw [walkBelow_of_unopened hopened] at h
          cases h
          unfold namesAt at hopened
          split at hopened <;> cases hopened
          exact ⟨_, _, rfl⟩
      | ok names =>
          rw [walkBelow_of_opened hopened] at h
          cases hfound : names.mapM (t.walkEntry scan cwd depth stack path loc) with
          | ok found =>
              rw [hfound] at h
              cases h
          | error f' =>
              rw [hfound] at h
              cases h
              obtain ⟨name, -, hentry⟩ := exists_of_mapM_error hfound
              cases hv : t.visit cwd stack (Path.join path name) loc name with
              | error f' =>
                  rw [walkEntry_of_unvisited hv] at hentry
                  cases hentry
                  exact isWalkFailure_of_visit hv
              | ok v =>
                  rw [walkEntry_of_visited hv] at hentry
                  split at hentry
                  · cases hentry
                  split at hentry
                  · exact ih hentry
                  split at hentry <;> cases hentry

end ModuleOutputs.FileTree
