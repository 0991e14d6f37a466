import Mathlib
import ModuleOutputs.Proofs.Walk.Entering

/-!
What a walk lists, where it comes to a list: every source file that a way from the root
leads to, through names that are not passed over and no deeper than it may go, and nothing
else. The files stand in the order of the names on the way to them, and the list does not
depend on the order in which a directory keeps its entries.
-/

namespace ModuleOutputs

/-- Whether a name is passed over: it is text, and one of the patterns that are any stands
for it. -/
def ScanConfig.Bars (c : ScanConfig) (name : Name) : Prop :=
  ∃ text ∈ c.excludePatterns, ∃ pattern, Glob.parse text = .ok pattern ∧
    ∃ s, Text.strict name = some s ∧ Glob.admits pattern s.toList = true

@[simp] theorem maxDepth_ofConfig (c : ScanConfig) : (Scan.ofConfig c).maxDepth = c.maxDepth := rfl

theorem excludes_ofConfig_iff {c : ScanConfig} {name : Name} :
    (Scan.ofConfig c).excludes name = true ↔ c.Bars name := by
  have hpatterns : ∀ pattern, pattern ∈ (Scan.ofConfig c).patterns ↔
      ∃ text ∈ c.excludePatterns, Glob.parse text = .ok pattern := by
    intro pattern
    simp only [Scan.ofConfig, List.mem_filterMap]
    refine exists_congr fun text => and_congr_right fun _ => ?_
    cases Glob.parse text <;> simp [Except.toOption]
  unfold Scan.excludes ScanConfig.Bars
  cases Text.strict name with
  | none => simp
  | some s =>
      simp only [List.any_eq_true, hpatterns, Option.some.injEq, exists_eq_left']
      constructor
      · rintro ⟨pattern, ⟨text, htext, hparse⟩, hadmits⟩
        exact ⟨text, htext, pattern, hparse, hadmits⟩
      · rintro ⟨text, htext, pattern, hparse, hadmits⟩
        exact ⟨pattern, ⟨text, htext, hparse⟩, hadmits⟩

/-- The extension of a source file stands behind a stem that is not empty. -/
theorem hasExtension_iff {name : Name} :
    Path.hasExtension sourceExtension name = true ↔
      ∃ stem, stem ≠ [] ∧ name = stem ++ Text.utf8 ".tf" := by
  have hextension : Path.dot :: sourceExtension = Text.utf8 ".tf" := by decide
  have hlength : sourceExtension.length + 1 = (Text.utf8 ".tf").length := by decide
  simp only [Path.hasExtension, hextension, hlength, Bool.and_eq_true, List.isSuffixOf_iff_suffix,
    decide_eq_true_eq]
  constructor
  · rintro ⟨⟨stem, rfl⟩, hlt⟩
    refine ⟨stem, ?_, rfl⟩
    rintro rfl
    exact Nat.lt_irrefl _ hlt
  · rintro ⟨stem, hstem, rfl⟩
    refine ⟨⟨stem, rfl⟩, ?_⟩
    rw [List.length_append]
    have hpos := List.length_pos_iff.mpr hstem
    omega

namespace FileTree

open ModuleOutputs.Path (ofText)

variable {t : FileTree} {scan : Scan} {cwd loc : Location} {root path : Path} {left depth : Nat}
  {stack : List Ancestor} {name : Name} {files : List Path}

/-! ## What is listed -/

/-- Whether names lead down from a directory to a source file: through directories, no
deeper than the walk may go, and without a name that is passed over. -/
def LeadsToSource (t : FileTree) (c : ScanConfig) (top : Location) (names : List Name) : Prop :=
  ∃ directories name loc before l e, names = directories ++ [name] ∧
    directories.length < c.maxDepth ∧ Way t top directories (loc :: before) ∧ name.IsProper ∧
    t.followFrom (.ofEntry loc name) = .ok (.entry l e) ∧ e.isFile = true ∧
    (∃ stem, stem ≠ [] ∧ name = stem ++ Text.utf8 ".tf") ∧ ∀ n ∈ names, ¬ c.Bars n

theorem LeadsToSource.isProper {c : ScanConfig} {top : Location} {names : List Name}
    (h : t.LeadsToSource c top names) : ∀ n ∈ names, n.IsProper := by
  obtain ⟨directories, name, loc, before, l, e, rfl, -, hway, hname, -⟩ := h
  simpa [or_imp, forall_and] using ⟨hway.isProper, hname⟩

/-- The paths of the source files in the directories that a walk gets into. -/
inductive Lists (t : FileTree) (scan : Scan) (cwd : Location) (root : Path) : Path → Prop
  | mk {left : Nat} {stack : List Ancestor} {path : Path} {loc : Location} {d : Entry}
      {name : Name} {v : Visited} (inside : Enters t scan cwd root (left + 1) stack path loc)
      (opened : t.find cwd path = .ok (loc, d))
      (visited : t.visit cwd stack (Path.join path name) loc name = .ok v)
      (kept : scan.excludes name = false) (file : v.entry.isFile = true)
      (source : Path.hasExtension sourceExtension name = true) : Lists t scan cwd root v.path

theorem Enters.lists_of_mem (hnamed : t.IsNamed) (h : Enters t scan cwd root left stack path loc)
    (hbelow : t.walkBelow scan cwd left stack path loc = .ok files) {p : Path} (hp : p ∈ files) :
    Lists t scan cwd root p := by
  induction left generalizing stack path loc files with
  | zero =>
      cases hbelow
      cases hp
  | succ left ih =>
      obtain ⟨⟨d, hopen⟩, found, hfound, rfl⟩ :=
        (walkBelow_eq_ok_iff (h.spells hnamed)).mp hbelow
      obtain ⟨part, hpart, hp⟩ := List.mem_flatten.mp hp
      obtain ⟨name, -, hyields⟩ := exists_of_forall₂ hfound hpart
      cases hyields with
      | passedOver | leftOut => cases hp
      | entered visited kept directory below =>
          exact ih (h.on hopen visited kept directory) below hp
      | listed visited kept file source =>
          rw [List.mem_singleton] at hp
          exact hp ▸ .mk h hopen visited kept file source

/-- What is listed is at the end of a way to a source file. -/
theorem Lists.leadsToSource (hnamed : t.IsNamed) {c : ScanConfig} {top : Location}
    (htop : t.find cwd root = .ok (top, .directory)) {p : Path}
    (h : Lists t (.ofConfig c) cwd root p) :
    ∃ names, t.LeadsToSource c top names ∧ p = names.foldl Path.join root := by
  obtain @⟨left, stack, path, loc, d, name, v, inside, opened, visited, kept, file, source⟩ := h
  obtain ⟨directories, hway, hpath, hkept, hdepth⟩ := inside.way hnamed htop
  obtain ⟨outer, rfl⟩ := inside.exists_stack
  have hname := hnamed.proper (entry?_of_visit visited).2
  obtain ⟨hvpath, hleads⟩ := visit_leads inside.isDirectory hname opened visited
  have hbars : ∀ n ∈ directories ++ [name], ¬ c.Bars n := by
    intro n hn
    rw [← excludes_ofConfig_iff, Bool.not_eq_true]
    rcases List.mem_append.mp hn with hn | hn
    · exact hkept n hn
    · exact List.mem_singleton.mp hn ▸ kept
  rw [maxDepth_ofConfig] at hdepth
  have hdepth' : directories.length < c.maxDepth := by omega
  refine ⟨directories ++ [name], ⟨directories, name, loc, _, v.location, v.entry, rfl, hdepth',
    hway, hname, hleads, file, hasExtension_iff.mp source, hbars⟩, ?_⟩
  rw [hvpath, hpath, List.foldl_append]
  rfl

/-- A source file at the end of a way is listed, if there is a list. -/
theorem LeadsToSource.mem (hnamed : t.IsNamed) {c : ScanConfig}
    (hfiles : t.sourceFiles (.ofConfig c) cwd root = .ok files) {top : Location}
    (htop : t.find cwd root = .ok (top, .directory)) {names : List Name}
    (h : t.LeadsToSource c top names) : names.foldl Path.join root ∈ files := by
  obtain ⟨directories, name, loc, before, l, e, rfl, hdepth, hway, hname, hleads, file, source,
    hbars⟩ := h
  have hkept : ∀ n ∈ directories ++ [name], (Scan.ofConfig c).excludes n = false := fun n hn => by
    rw [← Bool.not_eq_true, excludes_ofConfig_iff]
    exact hbars n hn
  obtain ⟨left, hleft⟩ := Nat.exists_eq_add_of_lt hdepth
  have hdepth' : left + 1 + directories.length = (Scan.ofConfig c).maxDepth := by
    rw [maxDepth_ofConfig]
    omega
  obtain ⟨stack, -, henters⟩ := hway.enters hnamed hfiles htop
    (fun n hn => hkept n (List.mem_append_left _ hn)) hdepth'
  obtain ⟨⟨d, hopen⟩, part, hyields, hpart⟩ :=
    henters.yields hnamed hfiles (isSome_of_leads hname hleads)
  obtain ⟨v, visited⟩ := hyields.visited
  obtain ⟨hvpath, hleads'⟩ := visit_leads henters.isDirectory hname hopen visited
  rw [hleads] at hleads'
  obtain ⟨rfl, rfl⟩ : l = v.location ∧ e = v.entry := by simpa using hleads'
  have hlisted := hyields.file visited (hkept name (by simp)) file (hasExtension_iff.mpr source)
  have hmem : v.path ∈ files := hpart (hlisted ▸ List.mem_singleton_self v.path)
  rw [hvpath] at hmem
  rwa [List.foldl_append]

/-! ## The order of the list -/

/-- Whether paths lead from a directory along names, the paths in the order of the names. -/
structure InOrder (path : Path) (files : List Path) (rels : List (List Name)) : Prop where
  paths : files = rels.map (·.foldl Path.join path)
  sorted : rels.Pairwise (· < ·)
  proper : ∀ rel ∈ rels, ∀ n ∈ rel, n.IsProper

theorem InOrder.nil (path : Path) : InOrder path [] [] := ⟨rfl, .nil, nofun⟩

/-- What is in order below an entry is in order below its directory. -/
theorem InOrder.below {rels : List (List Name)} (h : InOrder (Path.join path name) files rels)
    (hname : name.IsProper) : InOrder path files (rels.map (name :: ·)) where
  paths := by simp [h.paths]
  sorted := by
    rw [List.pairwise_map]
    exact h.sorted.imp fun hlt => List.cons_lt_cons_iff.mpr (.inr ⟨rfl, hlt⟩)
  proper := by
    intro rel hrel
    obtain ⟨rest, hrest, rfl⟩ := List.mem_map.mp hrel
    simpa using ⟨hname, h.proper rest hrest⟩

/-- Paths that go through one name after the other, for each name in order, are in order. -/
theorem exists_inOrder_flatten {r : Name → List Path → Prop} {names : List Name}
    {found : List (List Path)} (hnames : names.Pairwise (· < ·))
    (hfound : List.Forall₂ r names found)
    (hpart : ∀ name ∈ names, ∀ part, r name part →
      ∃ rels : List (List Name), InOrder path part (rels.map (name :: ·))) :
    ∃ rels, InOrder path found.flatten rels ∧
      ∀ rel ∈ rels, ∃ name ∈ names, ∃ rest, rel = name :: rest := by
  induction hfound with
  | nil => exact ⟨[], .nil path, nofun⟩
  | @cons name part names found hr _ ih =>
      obtain ⟨hfirst, hrest⟩ := List.pairwise_cons.mp hnames
      obtain ⟨rels, hrels, hheads⟩ :=
        ih hrest fun name' hname' => hpart name' (List.mem_cons_of_mem name hname')
      obtain ⟨below, hbelow⟩ := hpart name List.mem_cons_self part hr
      refine ⟨below.map (name :: ·) ++ rels, ⟨?_, ?_, ?_⟩, ?_⟩
      · rw [List.flatten_cons, hbelow.paths, hrels.paths, List.map_append]
      · -- The names of the first part all come before those that follow.
        refine List.pairwise_append.mpr ⟨hbelow.sorted, hrels.sorted, fun rel hrel rel' hrel' => ?_⟩
        obtain ⟨rest, -, rfl⟩ := List.mem_map.mp hrel
        obtain ⟨name', hname', rest', rfl⟩ := hheads rel' hrel'
        exact List.cons_lt_cons_iff.mpr (.inl (hfirst name' hname'))
      · intro rel hrel
        exact (List.mem_append.mp hrel).elim (hbelow.proper rel) (hrels.proper rel)
      · intro rel hrel
        rcases List.mem_append.mp hrel with hrel | hrel
        · obtain ⟨rest, -, rfl⟩ := List.mem_map.mp hrel
          exact ⟨name, List.mem_cons_self, rest, rfl⟩
        · obtain ⟨name', hname', hrest'⟩ := hheads rel hrel
          exact ⟨name', List.mem_cons_of_mem name hname', hrest'⟩

/-- What a walk below a directory lists are paths below it in the order of their names. -/
theorem exists_inOrder_of_walkBelow (hnamed : t.IsNamed)
    (h : Enters t scan cwd root depth stack path loc)
    (hbelow : t.walkBelow scan cwd depth stack path loc = .ok files) :
    ∃ rels, InOrder path files rels := by
  induction depth generalizing stack path loc files with
  | zero =>
      cases hbelow
      exact ⟨[], .nil path⟩
  | succ depth ih =>
      obtain ⟨⟨d, hopen⟩, found, hfound, rfl⟩ :=
        (walkBelow_eq_ok_iff (h.spells hnamed)).mp hbelow
      have hpart : ∀ name ∈ t.children loc, ∀ part,
          Yields t scan cwd depth stack path loc name part →
            ∃ rels : List (List Name), InOrder path part (rels.map (name :: ·)) := by
        intro name hmem part hyields
        have hname := hnamed.proper (mem_children.mp hmem)
        cases hyields with
        | passedOver | leftOut => exact ⟨[], .nil path⟩
        | entered visited kept directory below =>
            obtain ⟨rels, hrels⟩ := ih (h.on hopen visited kept directory) below
            exact ⟨rels, (visit_path visited ▸ hrels).below hname⟩
        | listed visited =>
            refine ⟨[[]], InOrder.below ⟨?_, List.pairwise_singleton _ _, by simp⟩ hname⟩
            simp [visit_path visited]
      obtain ⟨rels, hrels, -⟩ := exists_inOrder_flatten (t.children_sorted loc) hfound hpart
      exact ⟨rels, hrels⟩

/-! ## The list as a whole -/

theorem sourceFiles_congr_entry {t' : FileTree} (h : ∀ l, t'.entry? l = t.entry? l) :
    t'.sourceFiles scan cwd root = t.sourceFiles scan cwd root := by
  have hfind : ∀ p, t'.find cwd p = t.find cwd p := fun p => find_congr fun l _ => h l
  have hbelow : ∀ depth stack path loc, t'.walkBelow scan cwd depth stack path loc =
      t.walkBelow scan cwd depth stack path loc := by
    intro depth
    induction depth with
    | zero => exact fun _ _ _ => rfl
    | succ depth ih =>
        intro stack path loc
        simp only [walkBelow, namesAt, hfind, children_congr fun name => h (name :: loc),
          visit_congr (h _) (hfind _), ih]
  simp only [sourceFiles, hfind, hbelow]

/-- A walk that lists files lists the source files that ways from the root lead to, each
once and in the order of the names on the way, however directories keep their entries. -/
theorem sourceFiles_lists (hnamed : t.IsNamed) {c : ScanConfig}
    (h : t.sourceFiles (.ofConfig c) cwd root = .ok files) :
    ∃ top, t.find cwd root = .ok (top, .directory) ∧
      (∀ names : List Name, (∀ n ∈ names, n.IsProper) →
        (names.foldl Path.join root ∈ files ↔ t.LeadsToSource c top names)) ∧
      (∃ rels : List (List Name), files = rels.map (·.foldl Path.join root) ∧
        rels.Pairwise (· < ·) ∧ ∀ rel ∈ rels, t.LeadsToSource c top rel) ∧
      ∀ t' : FileTree, (∀ l, t'.entry? l = t.entry? l) →
        t'.sourceFiles (.ofConfig c) cwd root = .ok files := by
  obtain ⟨top, htop, hbelow⟩ := sourceFiles_eq_ok_iff.mp h
  have hroot : Enters t (.ofConfig c) cwd root _ _ root top := .root htop
  have hleads : ∀ p ∈ files, ∃ names, t.LeadsToSource c top names ∧
      p = names.foldl Path.join root := fun p hp =>
    (hroot.lists_of_mem hnamed hbelow hp).leadsToSource hnamed htop
  refine ⟨top, htop, fun names hnames => ⟨fun hmem => ?_, fun hsource => hsource.mem hnamed h htop⟩,
    ?_, fun t' ht' => (sourceFiles_congr_entry ht').trans h⟩
  · obtain ⟨names', hsource, heq⟩ := hleads _ hmem
    rwa [Path.foldl_join_inj (ne_nil_of_find htop) hnames hsource.isProper heq]
  · obtain ⟨rels, hrels⟩ := exists_inOrder_of_walkBelow hnamed hroot hbelow
    refine ⟨rels, hrels.paths, hrels.sorted, fun rel hrel => ?_⟩
    have hmem : rel.foldl Path.join root ∈ files := by
      rw [hrels.paths]
      exact List.mem_map.mpr ⟨rel, hrel, rfl⟩
    obtain ⟨names, hsource, heq⟩ := hleads _ hmem
    rwa [Path.foldl_join_inj (ne_nil_of_find htop) (hrels.proper rel hrel) hsource.isProper heq]

/-- A module with a link to a directory that it shares, and a file that is no source file. -/
def sharingModule : FileTree :=
  ⟨[([ofText "module"], .directory),
    ([ofText "shared", ofText "module"], .link (ofText "../shared")),
    ([ofText "main.tf", ofText "module"], .file []),
    ([ofText "main.tf.json", ofText "module"], .file []),
    ([ofText "shared"], .directory),
    ([ofText "net.tf", ofText "shared"], .file [])]⟩

/-- What is in the directory that this module shares is listed with it. -/
theorem sourceFiles_lists_sharingModule :
    sharingModule.IsNamed ∧
      sharingModule.sourceFiles (.ofConfig { excludePatterns := [] }) [] (ofText "/module") =
        .ok [ofText "/module/main.tf", ofText "/module/shared/net.tf"] ∧
      sharingModule.LeadsToSource { excludePatterns := [] } [ofText "module"]
        [ofText "shared", ofText "net.tf"] ∧
      ¬ sharingModule.LeadsToSource { excludePatterns := [] } [ofText "module"]
        [ofText "main.tf.json"] := by
  have hnamed : sharingModule.IsNamed := by decide +kernel
  have hroot : sharingModule.find [] (ofText "/module") = .ok ([ofText "module"], .directory) := by
    cbv
  have hfiles : sharingModule.sourceFiles (.ofConfig { excludePatterns := [] }) []
      (ofText "/module") = .ok [ofText "/module/main.tf", ofText "/module/shared/net.tf"] := by
    cbv
  obtain ⟨top, htop, hmem, -, -⟩ := sourceFiles_lists hnamed hfiles
  obtain rfl : [ofText "module"] = top := by simpa [hroot] using htop
  refine ⟨hnamed, hfiles, (hmem _ (by decide +kernel)).mp (by decide +kernel), ?_⟩
  rw [← hmem _ (by decide +kernel)]
  decide +kernel

end FileTree

end ModuleOutputs
