import ModuleOutputs.Proofs.Walk.Listing

/-!
What the settings of a walk change. A walk that passes over more names and goes down no further
than another one looks at nothing that the other does not look at. So it comes to a list where the
other does, and the list is what is left of the other's: the files on ways that it lets pass, in
the order in which they were. A text that is no pattern changes nothing.
-/

namespace ModuleOutputs

namespace Scan

variable {scan scan' : Scan} {depth : Nat} {name : Name} {rel : List Name}

/-- Whether a walk lets a way pass: it goes down that far, and passes over none of the names. -/
def lets (scan : Scan) (depth : Nat) (rel : List Name) : Bool :=
  rel.length ≤ depth && rel.all fun n => !scan.excludes n

theorem lets_nil (scan : Scan) (depth : Nat) : scan.lets depth [] = true := by
  simp [lets]

theorem lets_cons (scan : Scan) (depth : Nat) (name : Name) (rel : List Name) :
    scan.lets (depth + 1) (name :: rel) = (!scan.excludes name && scan.lets depth rel) := by
  simp [lets, Bool.and_left_comm]

theorem lets_zero (h : rel ≠ []) : scan.lets 0 rel = false := by
  simp [lets, h]

/-- A way that is let pass is let pass at another depth if it is short enough. -/
theorem lets_eq_of_lets {depth' : Nat} (hexcludes : scan'.excludes = scan.excludes)
    (h : scan.lets depth rel = true) : scan'.lets depth' rel = decide (rel.length ≤ depth') := by
  rw [lets, Bool.and_eq_true] at h
  rw [lets, hexcludes, h.2, Bool.and_true]

/-- Whether a walk passes over all names that another one passes over. -/
def Narrows (scan' scan : Scan) : Prop :=
  ∀ name, scan.excludes name = true → scan'.excludes name = true

end Scan

/-- What a configuration bars is barred as long as its patterns are there. -/
theorem ScanConfig.Bars.mono {c c' : ScanConfig} {name : Name}
    (hpatterns : ∀ text pattern, Glob.parse text = .ok pattern → text ∈ c.excludePatterns →
      text ∈ c'.excludePatterns) (h : c.Bars name) : c'.Bars name := by
  obtain ⟨text, htext, pattern, hparse, hadmits⟩ := h
  exact ⟨text, hpatterns text pattern hparse htext, pattern, hparse, hadmits⟩

theorem Scan.narrows_ofConfig {c c' : ScanConfig}
    (hpatterns : c.excludePatterns ⊆ c'.excludePatterns) :
    (Scan.ofConfig c').Narrows (Scan.ofConfig c) := by
  intro name
  rw [excludes_ofConfig_iff, excludes_ofConfig_iff]
  exact ScanConfig.Bars.mono fun text _ _ htext => hpatterns htext

namespace FileTree

open ModuleOutputs.Path (ofText)

variable {t : FileTree} {scan scan' : Scan} {cwd loc : Location} {root path : Path} {depth : Nat}
  {stack : List Ancestor} {name : Name} {files part : List Path} {rels : List (List Name)}

/-- Ways from a directory to the files that a walk lists. They say what any narrower walk comes to
that has some levels left behind the first names: to the files on those ways that it lets pass. -/
structure Traces (t : FileTree) (scan : Scan) (depth : Nat) (path : Path)
    (narrower : Scan → Nat → Except Failure (List Path)) (files : List Path)
    (rels : List (List Name)) : Prop where
  paths : files = rels.map (·.foldl Path.join path)
  below : ∀ rel ∈ rels, rel ≠ []
  names : ∀ rel ∈ rels, ∀ n ∈ rel, ∃ loc, (t.entry? (n :: loc)).isSome = true
  left : ∀ scan' left, left < depth → scan'.Narrows scan →
    narrower scan' left = .ok ((rels.filter (scan'.lets (left + 1))).map (·.foldl Path.join path))

section

variable {narrower narrower' : Scan → Nat → Except Failure (List Path)}

theorem Traces.nil
    (h : ∀ scan' left, left < depth → scan'.Narrows scan → narrower scan' left = .ok []) :
    Traces t scan depth path narrower [] [] where
  paths := rfl
  below := nofun
  names := nofun
  left := h

theorem Traces.append {rels' : List (List Name)} {files' : List Path}
    (h : Traces t scan depth path narrower files rels)
    (h' : Traces t scan depth path narrower' files' rels') :
    Traces t scan depth path
      (fun scan' left =>
        (narrower scan' left).bind fun first => (narrower' scan' left).map (first ++ ·))
      (files ++ files') (rels ++ rels') where
  paths := by rw [h.paths, h'.paths, List.map_append]
  below := by simpa [or_imp, forall_and] using ⟨h.below, h'.below⟩
  names := by
    intro rel hrel
    exact (List.mem_append.mp hrel).elim (h.names rel) (h'.names rel)
  left := by
    intro scan' left hleft hnarrows
    rw [h.left scan' left hleft hnarrows, h'.left scan' left hleft hnarrows, List.filter_append,
      List.map_append]
    rfl

end

/-- What a walk that is narrower lists below a directory, at no level or some. -/
theorem Traces.walkBelow_eq
    (h : Traces t scan depth path
      (fun scan' left => t.walkBelow scan' cwd (left + 1) stack path loc) files rels)
    {depth' : Nat} (hdepth : depth' ≤ depth) (hnarrows : scan'.Narrows scan) :
    t.walkBelow scan' cwd depth' stack path loc =
      .ok ((rels.filter (scan'.lets depth')).map (·.foldl Path.join path)) := by
  cases depth' with
  | zero =>
      have hnone : rels.filter (scan'.lets 0) = [] :=
        List.filter_eq_nil_iff.mpr fun rel hrel => by simp [Scan.lets_zero (h.below rel hrel)]
      rw [hnone]
      rfl
  | succ left => exact h.left scan' left hdepth hnarrows

/-- What is listed below an entry that is entered or listed is on ways that begin with its name. -/
theorem Traces.entry {v : Visited} (hsome : (t.entry? (name :: loc)).isSome = true)
    (visited : t.visit cwd stack (Path.join path name) loc name = .ok v)
    (hnames : ∀ rel ∈ rels, ∀ n ∈ rel, ∃ loc, (t.entry? (n :: loc)).isSome = true)
    (hleft : ∀ scan' left, left ≤ depth → scan'.Narrows scan → scan'.excludes name = false →
      t.walkEntry scan' cwd left stack path loc name =
        .ok ((rels.filter (scan'.lets left)).map (·.foldl Path.join (Path.join path name)))) :
    Traces t scan (depth + 1) path
      (fun scan' left => t.walkEntry scan' cwd left stack path loc name)
      (rels.map (·.foldl Path.join (Path.join path name))) (rels.map (name :: ·)) where
  paths := by simp
  below := by simp
  names := by
    simp only [List.forall_mem_map, List.forall_mem_cons]
    exact fun rel hrel => ⟨⟨loc, hsome⟩, hnames rel hrel⟩
  left := by
    intro scan' left hlt hnarrows
    cases hexcluded : scan'.excludes name with
    | true =>
        have hnone : (rels.map (name :: ·)).filter (scan'.lets (left + 1)) = [] := by
          simp [List.filter_eq_nil_iff, Scan.lets_cons, hexcluded]
        rw [walkEntry_eq_ok_iff.mpr (.passedOver visited hexcluded), hnone]
        rfl
    | false =>
        rw [hleft scan' left (Nat.le_of_lt_succ hlt) hnarrows hexcluded, List.filter_map,
          List.map_map]
        simp only [Function.comp_def, Scan.lets_cons, hexcluded, Bool.not_false, Bool.true_and,
          List.foldl_cons]

/-- What comes of an entry is what a narrower walk makes of it, as far as it lets that pass. -/
theorem exists_traces_of_yields
    (hbelow : ∀ {stack path loc files}, t.walkBelow scan cwd depth stack path loc = .ok files →
      ∃ rels, Traces t scan depth path
        (fun scan' left => t.walkBelow scan' cwd (left + 1) stack path loc) files rels)
    (hsome : (t.entry? (name :: loc)).isSome = true)
    (h : Yields t scan cwd depth stack path loc name part) :
    ∃ rels, Traces t scan (depth + 1) path
      (fun scan' left => t.walkEntry scan' cwd left stack path loc name) part rels := by
  cases h with
  | passedOver visited excluded =>
      refine ⟨[], .nil fun scan' left _ hnarrows => ?_⟩
      exact walkEntry_eq_ok_iff.mpr (.passedOver visited (hnarrows name excluded))
  | leftOut visited kept noDirectory noSource =>
      refine ⟨[], .nil fun scan' left _ hnarrows => ?_⟩
      cases hexcluded : scan'.excludes name with
      | true => exact walkEntry_eq_ok_iff.mpr (.passedOver visited hexcluded)
      | false => exact walkEntry_eq_ok_iff.mpr (.leftOut visited hexcluded noDirectory noSource)
  | @listed v visited kept file source =>
      have hleft : ∀ scan' left, left ≤ depth → scan'.Narrows scan → scan'.excludes name = false →
          t.walkEntry scan' cwd left stack path loc name =
            .ok (([[]].filter (scan'.lets left)).map
              (·.foldl Path.join (Path.join path name))) := by
        intro scan' left _ _ hkept
        rw [walkEntry_eq_ok_iff.mpr (.listed visited hkept file source), visit_path visited]
        simp [Scan.lets_nil]
      have htraces := Traces.entry hsome visited (by simp) hleft
      exact ⟨_, by simpa [visit_path visited] using htraces⟩
  | @entered v _ visited kept directory below =>
      obtain ⟨rels, hrels⟩ := hbelow below
      have hleft : ∀ scan' left, left ≤ depth → scan'.Narrows scan → scan'.excludes name = false →
          t.walkEntry scan' cwd left stack path loc name =
            .ok ((rels.filter (scan'.lets left)).map
              (·.foldl Path.join (Path.join path name))) := by
        intro scan' left hle hnarrows hkept
        have hwalk := hrels.walkBelow_eq hle hnarrows
        rw [walkEntry_eq_ok_iff.mpr (.entered visited hkept directory hwalk), visit_path visited]
      have htraces := Traces.entry hsome visited hrels.names hleft
      rw [← visit_path visited, ← hrels.paths] at htraces
      exact ⟨_, htraces⟩

/-- One entry after the other. -/
theorem exists_traces_of_mapM {names : List Name} {found : List (List Path)}
    (hentry : ∀ name ∈ names, ∀ part, t.walkEntry scan cwd depth stack path loc name = .ok part →
      ∃ rels, Traces t scan (depth + 1) path
        (fun scan' left => t.walkEntry scan' cwd left stack path loc name) part rels)
    (h : names.mapM (t.walkEntry scan cwd depth stack path loc) = .ok found) :
    ∃ rels, Traces t scan (depth + 1) path
      (fun scan' left =>
        (names.mapM (t.walkEntry scan' cwd left stack path loc)).map List.flatten)
      found.flatten rels := by
  rw [mapM_eq_ok_iff] at h
  induction h with
  | nil => exact ⟨[], .nil fun _ _ _ _ => rfl⟩
  | @cons name part names found hpart _ ih =>
      obtain ⟨rels, hrels⟩ := hentry name List.mem_cons_self part hpart
      obtain ⟨rels', hrels'⟩ := ih fun name' hname' => hentry name' (List.mem_cons_of_mem _ hname')
      simp only [flatten_mapM_cons]
      exact ⟨rels ++ rels', hrels.append hrels'⟩

theorem eq_children_of_namesAt {names : List Name} (h : t.namesAt cwd path loc = .ok names) :
    names = t.children loc := by
  unfold namesAt at h
  split at h
  · cases h
  · exact (Except.ok.inj h).symm

/-- There are ways to all that a walk lists below a directory. -/
theorem exists_traces_of_walkBelow
    (h : t.walkBelow scan cwd depth stack path loc = .ok files) :
    ∃ rels, Traces t scan depth path
      (fun scan' left => t.walkBelow scan' cwd (left + 1) stack path loc) files rels := by
  induction depth generalizing stack path loc files with
  | zero =>
      cases h
      exact ⟨[], .nil fun _ _ hleft => absurd hleft (Nat.not_lt_zero _)⟩
  | succ depth ih =>
      cases hopened : t.namesAt cwd path loc with
      | error f =>
          rw [walkBelow_of_unopened hopened] at h
          cases h
      | ok names =>
          obtain rfl := eq_children_of_namesAt hopened
          simp only [walkBelow_of_opened hopened] at h ⊢
          cases hfound : (t.children loc).mapM (t.walkEntry scan cwd depth stack path loc) with
          | error f =>
              rw [hfound] at h
              cases h
          | ok found =>
              rw [hfound] at h
              cases h
              refine exists_traces_of_mapM ?_ hfound
              intro name hname part hpart
              exact exists_traces_of_yields ih (mem_children.mp hname)
                (walkEntry_eq_ok_iff.mp hpart)

/-! ## The list as a whole -/

theorem walkBelow_congr_excludes (h : ∀ n, scan'.excludes n = scan.excludes n) (depth : Nat)
    (stack : List Ancestor) (path : Path) (loc : Location) :
    t.walkBelow scan' cwd depth stack path loc = t.walkBelow scan cwd depth stack path loc := by
  induction depth generalizing stack path loc with
  | zero => rfl
  | succ depth ih => simp only [walkBelow, h, ih]

/-- Walks that pass over the same names and go down as far are the same. -/
theorem sourceFiles_congr_excludes (h : ∀ n, scan'.excludes n = scan.excludes n)
    (hdepth : scan'.maxDepth = scan.maxDepth) :
    t.sourceFiles scan' cwd root = t.sourceFiles scan cwd root := by
  simp only [sourceFiles, hdepth, walkBelow_congr_excludes h]

/-- Where a walk comes to a list, every narrower one does. -/
theorem sourceFiles_narrowed (h : t.sourceFiles scan cwd root = .ok files) :
    ∃ rels : List (List Name), files = rels.map (·.foldl Path.join root) ∧
      (∀ rel ∈ rels, ∀ n ∈ rel, ∃ loc, (t.entry? (n :: loc)).isSome = true) ∧
      (∀ rel ∈ rels, scan.lets scan.maxDepth rel = true) ∧
      ∀ scan', scan'.maxDepth ≤ scan.maxDepth → scan'.Narrows scan →
        t.sourceFiles scan' cwd root =
          .ok ((rels.filter (scan'.lets scan'.maxDepth)).map (·.foldl Path.join root)) := by
  obtain ⟨top, htop, hbelow⟩ := sourceFiles_eq_ok_iff.mp h
  obtain ⟨rels, hrels⟩ := exists_traces_of_walkBelow hbelow
  refine ⟨rels, hrels.paths, hrels.names, ?_, fun scan' hdepth hnarrows => ?_⟩
  · -- The walk is itself one of those that are no wider, and lists all of its files.
    have hall := hrels.walkBelow_eq (Nat.le_refl _) fun _ hexcluded => hexcluded
    rw [hbelow, hrels.paths, Except.ok.injEq] at hall
    have hlength := congrArg List.length hall
    rw [List.length_map, List.length_map] at hlength
    exact List.length_filter_eq_length_iff.mp hlength.symm
  · exact sourceFiles_eq_ok_iff.mpr ⟨top, htop, hrels.walkBelow_eq hdepth hnarrows⟩

theorem length_names_foldl_join (hnamed : t.IsNamed) (hroot : root ≠ []) {rel : List Name}
    (hnames : ∀ n ∈ rel, ∃ loc, (t.entry? (n :: loc)).isSome = true) :
    (Path.names (rel.foldl Path.join root)).length =
      (Path.names root).length + rel.length := by
  have hproper : ∀ n ∈ rel, n.IsProper := by
    intro n hn
    obtain ⟨loc, hsome⟩ := hnames n hn
    exact hnamed.proper hsome
  rw [Path.names_foldl_join hroot hproper, List.length_append]

/-- What a configuration changes by its patterns and its depth. Texts that are no patterns change
nothing, nor do the order of the patterns and how often they are there. Where a walk comes to a
list, it does with more patterns, and the list is a part of the first one in its order; it does
with less depth, and the list has the files that are not below that. With both, the list has the
files on the ways that are let pass. -/
theorem sourceFiles_settings (t : FileTree) (cwd : Location) (root : Path) (c : ScanConfig) :
    (∀ patterns, (∀ text pattern, Glob.parse text = .ok pattern →
        (text ∈ patterns ↔ text ∈ c.excludePatterns)) →
      t.sourceFiles (.ofConfig { c with excludePatterns := patterns }) cwd root =
        t.sourceFiles (.ofConfig c) cwd root) ∧
    ∀ files, t.sourceFiles (.ofConfig c) cwd root = .ok files →
      (∀ patterns, c.excludePatterns ⊆ patterns →
        ∃ fewer, t.sourceFiles (.ofConfig { c with excludePatterns := patterns }) cwd root =
          .ok fewer ∧ fewer.Sublist files) ∧
      (t.IsNamed → ∀ depth ≤ c.maxDepth,
        t.sourceFiles (.ofConfig { c with maxDepth := depth }) cwd root =
          .ok (files.filter fun p =>
            (Path.names p).length ≤ (Path.names root).length + depth)) ∧
      ∃ rels : List (List Name), files = rels.map (·.foldl Path.join root) ∧
        ∀ c' : ScanConfig, c.excludePatterns ⊆ c'.excludePatterns → c'.maxDepth ≤ c.maxDepth →
          t.sourceFiles (.ofConfig c') cwd root =
            .ok ((rels.filter ((Scan.ofConfig c').lets c'.maxDepth)).map
              (·.foldl Path.join root)) := by
  constructor
  · intro patterns hpatterns
    refine sourceFiles_congr_excludes (fun n => ?_) rfl
    rw [Bool.eq_iff_iff, excludes_ofConfig_iff, excludes_ofConfig_iff]
    exact ⟨ScanConfig.Bars.mono fun text pattern hparse => (hpatterns text pattern hparse).mp,
      ScanConfig.Bars.mono fun text pattern hparse => (hpatterns text pattern hparse).mpr⟩
  · intro files hfiles
    obtain ⟨rels, hpaths, hnames, hlets, hnarrower⟩ := sourceFiles_narrowed hfiles
    refine ⟨?_, ?_, rels, hpaths, ?_⟩
    · intro patterns hpatterns
      refine ⟨_, hnarrower (.ofConfig { c with excludePatterns := patterns }) (Nat.le_refl _)
        (Scan.narrows_ofConfig hpatterns), ?_⟩
      rw [hpaths]
      exact List.filter_sublist.map _
    · intro hnamed depth hdepth
      obtain ⟨top, htop, -⟩ := sourceFiles_eq_ok_iff.mp hfiles
      rw [hnarrower (.ofConfig { c with maxDepth := depth }) hdepth fun _ h => h, hpaths,
        List.filter_map]
      refine congrArg (fun rels => Except.ok (List.map _ rels)) (List.filter_congr ?_)
      intro rel hrel
      have hlength := length_names_foldl_join hnamed (ne_nil_of_find htop) (hnames rel hrel)
      have hexcludes : (Scan.ofConfig { c with maxDepth := depth }).excludes =
          (Scan.ofConfig c).excludes := rfl
      rw [Scan.lets_eq_of_lets hexcludes (hlets rel hrel), maxDepth_ofConfig, Function.comp_apply,
        hlength]
      simp only [Nat.add_le_add_iff_left]
    · intro c' hpatterns hdepth
      exact hnarrower (.ofConfig c') hdepth (Scan.narrows_ofConfig hpatterns)

/-- Of this module's files one is on the first level. Without the directory that it shares there
are no others than before, whether a text that is no pattern is in front of its name or not. -/
theorem sourceFiles_settings_sharingModule :
    sharingModule.IsNamed ∧
      sharingModule.sourceFiles (.ofConfig ⟨[], 1⟩) [] (ofText "/module") =
        .ok [ofText "/module/main.tf"] ∧
      sharingModule.sourceFiles (.ofConfig ⟨["[", "shared"], 100⟩) [] (ofText "/module") =
        sharingModule.sourceFiles (.ofConfig ⟨["shared"], 100⟩) [] (ofText "/module") ∧
      ∃ fewer, sharingModule.sourceFiles (.ofConfig ⟨["shared"], 100⟩) [] (ofText "/module") =
        .ok fewer ∧ fewer.Sublist [ofText "/module/main.tf", ofText "/module/shared/net.tf"] := by
  have hnamed : sharingModule.IsNamed := by decide +kernel
  have hfiles : sharingModule.sourceFiles (.ofConfig ⟨[], 100⟩) [] (ofText "/module") =
      .ok [ofText "/module/main.tf", ofText "/module/shared/net.tf"] := by
    cbv
  obtain ⟨-, hlists⟩ := sourceFiles_settings sharingModule [] (ofText "/module") ⟨[], 100⟩
  obtain ⟨hmore, hless, -⟩ := hlists _ hfiles
  obtain ⟨hpatterns, -⟩ :=
    sourceFiles_settings sharingModule [] (ofText "/module") ⟨["shared"], 100⟩
  refine ⟨hnamed, ?_, ?_, ?_⟩
  · rw [hless hnamed 1 (by decide)]
    decide +kernel
  · refine hpatterns ["[", "shared"] fun text pattern hparse => ?_
    have hopen : text ≠ "[" := by
      rintro rfl
      cases hparse
    simp [hopen]
  · exact hmore ["shared"] (List.nil_subset _)

end FileTree

end ModuleOutputs
