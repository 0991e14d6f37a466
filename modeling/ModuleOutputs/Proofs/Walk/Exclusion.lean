import Mathlib
import ModuleOutputs.Proofs.FileTree.Entries
import ModuleOutputs.Proofs.Walk.Entering

/-!
Entries that a walk passes over. An entry is visited before it is passed over, and a link
that cannot be followed fails the walk even there. Where the entry can be visited, nothing
depends on it: without it, and without what is below it, the walk comes to the same result,
provided that no other link leads to it or through it.
-/

namespace ModuleOutputs.FileTree

open ModuleOutputs.Path (ofText)

variable {t : FileTree} {scan : Scan} {cwd loc directory l : Location} {root path : Path}
  {left depth : Nat} {stack : List Ancestor} {name n : Name} {d : Entry}

/-- Whether a walk looks at an entry, and at what is below it, nowhere but where it comes
by the entry: neither the path of the root nor any other link leads to it or through it. -/
structure Avoids (t : FileTree) (scan : Scan) (cwd : Location) (root : Path) (entry : Location) :
    Prop where
  way : ∀ l, Sees t (.ofPath cwd root) l → ¬ entry <:+ l
  links : ∀ left stack path loc n target, Enters t scan cwd root (left + 1) stack path loc →
    t.entry? (n :: loc) = some (.link target) → n :: loc ≠ entry →
      ∀ l, Sees t (.ofEntry loc n) l → ¬ entry <:+ l

/-- Whether a walk can visit an entry wherever it comes by it. -/
def Visitable (t : FileTree) (scan : Scan) (cwd : Location) (root : Path) (directory : Location)
    (name : Name) : Prop :=
  ∀ left stack path d, Enters t scan cwd root (left + 1) stack path directory →
    t.find cwd path = .ok (directory, d) →
      ∃ v, t.visit cwd stack (Path.join path name) directory name = .ok v

/-! ## Where a walk does not get to -/

theorem not_suffix_cons (hloc : ¬ directory <:+ loc) (hne : n :: loc ≠ directory) :
    ¬ directory <:+ n :: loc := by
  rw [List.suffix_cons_iff]
  exact not_or.mpr ⟨hne.symm, hloc⟩

/-- In a directory that is not below the entry, nothing else leads to it. -/
theorem Avoids.apart_entry (h : t.Avoids scan cwd root directory)
    (henters : Enters t scan cwd root (left + 1) stack path loc)
    (hloc : ¬ directory <:+ loc) (hn : n.IsProper) (hne : n :: loc ≠ directory)
    (hsees : Sees t (.ofEntry loc n) l) : ¬ directory <:+ l := by
  by_cases hlink : ∃ target, t.entry? (n :: loc) = some (.link target)
  · obtain ⟨target, hlink⟩ := hlink
    exact h.links left stack path loc n target henters hlink hne l hsees
  · rcases sees_of_noLink hn (not_exists.mp hlink) hsees with rfl | rfl
    · exact hloc
    · exact not_suffix_cons hloc hne

/-- A path that looks at nothing below an entry leads to nothing below it. -/
theorem apart_of_find {e : Entry} (hpath : ∀ l, Sees t (.ofPath cwd path) l → ¬ directory <:+ l)
    (h : t.find cwd path = .ok (loc, e)) : ¬ directory <:+ loc :=
  hpath loc (ends_of_followFrom (find_eq_ok_iff.mp h).2).sees

/-- A walk that passes over an entry never gets to it or below it. -/
theorem Avoids.apart (hnamed : t.IsNamed) (h : t.Avoids scan cwd root (name :: directory))
    (hexcluded : scan.excludes name = true)
    (henters : Enters t scan cwd root left stack path loc) :
    (∀ l, Sees t (.ofPath cwd path) l → ¬ name :: directory <:+ l) ∧
      ¬ name :: directory <:+ loc := by
  induction henters with
  | root found => exact ⟨h.way, apart_of_find h.way found⟩
  | @on left stack path loc d n v inside opened visited kept isDirectory ih =>
      obtain ⟨hpath, hloc⟩ := ih
      have hn := hnamed.proper (entry?_of_visit visited).2
      -- What is entered has another name than what is passed over.
      have hne : n :: loc ≠ name :: directory := by
        rintro ⟨⟩
        rw [hexcluded] at kept
        cases kept
      have hjoin : ∀ l, Sees t (.ofPath cwd (Path.join path n)) l → ¬ name :: directory <:+ l :=
        fun l hl => (sees_of_sees_join hn opened hl).elim (hpath l)
          (h.apart_entry inside hloc hn hne)
      cases visit_eq_ok_iff.mp visited with
      | entry ahead _ => exact ⟨hjoin, not_suffix_cons hloc hne⟩
      | link _ found _ => exact ⟨hjoin, apart_of_find hjoin found⟩

/-! ## Without the entry -/

/-- Away from a location, the file system without it is as it was. -/
theorem entry?_prune_of_apart (h : ¬ directory <:+ l) :
    FileTree.entry? (t.prune directory) l = t.entry? l := by
  rw [entry?_prune, if_neg fun hl => h hl.2]

theorem find_prune_of_apart (h : ∀ l, Sees t (.ofPath cwd path) l → ¬ directory <:+ l) :
    FileTree.find (t.prune directory) cwd path = t.find cwd path :=
  find_congr fun l hl => entry?_prune_of_apart (h l hl)

/-- What is left in a directory are the other names. -/
theorem children_prune (hloc : ¬ directory <:+ loc) :
    FileTree.children (t.prune directory) loc =
      (t.children loc).filter fun n => n :: loc ≠ directory := by
  refine List.Perm.eq_of_pairwise (fun a b _ _ hab hba => absurd hba (List.lt_asymm hab))
    (children_sorted _ loc) ((children_sorted t loc).filter _) ?_
  refine (List.perm_ext_iff_of_nodup (nodup_children _ loc) ((nodup_children t loc).filter _)).mpr
    fun n => ?_
  rw [List.mem_filter, mem_children, mem_children, decide_eq_true_eq]
  by_cases hne : n :: loc = directory
  · subst hne
    simp [entry?_prune]
  · simp [entry?_prune_of_apart (not_suffix_cons hloc hne), hne]

/-- Elements that contribute nothing can be left out. -/
theorem flatten_mapM_filter {ε α β : Type} {f : α → Except ε (List β)} {p : α → Bool} {xs : List α}
    (h : ∀ a ∈ xs, p a = false → f a = .ok []) :
    ((xs.filter p).mapM f).map List.flatten = (xs.mapM f).map List.flatten := by
  induction xs with
  | nil => rfl
  | cons a rest ih =>
      have hrest := ih fun b hb => h b (List.mem_cons_of_mem a hb)
      cases hpa : p a with
      | true => rw [List.filter_cons_of_pos hpa, flatten_mapM_cons, flatten_mapM_cons, hrest]
      | false =>
          rw [List.filter_cons_of_neg (by simp [hpa]), hrest, flatten_mapM_cons,
            h a List.mem_cons_self hpa]
          cases rest.mapM f <;> rfl

/-- In a directory that a walk gets into, the other entries are what they were. -/
theorem Avoids.visit_prune (hnamed : t.IsNamed) (h : t.Avoids scan cwd root (name :: directory))
    (hexcluded : scan.excludes name = true)
    (henters : Enters t scan cwd root (left + 1) stack path loc)
    (hopen : t.find cwd path = .ok (loc, d)) (hn : n ∈ t.children loc)
    (hne : n :: loc ≠ name :: directory) :
    FileTree.visit (t.prune (name :: directory)) cwd stack (Path.join path n) loc n =
      t.visit cwd stack (Path.join path n) loc n := by
  obtain ⟨hpath, hloc⟩ := h.apart hnamed hexcluded henters
  have hproper := hnamed.proper (mem_children.mp hn)
  refine visit_congr (entry?_prune_of_apart (not_suffix_cons hloc hne)) (find_prune_of_apart ?_)
  exact fun l hl => (sees_of_sees_join hproper hopen hl).elim (hpath l)
    (h.apart_entry henters hloc hproper hne)

theorem walkBelow_prune (hnamed : t.IsNamed) (hexcluded : scan.excludes name = true)
    (h : t.Avoids scan cwd root (name :: directory))
    (hvisitable : t.Visitable scan cwd root directory name)
    (henters : Enters t scan cwd root depth stack path loc) :
    FileTree.walkBelow (t.prune (name :: directory)) scan cwd depth stack path loc =
      t.walkBelow scan cwd depth stack path loc := by
  induction depth generalizing stack path loc with
  | zero => rfl
  | succ depth ih =>
      obtain ⟨hpath, hloc⟩ := h.apart hnamed hexcluded henters
      cases hopened : t.namesAt cwd path loc with
      | error f =>
          have hopened' : namesAt (t.prune (name :: directory)) cwd path loc = .error f := by
            unfold namesAt at hopened ⊢
            rw [find_prune_of_apart hpath]
            split at hopened
            · next hfind => simpa [hfind] using hopened
            · cases hopened
          rw [walkBelow_of_unopened hopened, walkBelow_of_unopened hopened']
      | ok names =>
          obtain ⟨rfl, d, hopen⟩ := find_of_namesAt (henters.spells hnamed) hopened
          have hopened' : namesAt (t.prune (name :: directory)) cwd path loc =
              .ok ((t.children loc).filter fun n => n :: loc ≠ name :: directory) := by
            rw [namesAt, find_prune_of_apart hpath, hopen, children_prune hloc]
          rw [walkBelow_of_opened hopened, walkBelow_of_opened hopened']
          -- The entry itself contributes nothing, and the others what they contributed.
          rw [mapM_congr (g := t.walkEntry scan cwd depth stack path loc) ?_, flatten_mapM_filter]
          · intro n hn hdropped
            obtain ⟨rfl, rfl⟩ : n = name ∧ loc = directory := by simpa using hdropped
            obtain ⟨v, visited⟩ := hvisitable _ _ _ _ henters hopen
            exact walkEntry_eq_ok_iff.mpr (.passedOver visited hexcluded)
          · intro n hn
            obtain ⟨hn, hne⟩ := List.mem_filter.mp hn
            have hvisit := h.visit_prune hnamed hexcluded henters hopen hn (of_decide_eq_true hne)
            cases hv : t.visit cwd stack (Path.join path n) loc n with
            | error f => rw [walkEntry_of_unvisited hv, walkEntry_of_unvisited (hvisit.trans hv)]
            | ok v =>
                rw [walkEntry_of_visited hv, walkEntry_of_visited (hvisit.trans hv)]
                cases hkept : scan.excludes n with
                | true => rfl
                | false =>
                    by_cases isDirectory : v.entry = .directory
                    · rw [ih (henters.on hopen hv hkept isDirectory)]
                    · rw [← isDirectory_iff, Bool.not_eq_true] at isDirectory
                      simp only [isDirectory, Bool.false_eq_true, if_false]

/-- Without an entry that is passed over, a walk comes to the same result if it could visit
the entry; otherwise it failed because of it. -/
theorem sourceFiles_prune (hnamed : t.IsNamed)
    (hentry : (t.entry? (name :: directory)).isSome = true)
    (hexcluded : scan.excludes name = true) (h : t.Avoids scan cwd root (name :: directory)) :
    (t.Visitable scan cwd root directory name →
      FileTree.sourceFiles (t.prune (name :: directory)) scan cwd root =
        t.sourceFiles scan cwd root) ∧
      (¬ t.Visitable scan cwd root directory name →
        ∃ f, t.sourceFiles scan cwd root = .error f ∧ IsWalkFailure f) := by
  constructor
  · intro hvisitable
    unfold sourceFiles
    rw [find_prune_of_apart h.way]
    split
    · next loc hfind => exact walkBelow_prune hnamed hexcluded h hvisitable (.root hfind)
    · rfl
  · intro hnot
    simp only [Visitable, not_forall] at hnot
    obtain ⟨left, stack, path, d, henters, hopen, hunvisited⟩ := hnot
    obtain ⟨top, htop⟩ := henters.exists_root
    refine (sourceFiles_cases htop).resolve_left ?_
    rintro ⟨files, hfiles⟩
    obtain ⟨-, part, hyields, -⟩ := henters.yields hnamed hfiles hentry
    exact hunvisited hyields.visited

/-! ## Links that are passed over -/

/-- Where no other entry is a link, a walk avoids an entry that is not on the way to its
root. -/
theorem avoids_of_noLinks (hroot : t.IsDirect root)
    (hway : ¬ directory <:+ (Path.names root).reverse)
    (hlinks : ∀ loc target, t.entry? loc = some (.link target) → loc = directory) :
    t.Avoids scan cwd root directory where
  way _ hl hbelow := hway (hbelow.trans (hroot.sees hl))
  links _ _ _ _ _ _ _ hlink hne := absurd (hlinks _ _ hlink) hne

/-- A module of one file, and files of a tool elsewhere. -/
def plainModule : FileTree :=
  ⟨[([ofText "module"], .directory),
    ([ofText "main.tf", ofText "module"], .file (Text.utf8 "output \"id\" \x7b\x7d")),
    ([ofText "cache"], .directory),
    ([ofText "cached.tf", ofText "cache"], .file [])]⟩

/-- The same with a link in place of the directory that the tool keeps in a module. -/
def besideLink (target : Path) : FileTree :=
  plainModule.put [ofText ".terraform", ofText "module"] (.link target)

theorem excludes_default : (Scan.ofConfig {}).excludes (ofText ".terraform") = true := by
  cbv

theorem isNamed_besideLink (target : Path) : (besideLink target).IsNamed := by
  have hplain : plainModule.IsNamed := by decide +kernel
  have hnames : ∀ n ∈ [ofText ".terraform", ofText "module"], Name.IsProper n := by decide +kernel
  exact hplain.put hnames _

theorem entry?_besideLink {target : Path} {e : Entry}
    (h : FileTree.entry? (besideLink target) (n :: [ofText "module"]) = some e) :
    n = ofText "main.tf" ∧ e.isFile = true ∨ n = ofText ".terraform" := by
  by_cases hn : n = ofText ".terraform"
  · exact .inr hn
  rw [besideLink, entry?_put_ne _ (by simpa using hn)] at h
  have hmem := mem_entries (List.cons_ne_nil _ _) h
  have hcache : ofText "module" ≠ ofText "cache" := by decide
  obtain ⟨rfl, rfl⟩ : n = ofText "main.tf" ∧ e = .file (Text.utf8 "output \"id\" \x7b\x7d") := by
    simpa [plainModule, hcache] using hmem
  exact .inl ⟨rfl, rfl⟩

theorem find_besideLink (target : Path) :
    (besideLink target).find [] (ofText "/module") = .ok ([ofText "module"], .directory) := by
  cbv

/-- A walk of the module gets into no other directory. -/
theorem enters_besideLink {target : Path}
    (h : Enters (besideLink target) (.ofConfig {}) [] (ofText "/module") left stack path loc) :
    stack = [⟨[ofText "module"], ofText "/module"⟩] ∧ path = ofText "/module" ∧
      loc = [ofText "module"] := by
  induction h with
  | root found =>
      rw [find_besideLink] at found
      cases found
      exact ⟨rfl, rfl, rfl⟩
  | @on left stack path loc d n v inside opened visited kept isDirectory ih =>
      obtain ⟨rfl, rfl, rfl⟩ := ih
      obtain ⟨e, hentry⟩ := Option.isSome_iff_exists.mp (entry?_of_visit visited).2
      rcases entry?_besideLink hentry with ⟨rfl, hfile⟩ | rfl
      · cases visit_eq_ok_iff.mp visited with
        | entry ahead _ =>
            obtain rfl := Option.some.inj (hentry.symm.trans ahead)
            obtain rfl : e = .directory := isDirectory
            cases hfile
        | link ahead _ _ =>
            obtain rfl := Option.some.inj (hentry.symm.trans ahead)
            cases hfile
      · rw [excludes_default] at kept
        cases kept

theorem avoids_besideLink (target : Path) :
    (besideLink target).Avoids scan cwd (ofText "/module")
      [ofText ".terraform", ofText "module"] := by
  refine avoids_of_noLinks ⟨by decide, by decide, ?_⟩ (by decide) fun loc target' hlink => ?_
  · intro l hl
    have hnames : (Path.names (ofText "/module")).reverse = [ofText "module"] := by decide
    rw [hnames, List.suffix_cons_iff, List.suffix_nil] at hl
    rcases hl with rfl | rfl <;> rfl
  · by_cases hloc : loc = []
    · subst hloc
      cases hlink
    · exact (by simpa [besideLink, plainModule, put] using mem_entries hloc hlink : loc = _ ∧ _).1

/-- A link to another directory can be visited, and one that leads nowhere cannot. -/
theorem sourceFiles_prune_besideLink :
    (∀ target, (besideLink target).IsNamed) ∧
      (∀ target, (FileTree.entry? (besideLink target)
        [ofText ".terraform", ofText "module"]).isSome = true) ∧
      (Scan.ofConfig {}).excludes (ofText ".terraform") = true ∧
      (∀ target, (besideLink target).Avoids (.ofConfig {}) [] (ofText "/module")
        [ofText ".terraform", ofText "module"]) ∧
      (besideLink (ofText "/cache")).Visitable (.ofConfig {}) [] (ofText "/module")
        [ofText "module"] (ofText ".terraform") ∧
      FileTree.sourceFiles
        ((besideLink (ofText "/cache")).prune [ofText ".terraform", ofText "module"])
        (.ofConfig {}) [] (ofText "/module") =
          (besideLink (ofText "/cache")).sourceFiles (.ofConfig {}) [] (ofText "/module") ∧
      ¬ (besideLink (ofText "gone")).Visitable (.ofConfig {}) [] (ofText "/module")
        [ofText "module"] (ofText ".terraform") ∧
      ∃ f, (besideLink (ofText "gone")).sourceFiles (.ofConfig {}) [] (ofText "/module") =
        .error f ∧ IsWalkFailure f := by
  have hentry : ∀ target, (FileTree.entry? (besideLink target)
      [ofText ".terraform", ofText "module"]).isSome = true := fun _ => rfl
  have hvisitable : (besideLink (ofText "/cache")).Visitable (.ofConfig {}) [] (ofText "/module")
      [ofText "module"] (ofText ".terraform") := by
    intro left stack path d henters _
    obtain ⟨rfl, rfl, -⟩ := enters_besideLink henters
    exact ⟨⟨ofText "/module/.terraform", [ofText "cache"], .directory⟩, by cbv⟩
  have hnot : ¬ (besideLink (ofText "gone")).Visitable (.ofConfig {}) [] (ofText "/module")
      [ofText "module"] (ofText ".terraform") := by
    intro h
    have hroot : Enters (besideLink (ofText "gone")) (.ofConfig {}) [] (ofText "/module") _ _ _ _ :=
      .root (find_besideLink _)
    obtain ⟨v, hv⟩ := h _ _ _ _ hroot (find_besideLink _)
    have hgone : FileTree.visit (besideLink (ofText "gone")) []
        [⟨[ofText "module"], ofText "/module"⟩]
        (Path.join (ofText "/module") (ofText ".terraform")) [ofText "module"]
        (ofText ".terraform") =
          .error (unreachable (ofText "/module/.terraform") .notFound) := by cbv
    rw [hgone] at hv
    cases hv
  refine ⟨isNamed_besideLink, hentry, excludes_default, avoids_besideLink, hvisitable, ?_, hnot, ?_⟩
  · exact (sourceFiles_prune (isNamed_besideLink _) (hentry _) excludes_default
      (avoids_besideLink _)).1 hvisitable
  · exact (sourceFiles_prune (isNamed_besideLink _) (hentry _) excludes_default
      (avoids_besideLink _)).2 hnot

theorem sourceFiles_plainModule :
    plainModule.sourceFiles (.ofConfig {}) [] (ofText "/module") =
      .ok [ofText "/module/main.tf"] := by
  have hfind : plainModule.find [] (ofText "/module") = .ok ([ofText "module"], .directory) := by
    cbv
  have hchildren : plainModule.children [ofText "module"] = [ofText "main.tf"] := by
    cbv
  have hvisit : plainModule.visit [] [⟨[ofText "module"], ofText "/module"⟩]
      (Path.join (ofText "/module") (ofText "main.tf")) [ofText "module"] (ofText "main.tf") =
        .ok ⟨ofText "/module/main.tf", [ofText "main.tf", ofText "module"],
          .file (Text.utf8 "output \"id\" \x7b\x7d")⟩ := by
    cbv
  have hkept : (Scan.ofConfig {}).excludes (ofText "main.tf") = false := by
    cbv
  refine sourceFiles_eq_ok_iff.mpr ⟨_, hfind, (walkBelow_eq_ok_iff (spells_of_find hfind)).mpr
    ⟨⟨_, hfind⟩, [[ofText "/module/main.tf"]], ?_, rfl⟩⟩
  rw [hchildren]
  exact .cons (.listed hvisit hkept rfl (by decide)) .nil

theorem sourceFiles_besideLink_gone :
    (besideLink (ofText "gone")).sourceFiles (.ofConfig {}) [] (ofText "/module") =
      .error (unreachable (ofText "/module/.terraform") .notFound) := by
  cbv

theorem sourceFiles_besideLink_loop :
    (besideLink (ofText ".")).sourceFiles (.ofConfig {}) [] (ofText "/module") =
      .error (loopFound (ofText "/module/.terraform")
        ⟨[ofText "module"], ofText "/module"⟩) := by
  cbv

/-- A link that leads nowhere or to the module itself fails the walk, though the entry is
passed over; without the link the walk comes to a list. -/
theorem sourceFiles_ne_of_link_passedOver :
    (∀ target, (besideLink target).IsNamed ∧
      FileTree.entry? (besideLink target) [ofText ".terraform", ofText "module"] =
        some (.link target) ∧
      (besideLink target).Avoids (.ofConfig {}) [] (ofText "/module")
        [ofText ".terraform", ofText "module"] ∧
      FileTree.sourceFiles ((besideLink target).prune [ofText ".terraform", ofText "module"])
        (.ofConfig {}) [] (ofText "/module") = .ok [ofText "/module/main.tf"]) ∧
      (Scan.ofConfig {}).excludes (ofText ".terraform") = true ∧
      (besideLink (ofText "gone")).sourceFiles (.ofConfig {}) [] (ofText "/module") =
        .error (unreachable (ofText "/module/.terraform") .notFound) ∧
      (besideLink (ofText ".")).sourceFiles (.ofConfig {}) [] (ofText "/module") =
        .error (loopFound (ofText "/module/.terraform")
          ⟨[ofText "module"], ofText "/module"⟩) :=
  ⟨fun target => ⟨isNamed_besideLink target, rfl, avoids_besideLink target,
    sourceFiles_plainModule⟩, excludes_default, sourceFiles_besideLink_gone,
    sourceFiles_besideLink_loop⟩

end ModuleOutputs.FileTree
