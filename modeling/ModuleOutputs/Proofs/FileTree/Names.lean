import ModuleOutputs.FileTree.Resolve

/-!
The names that a path goes through. To join the name of an entry to a path is to go
through that name last, and so for one name after the other.
-/

namespace ModuleOutputs

/-- A name that an entry of a directory can have. -/
structure Name.IsProper (n : Name) : Prop where
  notEmpty : n ≠ []
  noSlash : Path.slash ∉ n
  notHere : n ≠ FileTree.here
  notAbove : n ≠ FileTree.above
  short : n.length ≤ FileTree.nameLimit

instance (n : Name) : Decidable n.IsProper :=
  decidable_of_iff (n ≠ [] ∧ Path.slash ∉ n ∧ n ≠ FileTree.here ∧ n ≠ FileTree.above ∧
    n.length ≤ FileTree.nameLimit)
    ⟨fun ⟨notEmpty, noSlash, notHere, notAbove, short⟩ =>
        ⟨notEmpty, noSlash, notHere, notAbove, short⟩,
      fun h => ⟨h.notEmpty, h.noSlash, h.notHere, h.notAbove, h.short⟩⟩

namespace Path

theorem split_ne_nil (p : Path) : split p ≠ [] := by
  cases p with
  | nil => exact List.cons_ne_nil _ _
  | cons b rest =>
      unfold split
      split
      · exact List.cons_ne_nil _ _
      · split <;> exact List.cons_ne_nil _ _

/-- A slash separates what stands before it from what stands behind it. -/
theorem split_append_slash (p q : Path) : split (p ++ slash :: q) = split p ++ split q := by
  induction p with
  | nil => simp [split]
  | cons b rest ih =>
      rw [List.cons_append]
      by_cases hb : b = slash
      · simp only [split, hb, if_true, ih, List.cons_append]
      · simp only [split, hb, if_false, ih]
        cases hrest : split rest with
        | nil => exact absurd hrest (split_ne_nil rest)
        | cons name names => rfl

theorem split_of_noSlash {n : Name} (h : slash ∉ n) : split n = [n] := by
  induction n with
  | nil => rfl
  | cons b rest ih =>
      obtain ⟨hb, hrest⟩ := not_or.mp (mt List.mem_cons.mpr h)
      simp only [split, Ne.symm hb, if_false, ih hrest]

theorem names_append_slash (p q : Path) : names (p ++ slash :: q) = names p ++ names q := by
  simp only [names, split_append_slash, List.filter_append]

theorem names_of_noSlash {n : Name} (hsome : n ≠ []) (h : slash ∉ n) : names n = [n] := by
  simp [names, split_of_noSlash h, hsome]

theorem isAbsolute_of_noSlash {n : Name} (h : slash ∉ n) : isAbsolute n = false := by
  cases n with
  | nil => rfl
  | cons b rest =>
      have hb : b ≠ slash := fun hb => h (hb ▸ List.mem_cons_self)
      simpa [isAbsolute] using hb

/-- Below a directory, what is joined stands behind a slash. -/
theorem join_of_noSlash {p : Path} {n : Name} (hp : p ≠ []) (h : slash ∉ n) :
    join p n = if p.getLast? = some slash then p ++ n else p ++ slash :: n := by
  simp [join, isAbsolute_of_noSlash h, hp]

theorem names_join_of_noSlash {p : Path} {n : Name} (hp : p ≠ []) (hsome : n ≠ [])
    (h : slash ∉ n) : names (join p n) = names p ++ [n] := by
  rw [join_of_noSlash hp h]
  split
  · next hlast =>
      obtain ⟨q, rfl⟩ := List.getLast?_eq_some_iff.mp hlast
      rw [List.append_assoc, List.singleton_append, names_append_slash, names_append_slash,
        names_of_noSlash hsome h]
      simp [names, split]
  · rw [names_append_slash, names_of_noSlash hsome h]

theorem names_of_isProper {n : Name} (h : n.IsProper) : names n = [n] :=
  names_of_noSlash h.notEmpty h.noSlash

theorem isAbsolute_of_isProper {n : Name} (h : n.IsProper) : isAbsolute n = false :=
  isAbsolute_of_noSlash h.noSlash

theorem join_of_isProper {p : Path} {n : Name} (hp : p ≠ []) (h : n.IsProper) :
    join p n = if p.getLast? = some slash then p ++ n else p ++ slash :: n :=
  join_of_noSlash hp h.noSlash

theorem names_join {p : Path} {n : Name} (hp : p ≠ []) (h : n.IsProper) :
    names (join p n) = names p ++ [n] :=
  names_join_of_noSlash hp h.notEmpty h.noSlash

theorem isAbsolute_join {p : Path} {n : Name} (hp : p ≠ []) (h : n.IsProper) :
    isAbsolute (join p n) = isAbsolute p := by
  cases p with
  | nil => exact absurd rfl hp
  | cons b rest =>
      rw [join_of_isProper hp h]
      split <;> rfl

theorem join_ne_nil {p : Path} {n : Name} (hp : p ≠ []) (h : n.IsProper) : join p n ≠ [] := by
  rw [join_of_isProper hp h]
  split <;> simp [hp]

/-- One name after the other joined to a path. -/
theorem names_foldl_join {p : Path} (hp : p ≠ []) {ns : List Name} (h : ∀ n ∈ ns, n.IsProper) :
    names (ns.foldl join p) = names p ++ ns := by
  induction ns generalizing p with
  | nil => exact (List.append_nil _).symm
  | cons n rest ih =>
      have hn := h n List.mem_cons_self
      rw [List.foldl_cons, ih (join_ne_nil hp hn) fun m hm => h m (List.mem_cons_of_mem n hm),
        names_join hp hn, List.append_assoc, List.singleton_append]

theorem isAbsolute_foldl_join {p : Path} (hp : p ≠ []) {ns : List Name}
    (h : ∀ n ∈ ns, n.IsProper) : isAbsolute (ns.foldl join p) = isAbsolute p := by
  induction ns generalizing p with
  | nil => rfl
  | cons n rest ih =>
      have hn := h n List.mem_cons_self
      rw [List.foldl_cons, ih (join_ne_nil hp hn) fun m hm => h m (List.mem_cons_of_mem n hm),
        isAbsolute_join hp hn]

/-- Different names joined to a path make different paths. -/
theorem foldl_join_inj {p : Path} (hp : p ≠ []) {ns ms : List Name} (hns : ∀ n ∈ ns, n.IsProper)
    (hms : ∀ n ∈ ms, n.IsProper) (h : ns.foldl join p = ms.foldl join p) : ns = ms := by
  have hnames := congrArg names h
  rwa [names_foldl_join hp hns, names_foldl_join hp hms, List.append_cancel_left_eq] at hnames

end Path

end ModuleOutputs
