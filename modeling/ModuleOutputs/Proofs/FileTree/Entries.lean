import ModuleOutputs.FileTree.Basic

/-!
What stands where after a change to a file system. Each operation is described by the
entry at every location after it.
-/

namespace ModuleOutputs.FileTree

theorem entry?_of_ne_nil (t : FileTree) {loc : Location} (h : loc ≠ []) :
    t.entry? loc = (t.entries.find? fun x => x.1 = loc).map (·.2) := by
  cases loc with
  | nil => exact absurd rfl h
  | cons name parent => rfl

theorem find?_of_kept (entries : List (Location × Entry)) (keep : Location → Bool) {l : Location}
    (h : keep l = true) :
    (entries.filter fun x => keep x.1).find? (fun x => x.1 = l) =
      entries.find? fun x => x.1 = l := by
  rw [List.find?_filter]
  congr 1
  funext x
  by_cases hx : x.1 = l
  · simp [hx, h]
  · simp [hx]

theorem find?_of_dropped (entries : List (Location × Entry)) (keep : Location → Bool)
    {l : Location} (h : keep l = false) :
    (entries.filter fun x => keep x.1).find? (fun x => x.1 = l) = none := by
  rw [List.find?_eq_none]
  intro x hx heq
  have hkept := (List.mem_filter.mp hx).2
  rw [of_decide_eq_true heq, h] at hkept
  cases hkept

/-- What stands at a location is one of the entries. -/
theorem mem_entries {t : FileTree} {loc : Location} {e : Entry} (hloc : loc ≠ [])
    (h : t.entry? loc = some e) : (loc, e) ∈ t.entries := by
  rw [entry?_of_ne_nil t hloc, Option.map_eq_some_iff] at h
  obtain ⟨⟨l, e'⟩, hfind, rfl⟩ := h
  obtain rfl : l = loc := by simpa using List.find?_some hfind
  exact List.mem_of_find?_eq_some hfind

theorem entry?_put_self (t : FileTree) {loc : Location} (h : loc ≠ []) (e : Entry) :
    FileTree.entry? (t.put loc e) loc = some e := by
  simp [entry?_of_ne_nil _ h, put]

theorem entry?_put_ne (t : FileTree) {loc l : Location} (h : l ≠ loc) (e : Entry) :
    FileTree.entry? (t.put loc e) l = t.entry? l := by
  by_cases hl : l = []
  · subst hl
    rfl
  · have hkept := find?_of_kept t.entries (fun l => decide (l ≠ loc)) (decide_eq_true h)
    rw [entry?_of_ne_nil _ hl, entry?_of_ne_nil _ hl, put,
      List.find?_cons_of_neg (by simpa using h.symm), hkept]

theorem entry?_prune (t : FileTree) (loc l : Location) :
    FileTree.entry? (t.prune loc) l = if l ≠ [] ∧ loc <:+ l then none else t.entry? l := by
  by_cases hl : l = []
  · subst hl
    rfl
  · rw [entry?_of_ne_nil _ hl, entry?_of_ne_nil _ hl]
    by_cases h : loc <:+ l
    · have hdropped := find?_of_dropped t.entries (fun l => !loc.isSuffixOf l)
        (l := l) (by simpa using h)
      rw [if_pos ⟨hl, h⟩, prune, hdropped]
      rfl
    · have hkept := find?_of_kept t.entries (fun l => !loc.isSuffixOf l)
        (l := l) (by simpa [← Bool.not_eq_true] using h)
      rw [if_neg fun hn => h hn.2, prune, hkept]

end ModuleOutputs.FileTree
