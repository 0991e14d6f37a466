import ModuleOutputs.Proofs.FileTree.Following

/-!
What is written at a path is read there. A path that leads to a place for a file goes
through directories and links only; so it still leads there once the file is in its
place, and nothing else has changed.
-/

namespace ModuleOutputs.FileTree

open Text (Bytes)

/-- The location that a spot is about. -/
def Spot.location : Spot → Location
  | .entry loc _ => loc
  | .vacant directory name => name :: directory

/-- Whether a location is free for a file: it has one, or it has nothing. -/
def IsFree (t : FileTree) (loc : Location) : Prop :=
  ∀ e, t.entry? loc = some e → ∃ content, e = .file content

theorem IsFree.ne_nil {t : FileTree} {loc : Location} (h : t.IsFree loc) : loc ≠ [] := by
  rintro rfl
  obtain ⟨content, hfile⟩ := h .directory rfl
  cases hfile

/-- A step to a place that is free is still taken once a file is there. -/
theorem Step.put {t : FileTree} {p q : Position} (h : Step t p q) {loc : Location}
    (hfree : t.IsFree loc) (content : Bytes) : Step (t.put loc (.file content)) p q := by
  -- What a step relies on is a directory or a link, and neither is where the file goes.
  have hother : ∀ l e, t.entry? l = some e → (∀ content, e ≠ .file content) →
      FileTree.entry? (t.put loc (.file content)) l = some e := by
    intro l e hl hfile
    have hne : l ≠ loc := by
      rintro rfl
      obtain ⟨content, he⟩ := hfree e hl
      exact hfile content he
    rw [entry?_put_ne _ hne, hl]
  cases h with
  | here inside => exact .here (hother _ _ inside (by simp))
  | above inside => exact .above (hother _ _ inside (by simp))
  | link inside notHere notAbove short ahead some =>
      exact .link (hother _ _ inside (by simp)) notHere notAbove short
        (hother _ _ ahead (by simp)) some
  | @entry links l asDirectory name rest e inside notHere notAbove short ahead noLink =>
      have hinside := hother _ _ inside (by simp)
      by_cases hname : name :: l = loc
      · subst hname
        exact .entry hinside notHere notAbove short (entry?_put_self _ (List.cons_ne_nil _ _) _)
          (by simp)
      · refine .entry hinside notHere notAbove short ?_ noLink
        rw [entry?_put_ne _ hname, ahead]

/-- A path that leads to a place for a file leads to the file that is put there. -/
theorem followFrom_put {t : FileTree} {p : Position} {spot : Spot}
    (h : t.followFrom p = .ok spot) (hfree : t.IsFree spot.location) (content : Bytes) :
    (t.put spot.location (.file content)).followFrom p =
      .ok (.entry spot.location (.file content)) := by
  have hself := entry?_put_self t hfree.ne_nil (.file content)
  induction h using arrival_induction with
  | arrived q _ harrival =>
      cases harrival with
      | @entry links loc asDirectory e place kind =>
          obtain ⟨old, rfl⟩ := hfree e place
          obtain rfl : asDirectory = false := by
            cases asDirectory with
            | false => rfl
            | true => cases kind rfl
          exact followFrom_nil links hself nofun
      | @vacant links loc name inside notHere notAbove short ahead =>
          have hne : loc ≠ name :: loc := by
            intro hl
            have hlength := congrArg List.length hl
            simp at hlength
          -- What was a vacant place is now one step away.
          have hstep : Step (t.put (name :: loc) (.file content)) ⟨links, loc, false, [name]⟩
              ⟨links, name :: loc, false, []⟩ :=
            .entry ((entry?_put_ne t hne _).trans inside) notHere notAbove short hself (by simp)
          exact (followFrom_of_step hstep).trans (followFrom_nil links hself nofun)
  | on p q _ hstep ih =>
      rw [followFrom_of_step (hstep.put hfree content)]
      exact ih

/-- A path for writing leads to a free location, or to a device that keeps nothing. -/
theorem locate_of_writeSpot {t : FileTree} {cwd : Location} {p : Path} {target : Option Location}
    (h : t.writeSpot cwd p = .ok target) :
    (∃ spot, t.locate cwd p = .ok spot ∧ target = some spot.location ∧ t.IsFree spot.location) ∨
      ∃ loc, t.locate cwd p = .ok (.entry loc .sink) ∧ target = none := by
  unfold writeSpot at h
  split at h
  · split at h
    · cases h
    · split at h <;> cases h
  · cases hspot : t.locate cwd p with
    | error fault => simp [hspot] at h
    | ok spot =>
        have hfollow : t.followFrom (.ofPath cwd p) = .ok spot := by
          rw [locate_eq] at hspot
          split at hspot
          · cases hspot
          · exact hspot
        obtain ⟨q, harrival⟩ := arrival_of_followFrom hfollow
        rw [hspot] at h
        cases harrival with
        | @entry _ l _ e place _ =>
            cases e with
            | file content =>
                cases h
                refine .inl ⟨_, rfl, rfl, fun e he => ?_⟩
                rw [Spot.location, place] at he
                exact ⟨content, (Option.some.inj he).symm⟩
            | sink =>
                cases h
                exact .inr ⟨l, rfl, rfl⟩
            | directory | sealed | link target => cases h
        | vacant _ _ _ _ ahead =>
            cases h
            refine .inl ⟨_, rfl, rfl, fun e he => ?_⟩
            rw [Spot.location, ahead] at he
            cases he

/-- Whether a content has been written at a path: it is the content of the file there, and
nothing else has changed, or a device is there that keeps nothing, and nothing has changed. -/
inductive IsWritten (t t' : FileTree) (cwd : Location) (p : Path) (content : Bytes) : Prop
  | file {loc : Location} (holds : t'.find cwd p = .ok (loc, .file content))
      (same : ∀ l, l ≠ loc → t'.entry? l = t.entry? l)
  | device {loc : Location} (sink : t.find cwd p = .ok (loc, .sink)) (same : t' = t)

/-- Writing puts the content at the end of the path, and changes nothing else. -/
theorem isWritten_of_write {t t' : FileTree} {cwd : Location} {p : Path} {content : Bytes}
    (h : t.write cwd p content = .ok t') : t.IsWritten t' cwd p content := by
  unfold write at h
  split at h
  · cases h
  · next hspot =>
      cases h
      rcases locate_of_writeSpot hspot with ⟨spot, -, hsome, -⟩ | ⟨loc, hlocate, -⟩
      · cases hsome
      · exact .device (by rw [find, hlocate]) rfl
  · next loc hspot =>
      cases h
      rcases locate_of_writeSpot hspot with ⟨spot, hlocate, hsome, hfree⟩ | ⟨_, -, hnone⟩
      · obtain rfl := Option.some.inj hsome
        have hsame : ∀ l, l ≠ spot.location →
            FileTree.entry? (t.put spot.location (.file content)) l = t.entry? l :=
          fun l hl => entry?_put_ne t hl _
        refine .file ?_ hsame
        rw [locate_eq] at hlocate
        rw [find, locate_eq]
        split at hlocate
        · cases hlocate
        · simp only [followFrom_put hlocate hfree content]
      · cases hnone

end ModuleOutputs.FileTree
