import ModuleOutputs.FileTree.Resolve
import ModuleOutputs.Proofs.FileTree.Entries

/-!
Going along a path, one step at a time. A step looks at the location where one is and at
the one ahead, and either arrives or goes on from another position; following a path is
the repetition of steps. So what a path leads to depends on no other locations than
those that are looked at on the way.
-/

namespace ModuleOutputs.FileTree

/-- Where one is on the way along a path, and what is still ahead. -/
structure Position where
  /-- How many links may still be followed. -/
  links : Nat
  location : Location
  asDirectory : Bool
  names : List Name

/-- What a step comes to. -/
inductive Progress where
  | arrived (r : Except FileFault Spot)
  | on (p : Position)

/-- One step along a path. -/
def advance (t : FileTree) : Position → Progress
  | ⟨_, loc, asDirectory, []⟩ =>
    match t.entry? loc with
    | none => .arrived (.error .notFound)
    | some e =>
      if asDirectory && !e.isDirectory then .arrived (.error .notADirectory)
      else .arrived (.ok (.entry loc e))
  | ⟨links, loc, asDirectory, name :: rest⟩ =>
    match t.entry? loc with
    | some .directory =>
      if name = here then .on ⟨links, loc, asDirectory, rest⟩
      else if name = above then .on ⟨links, loc.tail, asDirectory, rest⟩
      else if nameLimit < name.length then .arrived (.error .nameTooLong)
      else
        match t.entry? (name :: loc) with
        | none =>
          if rest.isEmpty && !asDirectory then .arrived (.ok (.vacant loc name))
          else .arrived (.error .notFound)
        | some (.link target) =>
          match links with
          | 0 => .arrived (.error .tooManyLinks)
          | links + 1 =>
            if target.isEmpty then .arrived (.error .notFound)
            else .on ⟨links, if Path.isAbsolute target then [] else loc,
              if rest.isEmpty then asDirectory || Path.endsInSlash target else asDirectory,
              Path.names target ++ rest⟩
        | some _ => .on ⟨links, name :: loc, asDirectory, rest⟩
    | some _ => .arrived (.error .notADirectory)
    | none => .arrived (.error .notFound)

/-- What the path ahead of a position leads to. -/
def followFrom (t : FileTree) (p : Position) : Except FileFault Spot :=
  t.follow p.links p.location p.asDirectory p.names

/-- Following a path is to take a step and to follow what is then ahead. -/
theorem followFrom_eq (t : FileTree) (p : Position) :
    t.followFrom p =
      match t.advance p with
      | .arrived r => r
      | .on q => t.followFrom q := by
  obtain ⟨links, loc, asDirectory, names⟩ := p
  unfold followFrom
  -- The cases of a step are those of the function that follows.
  fun_cases follow t links loc asDirectory names <;>
    simp [advance, *]
  rfl

/-- The four ways to go on from a position. -/
inductive Step (t : FileTree) : Position → Position → Prop
  /-- The name is that of the directory itself. -/
  | here {links : Nat} {loc : Location} {asDirectory : Bool} {rest : List Name}
      (inside : t.entry? loc = some .directory) :
      Step t ⟨links, loc, asDirectory, FileTree.here :: rest⟩ ⟨links, loc, asDirectory, rest⟩
  /-- The name is that of the directory above. -/
  | above {links : Nat} {loc : Location} {asDirectory : Bool} {rest : List Name}
      (inside : t.entry? loc = some .directory) :
      Step t ⟨links, loc, asDirectory, FileTree.above :: rest⟩ ⟨links, loc.tail, asDirectory, rest⟩
  /-- The name is that of a link, which takes the place of the name. -/
  | link {links : Nat} {loc : Location} {asDirectory : Bool} {name : Name} {rest : List Name}
      {target : Path} (inside : t.entry? loc = some .directory) (notHere : name ≠ FileTree.here)
      (notAbove : name ≠ FileTree.above) (short : name.length ≤ nameLimit)
      (ahead : t.entry? (name :: loc) = some (.link target)) (some : target ≠ []) :
      Step t ⟨links + 1, loc, asDirectory, name :: rest⟩
        ⟨links, if Path.isAbsolute target then [] else loc,
          if rest.isEmpty then asDirectory || Path.endsInSlash target else asDirectory,
          Path.names target ++ rest⟩
  /-- The name is that of another entry. -/
  | entry {links : Nat} {loc : Location} {asDirectory : Bool} {name : Name} {rest : List Name}
      {e : Entry} (inside : t.entry? loc = some .directory) (notHere : name ≠ FileTree.here)
      (notAbove : name ≠ FileTree.above) (short : name.length ≤ nameLimit)
      (ahead : t.entry? (name :: loc) = some e) (noLink : ∀ target, e ≠ .link target) :
      Step t ⟨links, loc, asDirectory, name :: rest⟩ ⟨links, name :: loc, asDirectory, rest⟩

/-- The two ways to arrive at a spot. -/
inductive Arrival (t : FileTree) : Position → Spot → Prop
  /-- No name is ahead. -/
  | entry {links : Nat} {loc : Location} {asDirectory : Bool} {e : Entry}
      (place : t.entry? loc = some e) (kind : asDirectory = true → e.isDirectory = true) :
      Arrival t ⟨links, loc, asDirectory, []⟩ (.entry loc e)
  /-- Nothing has the last name. -/
  | vacant {links : Nat} {loc : Location} {name : Name} (inside : t.entry? loc = some .directory)
      (notHere : name ≠ FileTree.here) (notAbove : name ≠ FileTree.above)
      (short : name.length ≤ nameLimit) (ahead : t.entry? (name :: loc) = none) :
      Arrival t ⟨links, loc, false, [name]⟩ (.vacant loc name)

/-- A step goes on, arrives at a spot or fails, and it goes on and arrives in these ways
alone. -/
theorem advance_cases (t : FileTree) (p : Position) :
    (∃ q, t.advance p = .on q ∧ Step t p q) ∨
      (∃ spot, t.advance p = .arrived (.ok spot) ∧ Arrival t p spot) ∨
      ∃ fault, t.advance p = .arrived (.error fault) := by
  obtain ⟨links, loc, asDirectory, names⟩ := p
  cases names with
  | nil =>
      simp only [advance]
      split
      · exact .inr (.inr ⟨_, rfl⟩)
      · next e hplace =>
          split
          · exact .inr (.inr ⟨_, rfl⟩)
          · next hkind =>
              exact .inr (.inl ⟨_, rfl, .entry hplace fun hd => by simpa [hd] using hkind⟩)
  | cons name rest =>
      simp only [advance]
      split
      · next hinside =>
          split
          · next hname =>
              subst hname
              exact .inl ⟨_, rfl, .here hinside⟩
          split
          · next hname =>
              subst hname
              exact .inl ⟨_, rfl, .above hinside⟩
          split
          · exact .inr (.inr ⟨_, rfl⟩)
          next hhere habove hlong =>
          have hshort := Nat.le_of_not_lt hlong
          split
          · next hahead =>
              split
              · next hlast =>
                  obtain ⟨rfl, rfl⟩ : rest = [] ∧ asDirectory = false := by simpa using hlast
                  exact .inr (.inl ⟨_, rfl, .vacant hinside hhere habove hshort hahead⟩)
              · exact .inr (.inr ⟨_, rfl⟩)
          · next target hlink =>
              cases links with
              | zero => exact .inr (.inr ⟨_, rfl⟩)
              | succ links =>
                  dsimp only
                  split
                  · exact .inr (.inr ⟨_, rfl⟩)
                  · next hsome =>
                      exact .inl ⟨_, rfl, .link hinside hhere habove hshort hlink
                        (by simpa using hsome)⟩
          · next e hlink hentry =>
              exact .inl ⟨_, rfl, .entry hinside hhere habove hshort hentry hlink⟩
      · exact .inr (.inr ⟨_, rfl⟩)
      · exact .inr (.inr ⟨_, rfl⟩)

theorem advance_eq_on_iff {t : FileTree} {p q : Position} :
    t.advance p = .on q ↔ Step t p q := by
  constructor
  · intro h
    rcases t.advance_cases p with ⟨q', hq', hstep⟩ | ⟨spot, hspot, -⟩ | ⟨fault, hfault⟩
    · rw [hq'] at h
      cases h
      exact hstep
    · rw [hspot] at h
      cases h
    · rw [hfault] at h
      cases h
  · intro h
    cases h with
    | here inside => simp [advance, inside]
    | above inside => simp [advance, inside, FileTree.here, FileTree.above]
    | link inside notHere notAbove short ahead some =>
        simp [advance, inside, notHere, notAbove, Nat.not_lt.mpr short, ahead, some]
    | @entry links loc asDirectory name rest e inside notHere notAbove short ahead noLink =>
        cases e <;> simp_all [advance, Nat.not_lt.mpr short]

theorem arrival_of_advance {t : FileTree} {p : Position} {spot : Spot}
    (h : t.advance p = .arrived (.ok spot)) : Arrival t p spot := by
  rcases t.advance_cases p with ⟨q, hq, -⟩ | ⟨spot', hspot, harrival⟩ | ⟨fault, hfault⟩
  · rw [hq] at h
    cases h
  · rw [hspot] at h
    cases h
    exact harrival
  · rw [hfault] at h
    cases h

theorem Step.unique {t : FileTree} {p q q' : Position} (h : Step t p q) (h' : Step t p q') :
    q' = q := by
  have hq := advance_eq_on_iff.mpr h
  rw [advance_eq_on_iff.mpr h'] at hq
  cases hq
  rfl

theorem followFrom_of_step {t : FileTree} {p q : Position} (h : Step t p q) :
    t.followFrom p = t.followFrom q := by
  rw [followFrom_eq, advance_eq_on_iff.mpr h]

/-- Every step leaves fewer links to follow, or as many and fewer names. -/
theorem Step.decreases {t : FileTree} {p q : Position} (h : Step t p q) :
    q.links < p.links ∨ q.links = p.links ∧ q.names.length < p.names.length := by
  cases h with
  | here | above | entry => exact .inr ⟨rfl, Nat.lt_succ_self _⟩
  | link => exact .inl (Nat.lt_succ_self _)

/-- What holds of a position if it holds of the next one holds of all positions. -/
theorem step_induction (t : FileTree) {motive : Position → Prop}
    (h : ∀ p, (∀ q, Step t p q → motive q) → motive p) (p : Position) : motive p :=
  h p fun q hq =>
    have := hq.decreases
    step_induction t h q
termination_by (p.links, p.names.length)
decreasing_by
  rcases this with hlinks | ⟨hlinks, hnames⟩
  · exact Prod.Lex.left _ _ hlinks
  · rw [hlinks]
    exact Prod.Lex.right _ hnames

/-- What holds of a position from which one arrives at a spot, and of every position from
which a step leads to one of which it holds, holds wherever one arrives from. -/
theorem arrival_induction {t : FileTree} {spot : Spot}
    {motive : (p : Position) → t.followFrom p = .ok spot → Prop}
    (arrived : ∀ p h, Arrival t p spot → motive p h)
    (on : ∀ p q h (hstep : Step t p q), motive q h →
      motive p ((followFrom_of_step hstep).trans h))
    {p : Position} (h : t.followFrom p = .ok spot) : motive p h := by
  induction p using step_induction t with
  | h p ih =>
      have hnext := h
      rw [followFrom_eq] at hnext
      cases hp : t.advance p with
      | arrived r =>
          rw [hp] at hnext
          subst hnext
          exact arrived p h (arrival_of_advance hp)
      | on q =>
          rw [hp] at hnext
          have hstep := advance_eq_on_iff.mp hp
          exact on p q hnext hstep (ih q hstep hnext)

/-- Whoever arrives at a spot does so from some last position. -/
theorem arrival_of_followFrom {t : FileTree} {p : Position} {spot : Spot}
    (h : t.followFrom p = .ok spot) : ∃ q, Arrival t q spot := by
  induction h using arrival_induction with
  | arrived q _ harrival => exact ⟨q, harrival⟩
  | on _ _ _ _ ih => exact ih

/-- What is led to is what stands at its location. -/
theorem entry?_of_followFrom {t : FileTree} {p : Position} {loc : Location} {e : Entry}
    (h : t.followFrom p = .ok (.entry loc e)) : t.entry? loc = some e := by
  obtain ⟨q, harrival⟩ := arrival_of_followFrom h
  cases harrival with
  | entry place _ => exact place

/-- Without names ahead one arrives at the entry where one is. -/
theorem followFrom_nil {t : FileTree} {loc : Location} {asDirectory : Bool} {e : Entry}
    (links : Nat) (place : t.entry? loc = some e) (kind : asDirectory = true → e.isDirectory = true) :
    t.followFrom ⟨links, loc, asDirectory, []⟩ = .ok (.entry loc e) := by
  rw [followFrom_eq]
  cases asDirectory with
  | false => simp [advance, place]
  | true => simp [advance, place, kind rfl]

/-! ## Paths -/

/-- Why a path is not even looked at. -/
def pathFault? (p : Path) : Option FileFault :=
  if p.contains 0 then some .nulInName
  else if p.isEmpty then some .notFound
  else if pathLimit < p.length then some .nameTooLong
  else none

theorem pathFault?_eq_none_iff {p : Path} :
    pathFault? p = none ↔ 0 ∉ p ∧ p ≠ [] ∧ p.length ≤ pathLimit := by
  unfold pathFault?
  split
  · simp_all
  split
  · simp_all
  split <;> simp_all

/-- The position at the beginning of a path. -/
def Position.ofPath (cwd : Location) (p : Path) : Position :=
  ⟨linkLimit, if Path.isAbsolute p then [] else cwd, Path.endsInSlash p, Path.names p⟩

theorem locate_eq (t : FileTree) (cwd : Location) (p : Path) :
    t.locate cwd p =
      match pathFault? p with
      | some fault => .error fault
      | none => t.followFrom (.ofPath cwd p) := by
  unfold locate pathFault?
  split
  · rfl
  split
  · rfl
  split <;> rfl

/-! ## What is looked at -/

/-- The locations that are looked at from a position on. -/
inductive Sees (t : FileTree) : Position → Location → Prop
  | place {p : Position} : Sees t p p.location
  | ahead {p : Position} {name : Name} {rest : List Name} (names : p.names = name :: rest) :
      Sees t p (name :: p.location)
  | later {p q : Position} {loc : Location} (step : Step t p q) (sees : Sees t q loc) :
      Sees t p loc

theorem advance_congr {t t' : FileTree} {p : Position}
    (hplace : t'.entry? p.location = t.entry? p.location)
    (hahead : ∀ name rest, p.names = name :: rest →
      t'.entry? (name :: p.location) = t.entry? (name :: p.location)) :
    t'.advance p = t.advance p := by
  obtain ⟨links, loc, asDirectory, names⟩ := p
  cases names with
  | nil => simp only [advance, hplace]
  | cons name rest => simp only [advance, hplace, hahead name rest rfl]

/-- Two file systems that agree on what is looked at lead to the same. -/
theorem followFrom_congr {t t' : FileTree} {p : Position}
    (h : ∀ loc, Sees t p loc → t'.entry? loc = t.entry? loc) :
    t'.followFrom p = t.followFrom p := by
  induction p using step_induction t with
  | h p ih =>
      -- The same step is taken in both, and what is seen after it is seen from here.
      have hadvance : t'.advance p = t.advance p :=
        advance_congr (h _ .place) fun name rest hnames => h _ (.ahead hnames)
      rw [followFrom_eq t', followFrom_eq t, hadvance]
      cases hp : t.advance p with
      | arrived r => rfl
      | on q =>
          have hstep := advance_eq_on_iff.mp hp
          exact ih q hstep fun loc hloc => h loc (.later hstep hloc)

end ModuleOutputs.FileTree
