import ModuleOutputs.Proofs.Json.Records

/-!
Readers that fail at a value, with the same problem however the value is spelled. An object fails
with the problem of the first field that does not read, as long as the fields before that do; and
where no container may be opened any more every object is too deep.
-/

namespace ModuleOutputs.Json

open Text (Piece)

variable {α : Type} {problem : Problem} {v : Value} {depth fuel : Nat} {ps ps' rest : List Piece}

/-- Whether reading a value fails with a problem, however the value is spelled. -/
def FailsAt (problem : Problem) (read : List Piece → Except Fault (α × List Piece)) (v : Value) :
    Prop :=
  ∀ ps rest, Spells (.value v) (skipSpace ps) rest → ∃ f, read ps = .error f ∧ f.problem = problem

theorem FailsAt.map {β : Type} {read : List Piece → Except Fault (α × List Piece)}
    (h : FailsAt problem read v) (g : α × List Piece → β × List Piece) :
    FailsAt problem (fun ps => (read ps).map g) v := by
  intro ps rest hv
  obtain ⟨f, hread, hproblem⟩ := h ps rest hv
  refine ⟨f, ?_, hproblem⟩
  dsimp only
  rw [hread]
  rfl

/-- What is not `null` is read as a value, or fails as one. -/
theorem FailsAt.readOption {read : Reader α} (hv : v ≠ .null) (h : FailsAt problem (read depth) v) :
    FailsAt problem (readOption read depth) v := by
  intro ps rest hspells
  unfold Json.readOption
  split
  · next hspace =>
      rw [hspace] at hspells
      exact absurd (eq_null_of_spells hspells) hv
  · exact (h.map _) _ rest (by rwa [skipSpace_idem])

namespace Shape

/-- Whether the members of an object come to a field that fails with a problem, behind fields that
are read. `seen` has the keys of fields before them. -/
inductive Trips (shape : Shape α) (means : String → Nat → Value → Option (α → α))
    (problem : Problem) (depth : Nat) : List (Units × Value) → (seen : List String) → Prop
  | here {us : Units} {v : Value} {ms : List (Units × Value)} {seen : List String} {m : Member α}
      (key : us.text? = some m.key) (field : (shape.members.find? (·.key = m.key)) = some m)
      (unseen : m.key ∉ seen) (fails : FailsAt problem (m.read depth) v) :
      Trips shape means problem depth ((us, v) :: ms) seen
  | later {us : Units} {v : Value} {ms : List (Units × Value)} {seen : List String} {m : Member α}
      {change : α → α} (key : us.text? = some m.key)
      (field : (shape.members.find? (·.key = m.key)) = some m) (unseen : m.key ∉ seen)
      (meant : means m.key depth v = some change)
      (next : Trips shape means problem depth ms (m.key :: seen)) :
      Trips shape means problem depth ((us, v) :: ms) seen

end Shape

section

variable {shape : Shape α} {means : String → Nat → Value → Option (α → α)}

/-- A member that is a field is read as one, and then the others are. -/
theorem membersFrom_field {first : Bool} {a : α} {seen : List String} {us : Units} {m : Member α}
    (hmember : Spells (.member us v) ps' rest) (hgoes : GoesOn first ps ps')
    (key : us.text? = some m.key) (field : (shape.members.find? (·.key = m.key)) = some m)
    (unseen : m.key ∉ seen) :
    ∃ qs, Spells (.value v) (skipSpace qs) rest ∧
      membersFrom shape depth (fuel + 1) first a seen ps =
        (m.read depth qs >>= fun x =>
          membersFrom shape depth fuel false (x.1 a) (m.key :: seen) x.2) := by
  cases hmember with
  | member opening string colon value =>
      refine ⟨_, value, ?_⟩
      have hseen : seen.contains m.key = false := by simpa using unseen
      have hkey := string_eq_ok_iff.mpr ⟨us, string, key⟩
      have hcolon := colon_eq_ok_iff.mpr colon
      rw [membersFrom, nextKey_of_goesOn hgoes opening]
      simp only [bind, Except.bind, if_true, hkey, field, hseen, Bool.false_eq_true, if_false,
        hcolon]

theorem membersFrom_of_trips (h : ∀ m ∈ shape.members, Means m.read (means m.key)) {first : Bool}
    {a : α} {seen : List String} {ms : List (Units × Value)}
    (htrips : shape.Trips means problem depth ms seen) (hms : Spells (.members ms) ps' rest)
    (hgoes : GoesOn first ps ps') (hfuel : ps'.length < fuel) :
    ∃ f, membersFrom shape depth fuel first a seen ps = .error f ∧ f.problem = problem := by
  induction htrips generalizing fuel first a ps ps' with
  | @here us v ms seen m key field unseen fails =>
      obtain ⟨fuel, rfl⟩ : ∃ fuel', fuel = fuel' + 1 := ⟨fuel - 1, by omega⟩
      have hfirst : ∀ {ps₂}, Spells (.member us v) ps' ps₂ →
          ∃ f, membersFrom shape depth (fuel + 1) first a seen ps = .error f ∧
            f.problem = problem := by
        intro ps₂ hmember
        obtain ⟨qs, hv, heq⟩ := membersFrom_field hmember hgoes key field unseen
        obtain ⟨f, hread, hproblem⟩ := fails qs ps₂ hv
        exact ⟨f, by rw [heq, hread]; rfl, hproblem⟩
      cases hms with
      | lastMember hmember _ => exact hfirst hmember
      | moreMembers hmember _ _ => exact hfirst hmember
  | @later us v ms seen m change key field unseen meant next ih =>
      obtain ⟨fuel, rfl⟩ : ∃ fuel', fuel = fuel' + 1 := ⟨fuel - 1, by omega⟩
      cases hms with
      | lastMember _ _ => cases next
      | @moreMembers _ _ _ _ ps₂ ps₃ _ hmember comma hothers =>
          have hlength := hmember.length_lt
          have hcomma := length_of_skipSpace comma
          obtain ⟨qs, hv, heq⟩ := membersFrom_field hmember hgoes key field unseen
          have hread := (h m (List.mem_of_find?_eq_some field)).complete hv meant
          have hgoes' : GoesOn false ps₂ ps₃ := comma
          obtain ⟨f, hrest, hproblem⟩ : ∃ f, membersFrom shape depth fuel false (change a)
              (m.key :: seen) ps₂ = .error f ∧ f.problem = problem :=
            ih hothers hgoes' (by omega)
          exact ⟨f, by rw [heq, hread]; exact hrest, hproblem⟩

theorem readRecord_tooDeep (shape : Shape α) (ms : List (Units × Value)) :
    FailsAt .tooDeep (readRecord shape 0) (.object ms) := by
  intro ps rest hv
  unfold readRecord
  generalize skipSpace ps = qs at hv ⊢
  cases hv <;> exact ⟨_, rfl, rfl⟩

theorem readRecord_of_trips (h : ∀ m ∈ shape.members, Means m.read (means m.key))
    {ms : List (Units × Value)} (htrips : shape.Trips means problem depth ms []) :
    FailsAt problem (readRecord shape (depth + 1)) (.object ms) := by
  intro ps rest hv
  unfold readRecord
  generalize skipSpace ps = qs at hv ⊢
  cases hv with
  | emptyObject close => cases htrips
  | object members => exact membersFrom_of_trips h htrips members rfl (Nat.lt_succ_self _)

end

/-- A text whose value fails fails with the same problem, and says so. -/
theorem FailsAt.decode_eq {read : Reader α} (h : FailsAt problem (read depthLimit) v)
    {text : String} (hv : IsDocument v (Text.piecesOf text)) :
    ∃ line column : Nat, decode read text = .error
      (problem.describe ++ " at line " ++ toString line ++ " column " ++ toString column) := by
  obtain ⟨rest, hspells, -⟩ := hv
  obtain ⟨f, hread, rfl⟩ := h _ rest hspells
  refine ⟨(f.place (Text.piecesOf text)).line, (f.place (Text.piecesOf text)).column, ?_⟩
  rw [decode, decodePieces, hread]
  rfl

end ModuleOutputs.Json
