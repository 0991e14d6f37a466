import ModuleOutputs.CommandLine.Parse

/-!
Command lines in pieces. A piece is a positional argument, or an option next to its value. Although
a setting is done with only when the next piece comes, a line says what its pieces add to it, one
after the other.
-/

namespace ModuleOutputs.CommandLine

/-! ## Pieces -/

/-- A word that is no option, so that it is an argument or the value of a setting. -/
def IsPlain (word : String) : Prop :=
  word.toList.head? ≠ some '-'

instance (word : String) : Decidable (IsPlain word) :=
  inferInstanceAs (Decidable (_ ≠ _))

/-- The words that are an option and nothing more, by its long names and its letters. -/
def wordsFor (o : Named) : List String :=
  (longNames.filter (·.2 = o)).map (fun n => "--" ++ n.1) ++
    (letters.filter (·.2 = o)).map fun l => String.ofList ['-', l.1]

/-- Whether a switch is answered in place of a run. -/
def Switch.isAnswered : Switch → Bool
  | .help | .version => true
  | _ => false

/-- An option of a run, with its value if it is a setting. -/
inductive Given where
  | switch (s : Switch)
  | setting (s : Setting) (value : String)
deriving DecidableEq

/-- A piece of a command line. -/
inductive Piece where
  | positional (word : String) (plain : IsPlain word)
  | switch (s : Switch) (word : String) (names : word ∈ wordsFor (.inl s))
      (run : s.isAnswered = false)
  | setting (s : Setting) (word value : String) (names : word ∈ wordsFor (.inr s))
      (plain : IsPlain value)

namespace Piece

def words : Piece → List String
  | positional word _ => [word]
  | switch _ word _ _ => [word]
  | setting _ word value _ _ => [word, value]

/-- The positional argument that a piece is. -/
def argument? : Piece → Option String
  | positional word _ => some word
  | switch _ _ _ _ => none
  | setting _ _ _ _ _ => none

/-- The option that a piece gives. -/
def option? : Piece → Option Given
  | positional _ _ => none
  | switch s _ _ _ => some (.switch s)
  | setting s _ value _ _ => some (.setting s value)

/-- What a line says with one piece more. -/
def addTo (configValue : Option String) (line : CommandLine) : Piece → Except Refusal CommandLine
  | positional word _ => .ok { line with args := line.args ++ [word] }
  | switch s _ _ _ => turnOn configValue line s
  | setting s _ value _ _ => assign line s value

/-- How a piece is read when all in front of it is done with. A setting is left for later. -/
def read (configValue : Option String) (line : CommandLine) : Piece → Except Refusal Reading
  | positional word _ => .ok { line := { line with args := line.args ++ [word] } }
  | switch s _ _ _ => do
    let line ← turnOn configValue line s
    .ok { line }
  | setting s _ value _ _ => .ok { line, waiting := some (s, some value) }

end Piece

/-- The words of a line. -/
def wordsOf (ps : List Piece) : List String :=
  ps.flatMap Piece.words

/-- The positional arguments of a line, in their order. -/
def argumentsOf (ps : List Piece) : List String :=
  ps.filterMap Piece.argument?

/-- The options of a line. -/
def optionsOf (ps : List Piece) : List Given :=
  ps.filterMap Piece.option?

theorem argumentsOf_append (ps : List Piece) (p : Piece) :
    argumentsOf (ps ++ [p]) = argumentsOf ps ++ p.argument?.toList := by
  rw [argumentsOf, List.filterMap_append]
  cases p <;> rfl

theorem optionsOf_append (ps : List Piece) (p : Piece) :
    optionsOf (ps ++ [p]) = optionsOf ps ++ p.option?.toList := by
  rw [optionsOf, List.filterMap_append]
  cases p <;> rfl

/-! ## Words that name an option -/

/-- Reads an option whose name stands alone in a word. -/
def onNamed (configValue : Option String) (r : Reading) : Named → Except Refusal Reading
  | .inl s => onSwitch configValue r s
  | .inr s => onSetting r s none

section

variable {configValue : Option String} {r : Reading} {o : Named} {word name : String} {c : Char}

/-- Each long name is a word without an equals sign, and stands for its own option. -/
theorem of_mem_longNames : ∀ n ∈ longNames,
    n.1.toList ≠ [] ∧ splitValue n.1.toList = (n.1, none) ∧ longName? n.1 = some n.2 := by
  decide

/-- Each letter is no dash, and stands for its own option. -/
theorem of_mem_letters : ∀ l ∈ letters, l.1 ≠ '-' ∧ letter? l.1 = some l.2 := by
  decide

theorem step_of_longName (hr : r.onlyPositionals = false) (h : (name, o) ∈ longNames) :
    step configValue r ("--" ++ name) = onNamed configValue r o := by
  obtain ⟨hne, hsplit, hname⟩ := of_mem_longNames (name, o) h
  obtain ⟨c, cs, hcs⟩ := List.exists_cons_of_ne_nil hne
  have hword : ("--" ++ name).toList = '-' :: '-' :: c :: cs := by
    rw [String.toList_append, hcs]
    rfl
  unfold step
  rw [hr, hword]
  change onLong configValue r (splitValue (c :: cs)).1 (splitValue (c :: cs)).2 = _
  rw [← hcs, hsplit]
  unfold onLong
  rw [hname]
  cases o <;> rfl

/-- The letter of the help does not ask for the same help as its name. -/
theorem step_of_letter (hr : r.onlyPositionals = false) (h : (c, o) ∈ letters)
    (hhelp : o ≠ .inl .help) :
    step configValue r (String.ofList ['-', c]) = onNamed configValue r o := by
  obtain ⟨hdash, hletter⟩ := of_mem_letters (c, o) h
  have hstep : step configValue r (String.ofList ['-', c]) = onLetters configValue r [c] := by
    simp [step, hr, hdash]
  rw [hstep, onLetters, hletter]
  rcases o with s | s
  · cases s with
    | help => exact absurd rfl hhelp
    | _ => exact bind_pure _
  · rfl

theorem step_of_names (hr : r.onlyPositionals = false) (h : word ∈ wordsFor o)
    (hhelp : o ≠ .inl .help) : step configValue r word = onNamed configValue r o := by
  obtain h | h := List.mem_append.mp h
  · obtain ⟨⟨name, named⟩, hnamed, rfl⟩ := List.mem_map.mp h
    obtain ⟨hmem, ho⟩ := List.mem_filter.mp hnamed
    exact step_of_longName hr (of_decide_eq_true ho ▸ hmem)
  · obtain ⟨⟨c, named⟩, hnamed, rfl⟩ := List.mem_map.mp h
    obtain ⟨hmem, ho⟩ := List.mem_filter.mp hnamed
    exact step_of_letter hr (of_decide_eq_true ho ▸ hmem) hhelp

theorem step_of_isPlain (hr : r.onlyPositionals = false) (h : IsPlain word) :
    step configValue r word = onWord r word := by
  unfold step
  rw [hr, if_neg Bool.false_ne_true]
  split
  · next hword => exact absurd (congrArg List.head? hword) h
  · next hword => exact absurd (congrArg List.head? hword) h
  · next hword => exact absurd (congrArg List.head? hword) h
  · rfl

theorem ne_help_of_run {s : Switch} (h : s.isAnswered = false) :
    (Sum.inl s : Named) ≠ .inl .help := by
  rintro ⟨⟩
  cases h

end

/-! ## Reading piece by piece -/

/-- What has been read says, if nothing comes behind it. -/
def Reading.said (r : Reading) : Except Refusal CommandLine := do
  let r ← settle r
  .ok r.line

/-- A reading between two pieces. Options are still understood, and no setting lacks its value. -/
structure Reading.IsBetween (r : Reading) : Prop where
  options : r.onlyPositionals = false
  filled : ∀ s, r.waiting ≠ some (s, none)

section

variable {configValue : Option String} {r : Reading} {line : CommandLine} {word : String}
  {p : Piece}

theorem isBetween_empty : ({} : Reading).IsBetween :=
  ⟨rfl, nofun⟩

theorem settle_eq (hr : r.onlyPositionals = false) :
    settle r = r.said >>= fun line => .ok { line } := by
  obtain ⟨line, waiting, onlyPositionals⟩ := r
  obtain rfl : onlyPositionals = false := hr
  rcases waiting with _ | ⟨s, _ | value⟩
  · rfl
  · rfl
  · unfold Reading.said settle
    dsimp only
    cases assign line s value <;> rfl

theorem onPositional_eq (hr : r.onlyPositionals = false) :
    onPositional r word =
      r.said >>= fun line => .ok { line := { line with args := line.args ++ [word] } } := by
  rw [onPositional, settle_eq hr, bind_assoc]
  rfl

theorem onSwitch_eq (hr : r.onlyPositionals = false) (s : Switch) :
    onSwitch configValue r s =
      r.said >>= fun line => turnOn configValue line s >>= fun line => .ok { line } := by
  rw [onSwitch, settle_eq hr, bind_assoc]
  rfl

theorem onSetting_eq (hr : r.onlyPositionals = false) (s : Setting) :
    onSetting r s none = r.said >>= fun line => .ok { line, waiting := some (s, none) } := by
  rw [onSetting, settle_eq hr, bind_assoc]
  rfl

theorem onWord_eq (hr : r.IsBetween) : onWord r word = onPositional r word := by
  unfold onWord
  split
  · next s hwaiting => exact absurd hwaiting (hr.filled s)
  · rfl

/-- A piece is read once all in front of it is done with. -/
theorem foldlM_words (hr : r.IsBetween) (p : Piece) :
    p.words.foldlM (step configValue) r = r.said >>= fun line => p.read configValue line := by
  cases p with
  | positional word plain =>
      rw [Piece.words, List.foldlM_cons, step_of_isPlain hr.options plain, onWord_eq hr,
        onPositional_eq hr.options]
      exact bind_pure _
  | switch s word names run =>
      rw [Piece.words, List.foldlM_cons, step_of_names hr.options names (ne_help_of_run run),
        onNamed, onSwitch_eq hr.options]
      exact bind_pure _
  | setting s word value names plain =>
      rw [Piece.words, List.foldlM_cons, step_of_names hr.options names nofun, onNamed,
        onSetting_eq hr.options, bind_assoc]
      refine bind_congr fun line => ?_
      -- The setting waits, so the word behind it is its value.
      have hvalue : step configValue { line, waiting := some (s, none) } value =
          .ok { line, waiting := some (s, some value) } :=
        step_of_isPlain rfl plain
      exact (bind_pure _).trans hvalue

theorem isBetween_of_read (h : p.read configValue line = .ok r) : r.IsBetween := by
  cases p with
  | positional word plain =>
      cases h
      exact ⟨rfl, nofun⟩
  | switch s word names run =>
      rw [Piece.read] at h
      cases hon : turnOn configValue line s with
      | error e =>
          rw [hon] at h
          cases h
      | ok line' =>
          rw [hon] at h
          cases h
          exact ⟨rfl, nofun⟩
  | setting s word value names plain =>
      cases h
      exact ⟨rfl, nofun⟩

theorem read_bind_said (p : Piece) :
    p.read configValue line >>= Reading.said = p.addTo configValue line := by
  cases p with
  | positional word plain => rfl
  | switch s word names run =>
      rw [Piece.read, Piece.addTo, bind_assoc]
      exact bind_pure _
  | setting s word value names plain =>
      change (assign line s value >>= fun line => .ok ({ line } : Reading)) >>=
        (fun r => .ok r.line) = assign line s value
      rw [bind_assoc]
      exact bind_pure _

/-- A setting is assigned in front of the next piece or at the end, which comes to the same. -/
theorem foldlM_wordsOf (hr : r.IsBetween) (ps : List Piece) :
    (wordsOf ps).foldlM (step configValue) r >>= Reading.said =
      r.said >>= fun line => ps.foldlM (Piece.addTo configValue) line := by
  induction ps generalizing r with
  | nil => exact (bind_pure r.said).symm
  | cons p ps ih =>
      rw [wordsOf, List.flatMap_cons, List.foldlM_append, foldlM_words hr, bind_assoc, bind_assoc]
      refine bind_congr fun line => ?_
      rw [List.foldlM_cons, ← read_bind_said]
      cases hread : p.read configValue line with
      | error e => rfl
      | ok r' => exact ih (isBetween_of_read hread)

/-- A line says what its pieces add to it, one after the other. -/
theorem parse_wordsOf (ps : List Piece) :
    parse configValue (wordsOf ps) =
      ps.foldlM (Piece.addTo configValue) {} >>= withEnvironment configValue := by
  have hfold : (wordsOf ps).foldlM (step configValue) {} >>= Reading.said =
      ps.foldlM (Piece.addTo configValue) {} :=
    foldlM_wordsOf isBetween_empty ps
  rw [← hfold, parse, bind_assoc]
  refine bind_congr fun r => ?_
  rw [Reading.said]
  cases settle r <;> rfl

end

end ModuleOutputs.CommandLine
