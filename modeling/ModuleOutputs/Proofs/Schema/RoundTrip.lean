import ModuleOutputs.Proofs.Json.Decoding
import ModuleOutputs.Proofs.Json.Failing
import ModuleOutputs.Schema.Fragment

/-!
Fragments read back. Every level of a fragment is a container of its own, so a fragment is read
back from what was written for it as long as it has no more levels than containers may be opened
inside each other. One with more levels is too deep wherever it is written, and is not read as a
fragment with fewer.
-/

namespace ModuleOutputs

/-! ## Members that may be left out -/

namespace Json

variable {α : Type} {shape : Shape α} {means : String → Nat → Value → Option (α → α)}
  {problem : Problem} {depth : Nat} {m : Member α} {key key' : String} {x : Option Json}
  {others : List (String × Json)} {seen : List String}

/-- The member for a value that may be absent. -/
def optional (key : String) (x : Option Json) : List (String × Json) :=
  (x.map fun v => (key, v)).toList

/-- The keys that were seen once there was or was not a member. -/
def seenWith (key : String) (x : Option Json) (seen : List String) : List String :=
  if x.isSome then key :: seen else seen

theorem notMem_seenWith (hne : key' ≠ key) (h : key' ∉ seen) : key' ∉ seenWith key x seen := by
  unfold seenWith
  split <;> simp [hne, h]

theorem key_of_find? (field : shape.members.find? (·.key = key) = some m) : m.key = key := by
  simpa using List.find?_some field

/-- A member that may be left out makes the change that its value means, or none. -/
theorem Shape.ofMembers_optional {a : α} {change : α → α}
    (field : shape.members.find? (·.key = key) = some m) (unseen : key ∉ seen)
    (meant : ∀ v ∈ x, means key depth v.value = some change) (absent : x = none → change a = a) :
    shape.ofMembers means depth (memberValues (optional key x ++ others)) a seen =
      shape.ofMembers means depth (memberValues others) (change a) (seenWith key x seen) := by
  obtain rfl := key_of_find? field
  cases x with
  | none =>
      rw [absent rfl]
      rfl
  | some v =>
      simp [optional, seenWith, memberValues, ofMembers, unitsOfText_text?, field, unseen,
        meant v rfl]

theorem Shape.Trips.optional (field : shape.members.find? (·.key = key) = some m)
    (unseen : key ∉ seen) (meant : ∀ v ∈ x, ∃ change, means key depth v.value = some change)
    (next : shape.Trips means problem depth (memberValues others) (seenWith key x seen)) :
    shape.Trips means problem depth (memberValues (optional key x ++ others)) seen := by
  obtain rfl := key_of_find? field
  cases x with
  | none => exact next
  | some v =>
      obtain ⟨change, hchange⟩ := meant v rfl
      exact .later (unitsOfText_text? _) field unseen hchange next

theorem Shape.Trips.part {v : Json} (field : shape.members.find? (·.key = key) = some m)
    (unseen : key ∉ seen) (fails : FailsAt problem (m.read depth) v.value) :
    shape.Trips means problem depth (memberValues (Json.optional key (some v) ++ others)) seen := by
  obtain rfl := key_of_find? field
  exact .here (unitsOfText_text? _) field unseen fails

end Json

namespace Schema.Fragment

open Json (Value FailsAt memberValues)

/-! ## Levels -/

mutual

/-- How many levels a fragment has. -/
def height : Fragment → Nat
  | .mk _ items values _ => max (partHeight items) (partHeight values) + 1

def partHeight : Option Fragment → Nat
  | none => 0
  | some f => height f

end

theorem height_pos (f : Fragment) : 0 < f.height := by
  cases f
  exact Nat.succ_pos _

/-! ## What is written -/

theorem partJson_eq (key : String) (x : Option Fragment) :
    partJson key x = Json.optional key (x.map toJson) := by
  cases x <;> rfl

theorem value_toJson (k : Option Kind) (i v : Option Fragment) (r : Option String) :
    (mk k i v r).toJson.value = .object (memberValues
      (Json.optional "type" (k.map fun k => .text k.word) ++
        (Json.optional "items" (i.map toJson) ++
          (Json.optional "additionalProperties" (v.map toJson) ++
            (Json.optional "$ref" (r.map .text) ++ []))))) := by
  rw [toJson, partJson_eq, partJson_eq, Json.value]
  simp [Json.optional, Function.comp_def]

theorem exists_value_toJson (f : Fragment) : ∃ ms, f.toJson.value = .object ms := by
  cases f
  exact ⟨_, value_toJson _ _ _ _⟩

/-! ## What is read -/

/-- What a value makes of a fragment as one of its parts. `inner` is what a value means as a
fragment one level down. -/
def fieldMeaning (inner : Value → Option Fragment) (key : String) (depth : Nat) (v : Value) :
    Option (Fragment → Fragment) :=
  if key = "type" then (v.option? (Json.wordMeaning kindWords depth)).map withKind
  else if key = "items" then (v.option? inner).map withItems
  else if key = "additionalProperties" then (v.option? inner).map withValues
  else if key = "$ref" then (v.option? Value.text?).map withReference
  else none

/-- What a value means as a fragment of so many levels at most. -/
def meaning : (depth : Nat) → Value → Option Fragment
  | 0, _ => none
  | depth + 1, v =>
    (shape fun _ => read depth).meaning (fieldMeaning (meaning depth)) (depth + 1) v

theorem meaning_null (depth : Nat) : meaning depth .null = none := by
  cases depth <;> rfl

theorem members_mean {depth : Nat} (h : Json.Means (fun _ => read depth) fun _ => meaning depth) :
    ∀ m ∈ (shape fun _ => read depth).members,
      Json.Means m.read (fieldMeaning (meaning depth) m.key) := by
  have hpart := Json.readOption_means h fun _ => meaning_null depth
  refine List.forall_mem_cons.mpr ⟨?_, List.forall_mem_cons.mpr ⟨?_, List.forall_mem_cons.mpr
    ⟨?_, List.forall_mem_singleton.mpr ?_⟩⟩⟩
  · exact (Json.readOption_means (Json.readWord_means kindWords) fun depth => by
      cases depth <;> rfl).map withKind
  · exact hpart.map withItems
  · exact hpart.map withValues
  · exact (Json.readOption_means Json.readText_means fun _ => rfl).map withReference

theorem read_means_at (depth : Nat) :
    Json.Means (fun _ => read depth) fun _ => meaning depth := by
  induction depth with
  | zero =>
      refine ⟨fun {_ ps rest f} h => ?_, fun _ h => nomatch h⟩
      unfold read Json.readRecord at h
      split at h <;> cases h
  | succ depth ih =>
      have hmeans := Json.readRecord_means (members_mean ih)
      exact ⟨hmeans.sound, hmeans.complete⟩

/-- A fragment is read as what its value means. -/
theorem read_means : Json.Means read meaning where
  sound {depth _ _ _} h := @(read_means_at depth).sound 0 _ _ _ h
  complete {depth _ _ _ _} hv h := @(read_means_at depth).complete 0 _ _ _ _ hv h

section

variable {depth : Nat} {x : Option Fragment}

theorem option?_toJson {f : Fragment} (h : meaning depth f.toJson.value = some f) :
    f.toJson.value.option? (meaning depth) = some (some f) := by
  obtain ⟨ms, hms⟩ := exists_value_toJson f
  rw [hms] at h ⊢
  exact congrArg (Option.map some) h

/-- A part that is a fragment is read back if it has no more levels than are left. -/
theorem fieldMeaning_part
    (h : ∀ f : Fragment, f.height ≤ depth → meaning depth f.toJson.value = some f)
    (hx : partHeight x ≤ depth) {d : Nat} {v : Json} (hv : v ∈ x.map toJson) :
    fieldMeaning (meaning depth) "items" d v.value = some (withItems x) ∧
      fieldMeaning (meaning depth) "additionalProperties" d v.value = some (withValues x) := by
  obtain ⟨f, rfl, rfl⟩ := Option.map_eq_some_iff.mp hv
  simp [fieldMeaning, option?_toJson (h f hx)]

theorem fieldMeaning_kind {k : Option Kind} {v : Json} (hv : v ∈ k.map fun k => Json.text k.word) :
    fieldMeaning (meaning depth) "type" depth v.value = some (withKind k) := by
  obtain ⟨k, rfl, rfl⟩ := Option.map_eq_some_iff.mp hv
  have hnamed : Json.named kindWords k.word = some k := by cases k <;> rfl
  simp [fieldMeaning, Json.value, Value.option?, Json.wordMeaning, Json.unitsOfText_text?, hnamed]

theorem fieldMeaning_reference {r : Option String} {v : Json} (hv : v ∈ r.map Json.text) :
    fieldMeaning (meaning depth) "$ref" depth v.value = some (withReference r) := by
  obtain ⟨r, rfl, rfl⟩ := Option.map_eq_some_iff.mp hv
  simp [fieldMeaning, Json.value, Value.option?, Value.text?, Json.unitsOfText_text?]

end

theorem unseen_items {x : Option Json} : "items" ∉ Json.seenWith "type" x [] :=
  Json.notMem_seenWith (by decide) List.not_mem_nil

theorem unseen_values {x y : Option Json} :
    "additionalProperties" ∉ Json.seenWith "items" y (Json.seenWith "type" x []) :=
  Json.notMem_seenWith (by decide)
    (Json.notMem_seenWith (by decide) List.not_mem_nil)

theorem unseen_reference {x y z : Option Json} : "$ref" ∉
    Json.seenWith "additionalProperties" z (Json.seenWith "items" y (Json.seenWith "type" x [])) :=
  Json.notMem_seenWith (by decide)
    (Json.notMem_seenWith (by decide) (Json.notMem_seenWith (by decide) List.not_mem_nil))

/-- What is written for a fragment means that fragment where it may have so many levels. -/
theorem meaning_toJson {depth : Nat} {f : Fragment} (h : f.height ≤ depth) :
    meaning depth f.toJson.value = some f := by
  induction depth generalizing f with
  | zero => exact absurd h (Nat.not_le.mpr f.height_pos)
  | succ depth ih =>
      obtain ⟨k, i, v, r⟩ := f
      have hparts : partHeight i ≤ depth ∧ partHeight v ≤ depth := by
        rw [height] at h
        omega
      rw [value_toJson, meaning, Json.Shape.meaning]
      -- Each member sets its part. Where one is left out, its part is absent as it was.
      rw [Json.Shape.ofMembers_optional rfl List.not_mem_nil (fun _ => fieldMeaning_kind)
          fun hk => by rw [Option.map_eq_none_iff.mp hk]; rfl,
        Json.Shape.ofMembers_optional rfl unseen_items
          (fun _ hv => (fieldMeaning_part (fun _ => ih) hparts.1 hv).1)
          fun hi => by rw [Option.map_eq_none_iff.mp hi]; rfl,
        Json.Shape.ofMembers_optional rfl unseen_values
          (fun _ hv => (fieldMeaning_part (fun _ => ih) hparts.2 hv).2)
          fun hv => by rw [Option.map_eq_none_iff.mp hv]; rfl,
        Json.Shape.ofMembers_optional rfl unseen_reference (fun _ => fieldMeaning_reference)
          fun hr => by rw [Option.map_eq_none_iff.mp hr]; rfl]
      rfl

/-- A fragment with more levels is too deep. -/
theorem failsAt_toJson {depth : Nat} {f : Fragment} (h : depth < f.height) :
    FailsAt .tooDeep (read depth) f.toJson.value := by
  induction depth generalizing f with
  | zero =>
      obtain ⟨ms, hms⟩ := exists_value_toJson f
      rw [hms]
      exact Json.readRecord_tooDeep _ ms
  | succ depth ih =>
      obtain ⟨k, i, v, r⟩ := f
      have hpart : ∀ {g : Fragment}, depth < g.height →
          FailsAt .tooDeep (Json.readOption (fun _ => read depth) depth) g.toJson.value := by
        intro g hg
        obtain ⟨ms, hms⟩ := exists_value_toJson g
        exact FailsAt.readOption (by simp [hms]) (ih hg)
      rw [value_toJson]
      refine Json.readRecord_of_trips (members_mean (read_means_at depth)) ?_
      refine .optional rfl List.not_mem_nil (fun _ hk => ⟨_, fieldMeaning_kind hk⟩) ?_
      -- If the first part that is a fragment is read, the second one has too many levels.
      by_cases hi : partHeight i ≤ depth
      · refine .optional rfl unseen_items
          (fun _ hj => ⟨_, (fieldMeaning_part (fun _ => meaning_toJson) hi hj).1⟩) ?_
        have hv : depth < partHeight v := by
          rw [height] at h
          omega
        cases v with
        | none => exact absurd hv (Nat.not_lt_zero _)
        | some g => exact .part rfl unseen_values ((hpart hv).map _)
      · rw [Nat.not_le] at hi
        cases i with
        | none => exact absurd hi (Nat.not_lt_zero _)
        | some g => exact .part rfl unseen_items ((hpart hi).map _)

/-- The text of a fragment, in either layout. -/
def render (indented : Bool) (f : Fragment) : String :=
  if indented then f.toJson.pretty else f.toJson.compact

theorem parses_render (indented : Bool) (f : Fragment) :
    Json.Parses (f.render indented) f.toJson := by
  cases indented with
  | true => exact Json.parses_pretty f.toJson
  | false => exact Json.parses_compact f.toJson

/-- The text of a fragment is read back as the fragment if that has no more than 127 levels. With
more levels it is too deep, so in no case it is read as another fragment. -/
theorem decode_render (indented : Bool) (f : Fragment) :
    (f.height ≤ 127 → Json.decode read (f.render indented) = .ok f) ∧
    (128 ≤ f.height → ∃ line column : Nat, Json.decode read (f.render indented) =
      .error ("recursion limit exceeded at line " ++ toString line ++ " column " ++
        toString column)) ∧
    ∀ g, Json.decode read (f.render indented) = .ok g → g = f := by
  have hparses := parses_render indented f
  have hok : f.height ≤ 127 → Json.decode read (f.render indented) = .ok f := by
    intro h
    exact read_means.decode_of_parses hparses (meaning_toJson h)
  have hdeep : 128 ≤ f.height → ∃ line column : Nat, Json.decode read (f.render indented) =
      .error ("recursion limit exceeded at line " ++ toString line ++ " column " ++
        toString column) := by
    intro h
    have hfails : FailsAt .tooDeep (read Json.depthLimit) f.toJson.value := failsAt_toJson h
    exact hfails.decode_eq hparses
  refine ⟨hok, hdeep, fun g hg => ?_⟩
  rcases Nat.lt_or_ge 127 f.height with h | h
  · obtain ⟨line, column, herror⟩ := hdeep h
    rw [herror] at hg
    cases hg
  · rw [hok h] at hg
    exact (Except.ok.inj hg).symm

/-- So many lists inside each other, and anything in the innermost. -/
def nested : Nat → Fragment
  | 0 => any
  | n + 1 => arrayOf (nested n)

theorem height_nested (n : Nat) : (nested n).height = n + 1 := by
  induction n with
  | zero => rfl
  | succ n ih => simp [nested, arrayOf, height, partHeight, ih]

/-- The last of them that is read back, and the first that is not. -/
theorem decode_render_nested :
    Json.decode read ((nested 126).render true) = .ok (nested 126) ∧
      ∃ line column : Nat, Json.decode read ((nested 127).render false) =
        .error ("recursion limit exceeded at line " ++ toString line ++ " column " ++
          toString column) :=
  ⟨(decode_render true (nested 126)).1 (height_nested 126).le,
    (decode_render false (nested 127)).2.1 (height_nested 127).ge⟩

end Schema.Fragment

end ModuleOutputs
