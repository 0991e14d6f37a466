import ModuleOutputs.Proofs.Schema.Mapper

/-!
Leaving out strings. Outputs of type `string` are skipped one by one, before a name takes the
fragment of its last output. So a name is left out if all its outputs are strings; one whose last
output is a string, but not all of them, stays with the fragment of the last other one.
-/

namespace ModuleOutputs.Schema

/-- The fragment of strings is that of no other type. -/
theorem fragmentOf_eq_string_iff {type : String} :
    fragmentOf type = .ofKind .string ↔ type = "string" := by
  constructor
  · intro h
    unfold fragmentOf at h
    split at h
    · rfl
    all_goals cases h
  · rintro rfl
    rfl

/-- The last output of a name. -/
def last? (outputs : List InferredOutput) (name : String) : Option InferredOutput :=
  outputs.reverse.find? (·.name = name)

/-- The last output of a name that is no string. -/
def lastOther? (outputs : List InferredOutput) (name : String) : Option InferredOutput :=
  outputs.reverse.find? fun o => o.name = name ∧ o.type ≠ "string"

variable {override : Bool} {outputs : List InferredOutput} {o : InferredOutput} {name : String}
  {f : Fragment}

/-- A last output that is no string is the last one of those, too. -/
theorem lastOther?_of_last? (h : last? outputs name = some o) (htype : o.type ≠ "string") :
    lastOther? outputs name = some o := by
  unfold last? at h
  unfold lastOther?
  generalize outputs.reverse = latest at h ⊢
  induction latest with
  | nil => cases h
  | cons p earlier ih =>
      by_cases hp : p.name = name
      · obtain rfl : p = o := by simpa [hp] using h
        simp [hp, htype]
      · have hrest : earlier.find? (·.name = name) = some o := by simpa [hp] using h
        rw [List.find?_cons_of_neg (by simp [hp])]
        exact ih hrest

theorem mem_of_lastOther? (h : lastOther? outputs name = some o) :
    o ∈ outputs ∧ o.name = name ∧ o.type ≠ "string" := by
  have hmem := List.mem_of_find?_eq_some h
  have hsome := List.find?_some h
  exact ⟨List.mem_reverse.mp hmem, by simpa using hsome⟩

theorem exists_last?_of_mem (h : o ∈ outputs) : ∃ p, last? outputs o.name = some p := by
  rw [← Option.isSome_iff_exists, last?, List.find?_isSome]
  exact ⟨o, List.mem_reverse.mpr h, by simp⟩

theorem exists_lastOther?_of_mem (h : o ∈ outputs) (htype : o.type ≠ "string") :
    ∃ p, lastOther? outputs o.name = some p := by
  rw [← Option.isSome_iff_exists, lastOther?, List.find?_isSome]
  exact ⟨o, List.mem_reverse.mpr h, by simp [htype]⟩

/-- With strings, the fragment of a name is that of its last output. -/
theorem mem_mapOutputs_all_iff :
    (name, f) ∈ mapOutputs ⟨override, false⟩ outputs ↔
      ∃ o, last? outputs name = some o ∧ fragmentOf o.type = f := by
  have hkept : kept ⟨override, false⟩ outputs = outputs := by simp [kept]
  rw [mapOutputs_eq, hkept, mem_fragmentsOf_iff, Option.map_eq_some_iff]
  rfl

/-- Without strings, it is that of its last output that is none. -/
theorem mem_mapOutputs_others_iff :
    (name, f) ∈ mapOutputs ⟨override, true⟩ outputs ↔
      ∃ o, lastOther? outputs name = some o ∧ fragmentOf o.type = f := by
  have hkept : kept ⟨override, true⟩ outputs = outputs.filter (·.type ≠ "string") := by
    refine List.filter_congr fun o _ => ?_
    rw [Bool.eq_iff_iff]
    simp
  rw [mapOutputs_eq, hkept, mem_fragmentsOf_iff, Option.map_eq_some_iff, ← List.filter_reverse,
    List.find?_filter]
  simp [lastOther?, and_comm]

/-- A name that stays without strings had a fragment of another type, or it had that of strings
and takes the one of its last other output. -/
theorem mem_mapOutputs_others_iff_or :
    (name, f) ∈ mapOutputs ⟨override, true⟩ outputs ↔
      (name, f) ∈ mapOutputs ⟨override, false⟩ outputs ∧ f ≠ .ofKind .string ∨
      (name, .ofKind .string) ∈ mapOutputs ⟨override, false⟩ outputs ∧
        ∃ o, lastOther? outputs name = some o ∧ fragmentOf o.type = f := by
  rw [mem_mapOutputs_others_iff, mem_mapOutputs_all_iff, mem_mapOutputs_all_iff]
  constructor
  · rintro ⟨o, hother, rfl⟩
    obtain ⟨hmem, rfl, htype⟩ := mem_of_lastOther? hother
    obtain ⟨p, hlast⟩ := exists_last?_of_mem hmem
    by_cases hp : p.type = "string"
    · exact .inr ⟨⟨p, hlast, fragmentOf_eq_string_iff.mpr hp⟩, o, hother, rfl⟩
    · rw [lastOther?_of_last? hlast hp] at hother
      obtain rfl := Option.some.inj hother
      exact .inl ⟨⟨p, hlast, rfl⟩, mt fragmentOf_eq_string_iff.mp htype⟩
  · rintro (⟨⟨o, hlast, rfl⟩, htype⟩ | ⟨-, hother⟩)
    · exact ⟨o, lastOther?_of_last? hlast (mt fragmentOf_eq_string_iff.mpr htype), rfl⟩
    · exact hother

theorem fragment_unique {g : Fragment} (h : (name, f) ∈ mapOutputs ⟨override, false⟩ outputs)
    (h' : (name, g) ∈ mapOutputs ⟨override, false⟩ outputs) : f = g := by
  obtain ⟨o, hlast, rfl⟩ := mem_mapOutputs_all_iff.mp h
  obtain ⟨p, hlast', rfl⟩ := mem_mapOutputs_all_iff.mp h'
  rw [hlast] at hlast'
  rw [Option.some.inj hlast']

/-- Leaving out strings removes the names whose fragment is that of strings, apart from those
that have other outputs as well: such a name has the fragment of the last of these instead. So
it removes no more and no less than those fragments exactly if no such name has other outputs. -/
theorem mapOutputs_skipStrings (override : Bool) (outputs : List InferredOutput) :
    (∀ name f, (name, f) ∈ mapOutputs ⟨override, true⟩ outputs ↔
      (name, f) ∈ mapOutputs ⟨override, false⟩ outputs ∧ f ≠ .ofKind .string ∨
      (name, .ofKind .string) ∈ mapOutputs ⟨override, false⟩ outputs ∧
        ∃ o, lastOther? outputs name = some o ∧ fragmentOf o.type = f) ∧
    ((∀ name f, (name, f) ∈ mapOutputs ⟨override, true⟩ outputs ↔
        (name, f) ∈ mapOutputs ⟨override, false⟩ outputs ∧ f ≠ .ofKind .string) ↔
      ∀ o ∈ outputs, o.type ≠ "string" →
        (o.name, .ofKind .string) ∉ mapOutputs ⟨override, false⟩ outputs) ∧
    (mapOutputs ⟨override, true⟩ outputs).names.Nodup ∧
    (mapOutputs ⟨override, false⟩ outputs).names.Nodup := by
  refine ⟨fun name f => mem_mapOutputs_others_iff_or, ⟨?_, ?_⟩,
    nodup_names_fragmentsOf _, nodup_names_fragmentsOf _⟩
  · intro hremoves o ho htype hstring
    -- The name stays for its other output, so its fragment is not that of strings.
    obtain ⟨p, hother⟩ := exists_lastOther?_of_mem ho htype
    obtain ⟨hall, hp⟩ := (hremoves o.name (fragmentOf p.type)).mp
      (mem_mapOutputs_others_iff.mpr ⟨p, hother, rfl⟩)
    exact hp (fragment_unique hall hstring)
  · intro hnone name f
    rw [mem_mapOutputs_others_iff_or, or_iff_left]
    rintro ⟨hstring, o, hother, -⟩
    obtain ⟨hmem, rfl, htype⟩ := mem_of_lastOther? hother
    exact hnone o hmem htype hstring

/-- An output that is given first as a number and then as a string is a string, and a number
once strings are left out. -/
theorem mapOutputs_keeps_string :
    ¬ ∀ (outputs : List InferredOutput) (name : String) (f : Fragment),
      (name, f) ∈ mapOutputs ⟨false, true⟩ outputs ↔
        (name, f) ∈ mapOutputs ⟨false, false⟩ outputs ∧ f ≠ .ofKind .string := by
  intro h
  have hall : mapOutputs ⟨false, false⟩ [⟨"id", "number"⟩, ⟨"id", "string"⟩] =
      [("id", .ofKind .string)] := rfl
  have hothers : mapOutputs ⟨false, true⟩ [⟨"id", "number"⟩, ⟨"id", "string"⟩] =
      [("id", .ofKind .number)] := rfl
  have hnumber := h [⟨"id", "number"⟩, ⟨"id", "string"⟩] "id" (.ofKind .number)
  rw [hall, hothers] at hnumber
  have hmem := (hnumber.mp List.mem_cons_self).1
  simp [Fragment.ofKind] at hmem

end ModuleOutputs.Schema
