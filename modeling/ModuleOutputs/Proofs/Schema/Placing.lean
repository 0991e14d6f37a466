import Mathlib.Data.List.Basic
import ModuleOutputs.Proofs.Schema.Mapper

/-!
Where the mapper puts a name, and what it puts there. Of two names the one that occurs first
comes first, at whatever places they occur again; what a name stands for is the type of its last
output alone. Which text a name is makes no difference: with other names in place of them, the
fragments are the same, under those names.
-/

namespace ModuleOutputs.Schema

/-! ## First occurrences -/

section

variable {α : Type} [DecidableEq α] {l : List α} {x m n : α}

theorem idxOf_concat_of_notMem (h : m ∉ l) :
    (l ++ [x]).idxOf m = l.length + if m = x then 0 else 1 := by
  rw [List.idxOf_append_of_notMem h]
  by_cases hmx : m = x
  · simp [hmx]
  · rw [List.idxOf_cons_ne _ (Ne.symm hmx), if_neg hmx]
    rfl

/-- An element that is put behind a list comes before those that are not there yet, and nothing
changes between the others. -/
theorem idxOf_concat_lt_iff : (l ++ [x]).idxOf m < (l ++ [x]).idxOf n ↔
    l.idxOf m < l.idxOf n ∨ (m = x ∧ n ≠ x) ∧ m ∉ l ∧ n ∉ l := by
  by_cases hm : m ∈ l
  · have hlt := List.idxOf_lt_length_of_mem hm
    by_cases hn : n ∈ l
    · simp [List.idxOf_append_of_mem hm, List.idxOf_append_of_mem hn, hm]
    · rw [List.idxOf_append_of_mem hm, idxOf_concat_of_notMem hn, List.idxOf_eq_length hn]
      simp only [hm, not_true, false_and, and_false, or_false]
      omega
  · by_cases hn : n ∈ l
    · have hlt := List.idxOf_lt_length_of_mem hn
      rw [idxOf_concat_of_notMem hm, List.idxOf_append_of_mem hn, List.idxOf_eq_length hm]
      simp only [hn, not_true, and_false, or_false]
      omega
    · rw [idxOf_concat_of_notMem hm, idxOf_concat_of_notMem hn, List.idxOf_eq_length hm,
        List.idxOf_eq_length hn]
      simp only [hm, hn, Nat.lt_irrefl, not_false_eq_true, and_true, false_or]
      by_cases hmx : m = x <;> by_cases hnx : n = x <;> simp [hmx, hnx]

/-- Elements occur first in the same order when what occurs again is left out. -/
theorem idxOf_eraseDups_lt_iff :
    l.eraseDups.idxOf m < l.eraseDups.idxOf n ↔ l.idxOf m < l.idxOf n := by
  induction l using List.reverseRecOn with
  | nil => rfl
  | append_singleton l x ih =>
      rw [List.eraseDups_append, idxOf_concat_lt_iff]
      by_cases hx : x ∈ l
      · have hnothing : [x].removeAll l = [] := by simpa [List.removeAll] using hx
        rw [hnothing, List.eraseDups_nil, List.append_nil, ih, or_iff_left]
        rintro ⟨⟨rfl, -⟩, hm, -⟩
        exact hm hx
      · have hnew : [x].removeAll l = [x] := by simpa [List.removeAll] using hx
        have hone : [x].eraseDups = [x] := rfl
        rw [hnew, hone, idxOf_concat_lt_iff, ih, List.mem_eraseDups, List.mem_eraseDups]

end

/-! ## What a name stands for -/

variable {outputs : List InferredOutput} {name : String} {f : Fragment}

theorem kept_eq (options : RunOptions) (outputs : List InferredOutput) :
    kept options outputs =
      if options.skipStrings then outputs.filter (·.type ≠ "string") else outputs := by
  unfold kept
  cases options.skipStrings with
  | true =>
      refine List.filter_congr fun o _ => ?_
      rw [Bool.eq_iff_iff]
      simp
  | false => simp

/-- What is found first from the end is behind whatever comes before it, and in front of nothing
else of its kind. -/
theorem find?_reverse_eq_some_iff {α : Type} {p : α → Bool} {l : List α} {a : α} :
    l.reverse.find? p = some a ↔
      p a = true ∧ ∃ earlier later, l = earlier ++ a :: later ∧ ∀ b ∈ later, p b = false := by
  rw [List.find?_eq_some_iff_append]
  refine and_congr_right fun _ => ⟨?_, ?_⟩
  · rintro ⟨later, earlier, heq, hlater⟩
    refine ⟨earlier.reverse, later.reverse, ?_, by simpa using hlater⟩
    rw [← List.reverse_inj, heq]
    simp
  · rintro ⟨earlier, later, rfl, hlater⟩
    exact ⟨later.reverse, earlier.reverse, by simp, by simpa using hlater⟩

theorem mem_fragmentsOf_iff_append : (name, f) ∈ fragmentsOf outputs ↔
    ∃ earlier o later, outputs = earlier ++ o :: later ∧ o.name = name ∧
      (∀ p ∈ later, p.name ≠ name) ∧ fragmentOf o.type = f := by
  rw [mem_fragmentsOf_iff, Option.map_eq_some_iff]
  constructor
  · rintro ⟨o, hfind, rfl⟩
    obtain ⟨hname, earlier, later, rfl, hlater⟩ := find?_reverse_eq_some_iff.mp hfind
    exact ⟨earlier, o, later, rfl, by simpa using hname, by simpa using hlater, rfl⟩
  · rintro ⟨earlier, o, later, rfl, rfl, hlater, rfl⟩
    refine ⟨o, find?_reverse_eq_some_iff.mpr ⟨by simp, earlier, later, rfl, ?_⟩, rfl⟩
    simpa using hlater

/-! ## Renaming -/

section

variable {rename : String → String}

/-- An output under another name. -/
def renamed (rename : String → String) (o : InferredOutput) : InferredOutput :=
  { o with name := rename o.name }

theorem Fragments.insert_rename (hrename : Function.Injective rename) (fs : Fragments)
    (name : String) (f : Fragment) :
    Fragments.insert (rename name) f (fs.map fun (n, g) => (rename n, g)) =
      (fs.insert name f).map fun (n, g) => (rename n, g) := by
  induction fs with
  | nil => rfl
  | cons x rest ih =>
      obtain ⟨n, g⟩ := x
      by_cases hn : n = name
      · simp [Fragments.insert, hn]
      · have hne : rename n ≠ rename name := hrename.ne hn
        simpa [Fragments.insert, hn, hne] using ih

theorem fragmentsOf_rename (hrename : Function.Injective rename) (outputs : List InferredOutput) :
    fragmentsOf (outputs.map (renamed rename)) =
      (fragmentsOf outputs).map fun (n, g) => (rename n, g) := by
  induction outputs using List.reverseRecOn with
  | nil => rfl
  | append_singleton outputs o ih =>
      rw [List.map_append, List.map_singleton, fragmentsOf_append, ih, fragmentsOf_append]
      exact Fragments.insert_rename hrename _ _ _

/-- Whether an output is kept is up to its type, not its name. -/
theorem kept_rename (options : RunOptions) (outputs : List InferredOutput) :
    kept options (outputs.map (renamed rename)) = (kept options outputs).map (renamed rename) :=
  List.filter_map

end

/-- What the mapper makes of outputs: the names of those that are kept, each once. A name comes
before another one if it occurs before it, and stands for the type of its last output. No name is
special: under other names outputs have the same fragments. -/
theorem mapOutputs_places (options : RunOptions) (outputs : List InferredOutput) :
    kept options outputs =
      (if options.skipStrings then outputs.filter (·.type ≠ "string") else outputs) ∧
    (mapOutputs options outputs).names.Nodup ∧
    (∀ name, name ∈ (mapOutputs options outputs).names ↔
      ∃ o ∈ kept options outputs, o.name = name) ∧
    (∀ m n, (mapOutputs options outputs).names.idxOf m <
        (mapOutputs options outputs).names.idxOf n ↔
      ((kept options outputs).map (·.name)).idxOf m <
        ((kept options outputs).map (·.name)).idxOf n) ∧
    (∀ name f, (name, f) ∈ mapOutputs options outputs ↔
      ∃ earlier o later, kept options outputs = earlier ++ o :: later ∧ o.name = name ∧
        (∀ p ∈ later, p.name ≠ name) ∧ fragmentOf o.type = f) ∧
    ∀ rename, Function.Injective rename →
      mapOutputs options (outputs.map (renamed rename)) =
        (mapOutputs options outputs).map fun (n, g) => (rename n, g) := by
  refine ⟨kept_eq options outputs, nodup_names_fragmentsOf _, ?_, ?_, ?_, ?_⟩
  · intro name
    rw [mapOutputs_eq, names_fragmentsOf, List.mem_eraseDups, List.mem_map]
  · intro m n
    rw [mapOutputs_eq, names_fragmentsOf, idxOf_eraseDups_lt_iff]
  · intro name f
    exact mem_fragmentsOf_iff_append
  · intro rename hrename
    rw [mapOutputs_eq, kept_rename, fragmentsOf_rename hrename]
    rfl

/-- With an `x` in front of each name the empty one is in its place, too: the first one, for its
first output, with the fragment of its second. -/
theorem mapOutputs_places_prefixed :
    mapOutputs ⟨false, true⟩
        [⟨"x", "bool"⟩, ⟨"xid", "string"⟩, ⟨"xarn", "any"⟩, ⟨"x", "number"⟩] =
      [("x", .ofKind .number), ("xarn", .any)] := by
  have hprefix : Function.Injective fun name : String => "x" ++ name := by
    intro m n h
    exact String.toList_inj.mp (by simpa [String.toList_append] using congrArg String.toList h)
  obtain ⟨-, -, -, -, -, hrename⟩ := mapOutputs_places ⟨false, true⟩
    [⟨"", "bool"⟩, ⟨"id", "string"⟩, ⟨"arn", "any"⟩, ⟨"", "number"⟩]
  exact hrename _ hprefix

end ModuleOutputs.Schema
