import Mathlib.Data.List.Induction
import ModuleOutputs.Schema.Mapper

/-!
What outputs are mapped to. The names of the fragments are those of the outputs that are
kept, each once, where it comes first; the fragment of a name is that of the last output
with it.
-/

namespace ModuleOutputs.Schema

namespace Fragments

variable {fs : Fragments} {name : String} {f : Fragment}

def names (fs : Fragments) : List String :=
  fs.map Prod.fst

@[simp] theorem names_nil : names [] = [] := rfl

@[simp] theorem names_cons (n : String) (g : Fragment) (fs : Fragments) :
    names ((n, g) :: fs) = n :: fs.names := rfl

theorem mem_names_of_mem {n : String} {g : Fragment} (h : (n, g) ∈ fs) : n ∈ fs.names :=
  List.mem_map_of_mem h

theorem names_insert_of_mem (h : name ∈ fs.names) (f : Fragment) :
    names (fs.insert name f) = fs.names := by
  induction fs with
  | nil => simp at h
  | cons x rest ih =>
      obtain ⟨n, g⟩ := x
      by_cases hn : n = name
      · simp [insert, hn]
      · have hrest : name ∈ names rest := by
          rw [names_cons, List.mem_cons] at h
          exact h.resolve_left fun heq => hn heq.symm
        simp [insert, hn, ih hrest]

theorem names_insert_of_notMem (h : name ∉ fs.names) (f : Fragment) :
    names (fs.insert name f) = fs.names ++ [name] := by
  induction fs with
  | nil => rfl
  | cons x rest ih =>
      obtain ⟨n, g⟩ := x
      rw [names_cons, List.mem_cons, not_or] at h
      simp [insert, Ne.symm h.1, ih h.2]

theorem nodup_names_insert (h : fs.names.Nodup) (name : String) (f : Fragment) :
    (names (fs.insert name f)).Nodup := by
  by_cases hname : name ∈ fs.names
  · rw [names_insert_of_mem hname]
    exact h
  · rw [names_insert_of_notMem hname]
    rw [List.nodup_append]
    refine ⟨h, by simp, ?_⟩
    intro n hn m hm heq
    rw [heq, List.mem_singleton.mp hm] at hn
    exact hname hn

/-- A name that is given a fragment has that one, and the others have theirs. -/
theorem mem_insert_iff (h : fs.names.Nodup) {n : String} {g : Fragment} :
    (n, g) ∈ fs.insert name f ↔ n = name ∧ g = f ∨ n ≠ name ∧ (n, g) ∈ fs := by
  induction fs with
  | nil => simp [insert]
  | cons x rest ih =>
      obtain ⟨n', g'⟩ := x
      rw [names_cons, List.nodup_cons] at h
      by_cases hn : n' = name
      · subst hn
        have hrest : (n, g) ∈ rest → n ≠ n' := by
          intro hmem heq
          subst heq
          exact h.1 (mem_names_of_mem hmem)
        simp only [insert, if_true, List.mem_cons, Prod.mk.injEq]
        constructor
        · rintro (hnew | hmem)
          · exact .inl hnew
          · exact .inr ⟨hrest hmem, .inr hmem⟩
        · rintro (hnew | ⟨hne, ⟨heq, -⟩ | hmem⟩)
          · exact .inl hnew
          · exact absurd heq hne
          · exact .inr hmem
      · simp only [insert, hn, if_false, List.mem_cons, Prod.mk.injEq, ih h.2]
        constructor
        · rintro (⟨rfl, rfl⟩ | hnew | ⟨hne, hmem⟩)
          · exact .inr ⟨hn, .inl ⟨rfl, rfl⟩⟩
          · exact .inl hnew
          · exact .inr ⟨hne, .inr hmem⟩
        · rintro (hnew | ⟨hne, hfirst | hmem⟩)
          · exact .inr (.inl hnew)
          · exact .inl hfirst
          · exact .inr (.inr ⟨hne, hmem⟩)

end Fragments

/-! ## Mapping -/

/-- Outputs in the place of fragments, in the order in which they are given. -/
def fragmentsOf (outputs : List InferredOutput) : Fragments :=
  outputs.foldl (fun fs o => fs.insert o.name (fragmentOf o.type)) []

theorem mapOutputs_eq (options : RunOptions) (outputs : List InferredOutput) :
    mapOutputs options outputs = fragmentsOf (kept options outputs) := rfl

theorem fragmentsOf_append (outputs : List InferredOutput) (o : InferredOutput) :
    fragmentsOf (outputs ++ [o]) = (fragmentsOf outputs).insert o.name (fragmentOf o.type) := by
  simp [fragmentsOf]

theorem nodup_names_fragmentsOf (outputs : List InferredOutput) :
    (fragmentsOf outputs).names.Nodup := by
  induction outputs using List.reverseRecOn with
  | nil => exact List.nodup_nil
  | append_singleton outputs o ih =>
      rw [fragmentsOf_append]
      exact Fragments.nodup_names_insert ih _ _

/-- The names of outputs, each where it comes first. -/
theorem names_fragmentsOf (outputs : List InferredOutput) :
    (fragmentsOf outputs).names = (outputs.map (·.name)).eraseDups := by
  induction outputs using List.reverseRecOn with
  | nil => rfl
  | append_singleton outputs o ih =>
      have hmem : o.name ∈ (fragmentsOf outputs).names ↔ o.name ∈ outputs.map (·.name) := by
        rw [ih, List.mem_eraseDups]
      rw [fragmentsOf_append, List.map_append, List.eraseDups_append, ← ih]
      by_cases ho : o.name ∈ outputs.map (·.name)
      · have hnothing : [o.name].removeAll (outputs.map (·.name)) = [] := by
          simpa [List.removeAll] using ho
        rw [Fragments.names_insert_of_mem (hmem.mpr ho), List.map_singleton, hnothing]
        simp
      · have hnew : [o.name].removeAll (outputs.map (·.name)) = [o.name] := by
          simpa [List.removeAll] using ho
        rw [Fragments.names_insert_of_notMem (mt hmem.mp ho), List.map_singleton, hnew]
        rfl

/-- The fragment of a name is that of the last output with it. -/
theorem mem_fragmentsOf_iff {outputs : List InferredOutput} {name : String} {f : Fragment} :
    (name, f) ∈ fragmentsOf outputs ↔
      (outputs.reverse.find? (·.name = name)).map (fragmentOf ·.type) = some f := by
  induction outputs using List.reverseRecOn with
  | nil => simp [fragmentsOf]
  | append_singleton outputs o ih =>
      rw [fragmentsOf_append, Fragments.mem_insert_iff (nodup_names_fragmentsOf outputs), ih]
      by_cases ho : o.name = name
      · simp [ho, eq_comm]
      · have hne : name ≠ o.name := Ne.symm ho
        simp [ho, hne]

end ModuleOutputs.Schema
