import Mathlib.Data.List.Infix
import ModuleOutputs.Failure

/-!
Runs of characters in a text. What is put in front of a text makes no new run in it if no end
of what is put there can be the beginning of one.
-/

namespace ModuleOutputs

namespace Text

variable {part front text : List Char}

/-- A run occurs in a text exactly if it is an infix of it. -/
theorem containsRun_iff : containsRun part text = true ↔ part <:+: text := by
  induction text with
  | nil => simp [containsRun]
  | cons c rest ih =>
      rw [containsRun, Bool.or_eq_true, ih, List.isPrefixOf_iff_prefix, List.infix_cons_iff]

/-- Whether no end of a text is a beginning of a run, or begins with the run. -/
def IsApart (part front : List Char) : Prop :=
  ∀ s ∈ front.tails, s ≠ [] → ¬ part <+: s ∧ ¬ s <+: part

instance : Decidable (IsApart part front) :=
  inferInstanceAs (Decidable (∀ s ∈ front.tails, s ≠ [] → ¬ part <+: s ∧ ¬ s <+: part))

theorem IsApart.infix_append_iff (h : IsApart part front) :
    part <:+: front ++ text ↔ part <:+: text := by
  induction front with
  | nil => rfl
  | cons c rest ih =>
      have hrest : IsApart part rest := by
        intro s hs
        exact h s (by simp [hs])
      have hhere : ¬ part <+: c :: rest ++ text := by
        intro hprefix
        obtain ⟨hwhole, hpart⟩ := h (c :: rest) (by simp) (by simp)
        exact (List.prefix_or_prefix_of_prefix hprefix (List.prefix_append _ _)).elim hwhole hpart
      rw [List.cons_append, List.infix_cons_iff, ih hrest]
      exact or_iff_right hhere

theorem lowercase_append (front text : List Char) :
    lowercase (front ++ text) = lowercase front ++ lowercase text :=
  List.flatMap_append

end Text

namespace Failure

/-- Words in front of a text make no difference to whether it says that a conversation is too
large, if none of the phrases can begin among them. -/
theorem saysTooLarge_append {front text : String}
    (h : ∀ phrase ∈ tooLargePhrases, Text.IsApart phrase.toList (Text.lowercase front.toList)) :
    saysTooLarge (front ++ text) = saysTooLarge text := by
  unfold saysTooLarge
  rw [String.toList_append, Text.lowercase_append, Bool.eq_iff_iff, List.any_eq_true,
    List.any_eq_true]
  refine exists_congr fun phrase => and_congr_right fun hphrase => ?_
  rw [Text.containsRun_iff, Text.containsRun_iff, (h phrase hphrase).infix_append_iff]

end Failure

end ModuleOutputs
