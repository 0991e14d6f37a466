import Mathlib.Data.List.Infix
import ModuleOutputs.Config.Expansion

/-!
References without braces. The variables of a text are found once, and then replaced one after
another, each wherever it can be found by then. So the references come out as the values of their
own variables, as if all were replaced at once, as long as no variable is found in a value, or at
the beginning of another reference, while it is replaced.
-/

namespace ModuleOutputs

/-- The characters of a variable's value. -/
def Environment.value? (env : Environment) (name : List Char) : Option (List Char) :=
  (env.get? (String.ofList name)).map String.toList

namespace Expansion

/-! ## Finding and replacing in a text in parts -/

section

variable {begins : List Char → Option Mention} {c : Char} {cs rest run replacement : List Char}

theorem mentions_of_none (h : begins (c :: rest) = none) :
    mentions begins 0 (c :: rest) = mentions begins 0 rest := by
  simp only [mentions, h]

theorem mentions_skip : mentions begins cs.length (cs ++ rest) = mentions begins 0 rest := by
  induction cs with
  | nil => rfl
  | cons c cs ih => exact ih

/-- A text begins with a variable, and the search goes on behind it. -/
theorem mentions_of_begins {m : Mention} (h : begins (c :: cs ++ rest) = some m)
    (hwritten : m.written = c :: cs) :
    mentions begins 0 (c :: cs ++ rest) = m :: mentions begins 0 rest := by
  rw [List.cons_append] at h ⊢
  simp only [mentions, h, hwritten, List.length_cons, Nat.add_sub_cancel, mentions_skip]

theorem mentions_plain (hbegins : ∀ d text, d ≠ '$' → begins (d :: text) = none)
    (hplain : '$' ∉ cs) : mentions begins 0 (cs ++ rest) = mentions begins 0 rest := by
  induction cs with
  | nil => rfl
  | cons c cs ih =>
      rw [List.cons_append,
        mentions_of_none (hbegins c _ (List.ne_of_not_mem_cons hplain).symm)]
      exact ih (List.not_mem_of_not_mem_cons hplain)

theorem braced?_of_ne (h : c ≠ '$') : braced? (c :: rest) = none := by
  unfold braced?
  split
  · next heq => exact absurd (List.cons.inj heq).1 h
  · rfl

theorem braced?_dollar (h : c ≠ '\x7b') : braced? ('$' :: c :: rest) = none := by
  unfold braced?
  split
  · next heq => exact absurd (List.cons.inj (List.cons.inj heq).2).1 h
  · rfl

theorem bare?_of_ne (h : c ≠ '$') : bare? (c :: rest) = none := by
  unfold bare?
  split
  · next heq => exact absurd (List.cons.inj heq).1 h
  · rfl

theorem replaceFrom_skip :
    replaceFrom run replacement cs.length (cs ++ rest) = replaceFrom run replacement 0 rest := by
  induction cs with
  | nil => rfl
  | cons c cs ih => exact ih

theorem replaceFrom_run :
    replaceFrom (c :: run) replacement 0 (c :: run ++ rest) =
      replacement ++ replaceFrom (c :: run) replacement 0 rest := by
  have hprefix : (c :: run).isPrefixOf (c :: (run ++ rest)) = true :=
    List.isPrefixOf_iff_prefix.mpr (List.prefix_append (c :: run) rest)
  rw [List.cons_append, replaceFrom, if_pos hprefix, List.length_cons, Nat.add_sub_cancel,
    replaceFrom_skip]

/-- Characters at none of which the run begins stay as they are. -/
theorem replaceFrom_append (h : ∀ s, s <:+ cs → s ≠ [] → ¬ run <+: s ++ rest) :
    replaceFrom run replacement 0 (cs ++ rest) = cs ++ replaceFrom run replacement 0 rest := by
  induction cs with
  | nil => rfl
  | cons c cs ih =>
      have hhere : ¬ run.isPrefixOf (c :: (cs ++ rest)) := by
        rw [List.isPrefixOf_iff_prefix]
        exact h (c :: cs) List.suffix_rfl (List.cons_ne_nil c cs)
      rw [List.cons_append, replaceFrom, if_neg hhere,
        ih fun s hs => h s (hs.trans (List.suffix_cons c cs)), List.cons_append]

/-- A run that begins with `$` begins at no other character. -/
theorem not_prefix_of_plain {name s : List Char} (hplain : '$' ∉ s) (hs : s ≠ []) :
    ¬ '$' :: name <+: s ++ rest := by
  obtain ⟨c, cs, rfl⟩ := List.exists_cons_of_ne_nil hs
  rw [List.cons_append, List.cons_prefix_cons]
  rintro ⟨rfl, -⟩
  exact hplain List.mem_cons_self

/-- A name is found up to the next `$` at most. -/
theorem prefix_of_prefix_append {name front : List Char} (hname : '$' ∉ name)
    (h : name <+: front ++ '$' :: rest) : name <+: front := by
  induction front generalizing name with
  | nil =>
      cases name with
      | nil => exact List.nil_prefix
      | cons c cs =>
          obtain ⟨rfl, -⟩ := List.cons_prefix_cons.mp h
          exact absurd List.mem_cons_self hname
  | cons d front ih =>
      cases name with
      | nil => exact List.nil_prefix
      | cons c cs =>
          obtain ⟨rfl, htail⟩ := List.cons_prefix_cons.mp h
          have hcs : '$' ∉ cs := List.not_mem_of_not_mem_cons hname
          exact List.cons_prefix_cons.mpr ⟨rfl, ih hcs htail⟩

end

/-! ## Texts of references -/

/-- A part of a text. -/
inductive Segment where
  /-- Characters that stay as they are. -/
  | plain (cs : List Char)
  /-- A variable without braces. -/
  | reference (name : List Char)

namespace Segment

/-- The variable of a reference. -/
def name? : Segment → Option (List Char)
  | .plain _ => none
  | .reference name => some name

/-- A segment as it is written. -/
def written : Segment → List Char
  | .plain cs => cs
  | .reference name => '$' :: name

/-- A segment with the value of its own variable, if that is set. -/
def expanded (env : Environment) : Segment → List Char
  | .plain cs => cs
  | .reference name => (env.value? name).getD ('$' :: name)

/-- A segment after some variables have been replaced. -/
def replaced (env : Environment) (done : List (List Char)) : Segment → List Char
  | .plain cs => cs
  | .reference name =>
    if name ∈ done then (env.value? name).getD ('$' :: name) else '$' :: name

end Segment

/-- The variables of a text, in the order in which they are replaced. -/
def names (segs : List Segment) : List (List Char) :=
  segs.filterMap Segment.name?

/-- Whether a text in segments is read as these. There is no `$` but those of the references,
and a name goes on as long as it can. -/
inductive IsBare : List Segment → Prop
  | nil : IsBare []
  | plain {cs : List Char} {rest : List Segment} (dollar : '$' ∉ cs) (isBare : IsBare rest) :
    IsBare (.plain cs :: rest)
  | reference {c : Char} {cs : List Char} {rest : List Segment} (begins : beginsName c = true)
    (continues : cs.all continuesName = true)
    (ends : (rest.flatMap Segment.written).head?.any continuesName = false)
    (isBare : IsBare rest) : IsBare (.reference (c :: cs) :: rest)

/-- Whether a variable is set and found at the beginning of a text. -/
def IsFound (env : Environment) (name text : List Char) : Prop :=
  (env.value? name).isSome ∧ '$' :: name <+: text

instance (env : Environment) (name text : List Char) : Decidable (IsFound env name text) :=
  inferInstanceAs (Decidable ((env.value? name).isSome ∧ '$' :: name <+: text))

/-- Whether no other variable is replaced at a reference. Here `names` are the variables in the
order in which they are replaced, `name` is that of the reference, and `after` is what the text
behind it is expanded to. -/
structure LeftAlone (env : Environment) (names : List (List Char)) (name after : List Char) :
    Prop where
  /-- No variable that is replaced once the value is there is found in it. -/
  value : ∀ v ∈ env.value? name, ∀ n ∈ names, [name, n].Sublist names →
    ∀ s ∈ v.tails, s ≠ [] → ¬ IsFound env n (s ++ after)
  /-- If another variable is found at the reference, the value is there before. -/
  name : ∀ n ∈ names, IsFound env n ('$' :: name ++ after) → n ≠ name →
    (env.value? name).isSome ∧ name ∈ names.takeWhile (· ≠ n)

instance (env : Environment) (names : List (List Char)) (name after : List Char) :
    Decidable (LeftAlone env names name after) :=
  decidable_of_iff
    ((∀ v ∈ env.value? name, ∀ n ∈ names, [name, n].Sublist names →
        ∀ s ∈ v.tails, s ≠ [] → ¬ IsFound env n (s ++ after)) ∧
      ∀ n ∈ names, IsFound env n ('$' :: name ++ after) → n ≠ name →
        (env.value? name).isSome ∧ name ∈ names.takeWhile (· ≠ n))
    ⟨fun h => ⟨h.1, h.2⟩, fun h => ⟨h.value, h.name⟩⟩

/-! ## The variables that are found -/

section

variable {segs : List Segment} {env : Environment}

theorem ne_dollar_of_continuesName {c : Char} (h : continuesName c = true) : c ≠ '$' := by
  rintro rfl
  cases h

theorem continuesName_of_beginsName {c : Char} (h : beginsName c = true) :
    continuesName c = true := by
  simp only [beginsName, continuesName, Char.isAlphanum, Bool.or_eq_true] at h ⊢
  tauto

/-- A name has no `$` in it. -/
theorem dollar_notMem_name {c : Char} {cs : List Char} (hbegins : beginsName c = true)
    (hcontinues : cs.all continuesName = true) : '$' ∉ c :: cs := by
  intro h
  obtain heq | hmem := List.mem_cons.mp h
  · exact ne_dollar_of_continuesName (continuesName_of_beginsName hbegins) heq.symm
  · exact ne_dollar_of_continuesName (List.all_eq_true.mp hcontinues _ hmem) rfl

theorem takeWhile_continuesName {cs rest : List Char} (hcs : cs.all continuesName = true)
    (hrest : rest.head?.any continuesName = false) :
    (cs ++ rest).takeWhile continuesName = cs := by
  rw [List.takeWhile_append_of_pos (List.all_eq_true.mp hcs)]
  cases rest with
  | nil => simp
  | cons d rest =>
      have hd : continuesName d = false := hrest
      simp [hd]

/-- There are no braces behind a `$`. -/
theorem IsBare.mentions_braced? (h : IsBare segs) :
    mentions braced? 0 (segs.flatMap Segment.written) = [] := by
  induction h with
  | nil => rfl
  | plain hdollar _ ih =>
      rw [List.flatMap_cons, Segment.written,
        mentions_plain (fun _ _ => braced?_of_ne) hdollar, ih]
  | @reference c cs rest hbegins hcontinues _ _ ih =>
      have hbrace : c ≠ '\x7b' := by
        rintro rfl
        cases hbegins
      rw [List.flatMap_cons, Segment.written, List.cons_append, List.cons_append,
        mentions_of_none (braced?_dollar hbrace), ← List.cons_append,
        mentions_plain (fun _ _ => braced?_of_ne) (dollar_notMem_name hbegins hcontinues), ih]

/-- The variables that are found are those of the references. -/
theorem IsBare.mentions_bare? (h : IsBare segs) :
    mentions bare? 0 (segs.flatMap Segment.written) =
      (names segs).map fun name => ⟨'$' :: name, name⟩ := by
  induction h with
  | nil => rfl
  | plain hdollar _ ih =>
      rw [List.flatMap_cons, Segment.written,
        mentions_plain (fun _ _ => bare?_of_ne) hdollar, ih]
      rfl
  | @reference c cs rest hbegins hcontinues hends _ ih =>
      have hfound : bare? ('$' :: c :: cs ++ rest.flatMap Segment.written) =
          some ⟨'$' :: c :: cs, c :: cs⟩ := by
        simp only [List.cons_append, bare?, hbegins, if_true,
          takeWhile_continuesName hcontinues hends]
      rw [List.flatMap_cons, Segment.written, mentions_of_begins hfound rfl, ih]
      rfl

theorem IsBare.dollar_notMem {name : List Char} (h : IsBare segs) (hname : name ∈ names segs) :
    '$' ∉ name := by
  induction h with
  | nil => cases hname
  | plain _ _ ih => exact ih hname
  | reference hbegins hcontinues _ _ ih =>
      obtain rfl | hmem := List.mem_cons.mp hname
      · exact dollar_notMem_name hbegins hcontinues
      · exact ih hmem

end

/-! ## Replacing one variable after another -/

section

variable {segs : List Segment} {env : Environment} {done : List (List Char)}

/-- A name that is found while variables are replaced is found when all are. -/
theorem prefix_expanded {name front : List Char} (hname : '$' ∉ name)
    (h : name <+: front ++ segs.flatMap (Segment.replaced env done)) :
    name <+: front ++ segs.flatMap (Segment.expanded env) := by
  induction segs generalizing front with
  | nil => exact h
  | cons seg segs ih =>
      rw [List.flatMap_cons] at h ⊢
      by_cases hseg : seg.replaced env done = seg.expanded env
      · rw [hseg, ← List.append_assoc] at h
        rw [← List.append_assoc]
        exact ih h
      · cases seg with
        | plain cs => exact absurd rfl hseg
        | reference m =>
            have hpending : m ∉ done := by
              intro hm
              exact hseg (if_pos hm)
            rw [Segment.replaced, if_neg hpending] at h
            exact (prefix_of_prefix_append hname h).trans (List.prefix_append _ _)

/-- So is a run that begins with `$`, at any place in a text. -/
theorem dollar_prefix_expanded {name s : List Char} (hname : '$' ∉ name) (hs : s ≠ [])
    (h : '$' :: name <+: s ++ segs.flatMap (Segment.replaced env done)) :
    '$' :: name <+: s ++ segs.flatMap (Segment.expanded env) := by
  obtain ⟨c, cs, rfl⟩ := List.exists_cons_of_ne_nil hs
  rw [List.cons_append, List.cons_prefix_cons] at h ⊢
  exact ⟨h.1, prefix_expanded hname h.2⟩

variable {all later : List (List Char)} {name n v : List Char}

/-- A reference that no value is put in place of is there as it is written. -/
theorem Segment.replaced_of_pending (h : ¬ (name ∈ done ∧ (env.value? name).isSome)) :
    Segment.replaced env done (.reference name) = '$' :: name := by
  by_cases hdone : name ∈ done
  · have hunset : env.value? name = none :=
      Option.not_isSome_iff_eq_none.mp fun hset => h ⟨hdone, hset⟩
    rw [Segment.replaced, if_pos hdone, hunset, Option.getD_none]
  · rw [Segment.replaced, if_neg hdone]

theorem mem_of_mem_takeWhile_append
    (h : name ∈ (done ++ n :: later).takeWhile (· ≠ n)) : name ∈ done := by
  rw [List.takeWhile_append] at h
  split at h
  · simpa using h
  · exact (List.takeWhile_prefix _).subset h

/-- By the time a variable is replaced, it begins nowhere at a reference that it leaves alone. -/
theorem LeftAlone.not_begins
    (h : LeftAlone env all name (segs.flatMap (Segment.expanded env)))
    (hall : all = done ++ n :: later) (hset : (env.value? n).isSome) (hn : '$' ∉ n)
    (hname : '$' ∉ name) (hother : name ≠ n ∨ name ∈ done) :
    ∀ s, s <:+ Segment.replaced env done (.reference name) → s ≠ [] →
      ¬ '$' :: n <+: s ++ segs.flatMap (Segment.replaced env done) := by
  intro s hsuffix hs hbegins
  have hmem : n ∈ all := by simp [hall]
  replace hbegins := dollar_prefix_expanded hn hs hbegins
  by_cases hdone : name ∈ done ∧ (env.value? name).isSome
  · -- The value is there, and the variable comes after it.
    obtain ⟨v, hv⟩ := Option.isSome_iff_exists.mp hdone.2
    have hafter : [name, n].Sublist all := by
      rw [hall]
      exact (List.singleton_sublist.mpr hdone.1).append
        (List.singleton_sublist.mpr List.mem_cons_self)
    rw [Segment.replaced, if_pos hdone.1, hv, Option.getD_some] at hsuffix
    exact h.value v hv n hmem hafter s ((List.mem_tails s v).mpr hsuffix) hs ⟨hset, hbegins⟩
  · -- The reference is there as it is written.
    rw [Segment.replaced_of_pending hdone] at hsuffix
    obtain rfl | hend := List.suffix_cons_iff.mp hsuffix
    · by_cases hsame : n = name
      · obtain rfl := hsame
        exact hdone ⟨hother.resolve_left (not_not.mpr rfl), hset⟩
      · obtain ⟨hvalue, hbefore⟩ := h.name n hmem ⟨hset, hbegins⟩ hsame
        rw [hall] at hbefore
        exact hdone ⟨mem_of_mem_takeWhile_append hbefore, hvalue⟩
    · exact not_prefix_of_plain (fun hdollar => hname (hend.subset hdollar)) hs hbegins

/-- Replacing a variable makes no difference to another reference. -/
theorem Segment.replaced_append_of_ne (h : name ≠ n ∨ name ∈ done) :
    Segment.replaced env (done ++ [n]) (.reference name) =
      Segment.replaced env done (.reference name) := by
  have hmem : name ∈ done ++ [n] ↔ name ∈ done := by
    rw [List.mem_append, List.mem_singleton]
    tauto
  simp only [Segment.replaced, hmem]

/-- A variable that is not set makes no difference at all. -/
theorem Segment.replaced_append_of_unset (h : env.value? n = none) (seg : Segment) :
    seg.replaced env (done ++ [n]) = seg.replaced env done := by
  cases seg with
  | plain cs => rfl
  | reference name =>
      by_cases hname : name = n
      · obtain rfl := hname
        simp [Segment.replaced, h]
      · exact Segment.replaced_append_of_ne (.inl hname)

/-- Replacing a variable wherever it is found replaces the references to it. -/
theorem replaceFrom_replaced (hbare : IsBare segs)
    (hleft : ∀ name rest, .reference name :: rest <:+ segs →
      LeftAlone env all name (rest.flatMap (Segment.expanded env)))
    (hall : all = done ++ n :: later) (hn : '$' ∉ n) (hvalue : env.value? n = some v) :
    replaceFrom ('$' :: n) v 0 (segs.flatMap (Segment.replaced env done)) =
      segs.flatMap (Segment.replaced env (done ++ [n])) := by
  have hset : (env.value? n).isSome := Option.isSome_of_eq_some hvalue
  induction hbare with
  | nil => rfl
  | @plain cs rest hdollar _ ih =>
      have hrest := ih fun name after h => hleft name after (h.trans (List.suffix_cons _ _))
      rw [List.flatMap_cons, List.flatMap_cons, Segment.replaced, Segment.replaced,
        replaceFrom_append, hrest]
      intro s hs hne
      exact not_prefix_of_plain (fun h => hdollar (hs.subset h)) hne
  | @reference c cs rest hbegins hcontinues _ _ ih =>
      have hrest := ih fun name after h => hleft name after (h.trans (List.suffix_cons _ _))
      have hname := dollar_notMem_name hbegins hcontinues
      rw [List.flatMap_cons, List.flatMap_cons]
      by_cases hother : c :: cs ≠ n ∨ c :: cs ∈ done
      · have hhere := hleft (c :: cs) rest List.suffix_rfl
        rw [replaceFrom_append (hhere.not_begins hall hset hn hname hother), hrest,
          Segment.replaced_append_of_ne hother]
      · obtain ⟨heq, hpending⟩ := not_or.mp hother
        obtain rfl := not_not.mp heq
        rw [Segment.replaced, if_neg hpending, replaceFrom_run, hrest, Segment.replaced,
          if_pos (by simp), hvalue, Option.getD_some]

theorem replaceMention_eq (text : List Char) (m : Mention) :
    replaceMention env text m =
      match env.value? m.name with
      | some v => replaceFrom m.written v 0 text
      | none => text := by
  unfold replaceMention Environment.value?
  cases env.get? (String.ofList m.name) <;> rfl

/-- Replacing the rest of the variables. -/
theorem foldl_replaceMention (hbare : IsBare segs)
    (hleft : ∀ name rest, .reference name :: rest <:+ segs →
      LeftAlone env (names segs) name (rest.flatMap (Segment.expanded env)))
    (hall : names segs = done ++ later) :
    (later.map fun name => ⟨'$' :: name, name⟩).foldl (replaceMention env)
        (segs.flatMap (Segment.replaced env done)) =
      segs.flatMap (Segment.replaced env (names segs)) := by
  induction later generalizing done with
  | nil => rw [hall, List.append_nil, List.map_nil, List.foldl_nil]
  | cons n later ih =>
      have hmem : n ∈ names segs := by simp [hall]
      have hstep : replaceMention env (segs.flatMap (Segment.replaced env done)) ⟨'$' :: n, n⟩ =
          segs.flatMap (Segment.replaced env (done ++ [n])) := by
        rw [replaceMention_eq]
        cases hvalue : env.value? n with
        | none =>
            exact (List.flatMap_congr fun seg _ => Segment.replaced_append_of_unset hvalue seg).symm
        | some v => exact replaceFrom_replaced hbare hleft hall (hbare.dollar_notMem hmem) hvalue
      rw [List.map_cons, List.foldl_cons, hstep]
      exact ih (by rw [hall, List.append_assoc, List.singleton_append])

theorem flatMap_replaced_nil :
    segs.flatMap (Segment.replaced env []) = segs.flatMap Segment.written := by
  refine List.flatMap_congr fun seg _ => ?_
  cases seg with
  | plain cs => rfl
  | reference name => simp [Segment.replaced, Segment.written]

theorem flatMap_replaced_names :
    segs.flatMap (Segment.replaced env (names segs)) = segs.flatMap (Segment.expanded env) := by
  refine List.flatMap_congr fun seg hseg => ?_
  cases seg with
  | plain cs => rfl
  | reference name =>
      have hname : name ∈ names segs := List.mem_filterMap.mpr ⟨_, hseg, rfl⟩
      rw [Segment.replaced, if_pos hname, Segment.expanded]

end

/-- A text of references is expanded by putting the value of each one's own variable in its place,
as it is, and leaving those as they are whose variables are not set, if each reference is left
alone by the others. -/
theorem expand_references (env : Environment) (segs : List Segment) (hbare : IsBare segs)
    (hleft : ∀ name rest, .reference name :: rest <:+ segs →
      LeftAlone env (names segs) name (rest.flatMap (Segment.expanded env))) :
    expand env (String.ofList (segs.flatMap Segment.written)) =
      String.ofList (segs.flatMap (Segment.expanded env)) := by
  have hfold := foldl_replaceMention hbare hleft (List.nil_append (names segs)).symm
  rw [flatMap_replaced_nil, flatMap_replaced_names] at hfold
  simp only [expand, String.toList_ofList, hbare.mentions_braced?, hbare.mentions_bare?,
    List.nil_append, hfold]

/-- The segments of `$HOST_NAME=$HOST $PORT`. -/
def hostText : List Segment :=
  [.reference "HOST_NAME".toList, .plain "=".toList, .reference "HOST".toList,
    .plain " ".toList, .reference "PORT".toList]

theorem isBare_hostText : IsBare hostText := by
  refine .reference rfl rfl rfl ?_
  refine .plain (by decide) ?_
  refine .reference rfl rfl rfl ?_
  refine .plain (by decide) ?_
  exact .reference rfl rfl rfl .nil

/-- A name is replaced before a beginning of it is, a value that mentions a variable is put in as
it is, and a variable that is not set stays. -/
theorem expand_references_hostText :
    IsBare hostText ∧
    expand [("HOST_NAME", "n"), ("HOST", "$HOST_NAME")] "$HOST_NAME=$HOST $PORT" =
      "n=$HOST_NAME $PORT" := by
  refine ⟨isBare_hostText, ?_⟩
  have hexpand := expand_references [("HOST_NAME", "n"), ("HOST", "$HOST_NAME")] hostText
    isBare_hostText ?_
  · have hwritten : String.ofList (hostText.flatMap Segment.written) = "$HOST_NAME=$HOST $PORT" :=
      by decide +kernel
    have hexpanded : String.ofList (hostText.flatMap
        (Segment.expanded [("HOST_NAME", "n"), ("HOST", "$HOST_NAME")])) = "n=$HOST_NAME $PORT" :=
      by decide +kernel
    rwa [hwritten, hexpanded] at hexpand
  · intro name rest hsuffix
    simp only [hostText, List.suffix_cons_iff, List.suffix_nil, List.cons.injEq,
      Segment.reference.injEq, reduceCtorEq, false_and, false_or, or_false] at hsuffix
    obtain ⟨rfl, rfl⟩ | ⟨rfl, rfl⟩ | ⟨rfl, rfl⟩ := hsuffix
    all_goals decide +kernel

/-- A variable that is not set is taken for a shorter one that is, which is replaced first. -/
theorem expand_takes_beginning :
    ¬ ∀ (env : Environment) (segs : List Segment), IsBare segs →
      expand env (String.ofList (segs.flatMap Segment.written)) =
        String.ofList (segs.flatMap (Segment.expanded env)) := by
  intro h
  have hbare : IsBare [.reference "DIR".toList, .plain "/".toList,
      .reference "DIR_NAME".toList] := by
    refine .reference rfl rfl rfl ?_
    refine .plain (by decide) ?_
    exact .reference rfl rfl rfl .nil
  have hequal := h [("DIR", "srv")] _ hbare
  revert hequal
  decide +kernel

end Expansion

end ModuleOutputs
