import ModuleOutputs.Proofs.Config.Expansion

/-!
References in braces. The brace that closes a name keeps it from being taken for a longer one, so
no variable is found at the reference of another, and as long as the values have no `$` in them
none is found in a value either. Then it makes no difference in which order the variables are
replaced, nor how often.
-/

namespace ModuleOutputs.Expansion

/-- A part of a text whose references stand in braces. There is no `$` but those of the
references. -/
inductive Part where
  /-- Characters that stay as they are. -/
  | plain (cs : List Char) (dollar : '$' ∉ cs)
  /-- A variable in braces. -/
  | braced (name : List Char) (nonempty : name ≠ []) (dollar : '$' ∉ name)
      (brace : '\x7d' ∉ name)

/-- A variable as it is written in braces. -/
def inBraces (name : List Char) : Mention :=
  ⟨'$' :: '\x7b' :: (name ++ ['\x7d']), name⟩

namespace Part

/-- The variable of a reference. -/
def name? : Part → Option (List Char)
  | .plain _ _ => none
  | .braced name _ _ _ => some name

/-- A part as it is written. -/
def written : Part → List Char
  | .plain cs _ => cs
  | .braced name _ _ _ => (inBraces name).written

/-- A part with the value of its variable in its place, if that is set. -/
def expanded (env : Environment) : Part → List Char
  | .plain cs _ => cs
  | .braced name _ _ _ => (env.value? name).getD (inBraces name).written

/-- A part after some variables have been replaced. -/
def replaced (env : Environment) (done : List (List Char)) : Part → List Char
  | .plain cs _ => cs
  | .braced name _ _ _ =>
    if done.contains name then (env.value? name).getD (inBraces name).written
    else (inBraces name).written

/-- The variables of a text, in the order in which they are found. -/
def names (parts : List Part) : List (List Char) :=
  parts.filterMap name?

end Part

section

variable {parts : List Part} {env : Environment} {done : List (List Char)}
  {name n v cs rest : List Char}

/-! ## The variables that are found -/

/-- A name in braces is as long as it can be. -/
theorem takeWhile_inBraces (hbrace : '\x7d' ∉ name) :
    (name ++ '\x7d' :: rest).takeWhile (· != '\x7d') = name := by
  rw [List.takeWhile_append_of_pos]
  · simp
  · intro c hc
    simpa using ne_of_mem_of_not_mem hc hbrace

/-- A reference is found up to the brace that closes it. -/
theorem braced?_inBraces (hnonempty : name ≠ []) (hbrace : '\x7d' ∉ name) :
    braced? ((inBraces name).written ++ rest) = some (inBraces name) := by
  simp [inBraces, braced?, takeWhile_inBraces hbrace, hnonempty]

theorem mentions_braced?_written (parts : List Part) :
    mentions braced? 0 (parts.flatMap Part.written) = (Part.names parts).map inBraces := by
  induction parts with
  | nil => rfl
  | cons part parts ih =>
      rw [List.flatMap_cons]
      cases part with
      | plain cs hdollar =>
          rw [Part.written, mentions_plain (fun _ _ => braced?_of_ne) hdollar, ih]
          rfl
      | braced name hnonempty _ hbrace =>
          have hfound : braced? ((inBraces name).written ++ parts.flatMap Part.written) =
              some (inBraces name) := braced?_inBraces hnonempty hbrace
          rw [Part.written, inBraces, mentions_of_begins hfound rfl, ih]
          rfl

/-- Behind a `$` there is a brace, and so no name without one. -/
theorem mentions_bare?_written (parts : List Part) :
    mentions bare? 0 (parts.flatMap Part.written) = [] := by
  induction parts with
  | nil => rfl
  | cons part parts ih =>
      rw [List.flatMap_cons]
      cases part with
      | plain cs hdollar =>
          rw [Part.written, mentions_plain (fun _ _ => bare?_of_ne) hdollar, ih]
      | braced name _ hdollar _ =>
          have hplain : '$' ∉ '\x7b' :: (name ++ ['\x7d']) := by simpa using hdollar
          have hnone : bare? ('$' :: ('\x7b' :: (name ++ ['\x7d']) ++ parts.flatMap Part.written)) =
              none := rfl
          rw [Part.written, inBraces, List.cons_append, mentions_of_none hnone,
            mentions_plain (fun _ _ => bare?_of_ne) hplain, ih]

/-! ## Replacing one variable after another -/

/-- A variable is found at no reference but its own. -/
theorem eq_of_prefix_inBraces (hn : '\x7d' ∉ n) (hname : '\x7d' ∉ name)
    (h : (inBraces n).written <+: (inBraces name).written ++ rest) : n = name := by
  obtain ⟨tail, htail⟩ := h
  have hnames : n ++ '\x7d' :: tail = name ++ '\x7d' :: rest := by
    simpa [inBraces] using htail
  calc n = (n ++ '\x7d' :: tail).takeWhile (· != '\x7d') := (takeWhile_inBraces hn).symm
    _ = (name ++ '\x7d' :: rest).takeWhile (· != '\x7d') := by rw [hnames]
    _ = name := takeWhile_inBraces hname

/-- Where there is no `$` no variable is found. -/
theorem replaceFrom_plain (hplain : '$' ∉ cs) :
    replaceFrom (inBraces n).written v 0 (cs ++ rest) =
      cs ++ replaceFrom (inBraces n).written v 0 rest :=
  replaceFrom_append fun _ hs => not_prefix_of_plain fun hmem => hplain (hs.subset hmem)

/-- The reference to another variable stays as it is. -/
theorem replaceFrom_inBraces_of_ne (hn : '\x7d' ∉ n) (hdollar : '$' ∉ name)
    (hbrace : '\x7d' ∉ name) (hne : name ≠ n) :
    replaceFrom (inBraces n).written v 0 ((inBraces name).written ++ rest) =
      (inBraces name).written ++ replaceFrom (inBraces n).written v 0 rest := by
  refine replaceFrom_append fun s hsuffix hs hfound => ?_
  obtain rfl | hlater := List.suffix_cons_iff.mp hsuffix
  · exact hne (eq_of_prefix_inBraces hn hbrace hfound).symm
  · -- The only `$` of a reference is the one with which it begins.
    have hplain : '$' ∉ '\x7b' :: (name ++ ['\x7d']) := by simpa using hdollar
    exact not_prefix_of_plain (fun hmem => hplain (hlater.subset hmem)) hs hfound

/-- Replacing a variable makes no difference to another reference. -/
theorem Part.replaced_append_of_ne {nonempty : name ≠ []} {dollar : '$' ∉ name}
    {brace : '\x7d' ∉ name} (h : name ≠ n) :
    Part.replaced env (done ++ [n]) (.braced name nonempty dollar brace) =
      Part.replaced env done (.braced name nonempty dollar brace) := by
  have hmem : (done ++ [n]).contains name = done.contains name := by
    rw [Bool.eq_iff_iff, List.contains_iff_mem, List.contains_iff_mem, List.mem_append,
      List.mem_singleton, or_iff_left h]
  rw [Part.replaced, Part.replaced, hmem]

/-- A variable that is not set makes no difference at all. -/
theorem Part.replaced_append_of_unset (h : env.value? n = none) (part : Part) :
    part.replaced env (done ++ [n]) = part.replaced env done := by
  cases part with
  | plain cs _ => rfl
  | braced name _ _ _ =>
      by_cases hname : name = n
      · subst hname
        simp [Part.replaced, h]
      · exact Part.replaced_append_of_ne hname

/-- A reference has its value or is there as it is written. -/
theorem Part.replaced_cases (env : Environment) (done : List (List Char)) {nonempty : name ≠ []}
    {dollar : '$' ∉ name} {brace : '\x7d' ∉ name} :
    Part.replaced env done (.braced name nonempty dollar brace) ∈ env.value? name ∨
      Part.replaced env done (.braced name nonempty dollar brace) = (inBraces name).written := by
  rw [Part.replaced]
  cases env.value? name <;> split <;> simp

/-- Replacing a variable wherever it is found replaces the references to it. -/
theorem replaceFrom_parts (hn : '\x7d' ∉ n) (hvalue : env.value? n = some v)
    (hvalues : ∀ name ∈ Part.names parts, ∀ value ∈ env.value? name, '$' ∉ value) :
    replaceFrom (inBraces n).written v 0 (parts.flatMap (Part.replaced env done)) =
      parts.flatMap (Part.replaced env (done ++ [n])) := by
  induction parts with
  | nil => rfl
  | cons part parts ih =>
      rw [List.flatMap_cons, List.flatMap_cons]
      cases part with
      | plain cs hdollar =>
          rw [Part.replaced, Part.replaced, replaceFrom_plain hdollar, ih hvalues]
      | braced name hnonempty hdollar hbrace =>
          obtain ⟨hhere, hlater⟩ := List.forall_mem_cons.mp hvalues
          rw [← ih hlater]
          by_cases hname : name = n
          · subst hname
            have hafter :
                Part.replaced env (done ++ [name]) (.braced name hnonempty hdollar hbrace) = v := by
              rw [Part.replaced, if_pos (by simp), hvalue, Option.getD_some]
            rw [hafter]
            by_cases hbefore : name ∈ done
            · rw [Part.replaced, if_pos (List.contains_iff_mem.mpr hbefore), hvalue, Option.getD_some,
                replaceFrom_plain (hhere v hvalue)]
            · rw [Part.replaced, if_neg (mt List.contains_iff_mem.mp hbefore)]
              exact replaceFrom_run
          · rw [Part.replaced_append_of_ne hname]
            obtain hset | hwritten := Part.replaced_cases env done
            · exact replaceFrom_plain (hhere _ hset)
            · rw [hwritten]
              exact replaceFrom_inBraces_of_ne hn hdollar hbrace hname

/-- Replacing variables one after another replaces the references to all of them. -/
theorem foldl_replaceMention_inBraces {later : List (List Char)}
    (hlater : ∀ n ∈ later, '\x7d' ∉ n)
    (hvalues : ∀ name ∈ Part.names parts, ∀ value ∈ env.value? name, '$' ∉ value) :
    (later.map inBraces).foldl (replaceMention env) (parts.flatMap (Part.replaced env done)) =
      parts.flatMap (Part.replaced env (done ++ later)) := by
  induction later generalizing done with
  | nil => rw [List.append_nil, List.map_nil, List.foldl_nil]
  | cons n later ih =>
      obtain ⟨hn, hlater⟩ := List.forall_mem_cons.mp hlater
      have hstep : replaceMention env (parts.flatMap (Part.replaced env done)) (inBraces n) =
          parts.flatMap (Part.replaced env (done ++ [n])) := by
        have hname : (inBraces n).name = n := rfl
        rw [replaceMention_eq, hname]
        cases hvalue : env.value? n with
        | none =>
            exact (List.flatMap_congr fun part _ => Part.replaced_append_of_unset hvalue part).symm
        | some v => exact replaceFrom_parts hn hvalue hvalues
      rw [List.map_cons, List.foldl_cons, hstep, ih hlater, List.append_assoc,
        List.singleton_append]

theorem flatMap_replaced_parts_nil :
    parts.flatMap (Part.replaced env []) = parts.flatMap Part.written := by
  refine List.flatMap_congr fun part _ => ?_
  cases part with
  | plain cs _ => rfl
  | braced name _ _ _ => simp [Part.replaced, Part.written]

theorem flatMap_replaced_parts_all (h : ∀ name ∈ Part.names parts, name ∈ done) :
    parts.flatMap (Part.replaced env done) = parts.flatMap (Part.expanded env) := by
  refine List.flatMap_congr fun part hpart => ?_
  cases part with
  | plain cs _ => rfl
  | braced name _ _ _ =>
      have hname : name ∈ Part.names parts := List.mem_filterMap.mpr ⟨_, hpart, rfl⟩
      rw [Part.replaced, if_pos (List.contains_iff_mem.mpr (h name hname)), Part.expanded]

theorem brace_notMem_of_mem_names (h : name ∈ Part.names parts) : '\x7d' ∉ name := by
  obtain ⟨part, -, hname⟩ := List.mem_filterMap.mp h
  cases part with
  | plain => cases hname
  | braced name' _ _ hbrace =>
      cases hname
      exact hbrace

end

/-- A text of references in braces is expanded by putting the value of each one's variable in its
place, all at once, and leaving those as they are whose variables are not set, if no value has a
`$` in it. The variables may be replaced in any order, and any number of times. -/
theorem expand_parts (env : Environment) (parts : List Part)
    (hvalues : ∀ name ∈ Part.names parts, ∀ value ∈ env.value? name, '$' ∉ value) :
    expand env (String.ofList (parts.flatMap Part.written)) =
      String.ofList (parts.flatMap (Part.expanded env)) ∧
    ∀ order : List (List Char), (∀ name, name ∈ order ↔ name ∈ Part.names parts) →
      (order.map inBraces).foldl (replaceMention env) (parts.flatMap Part.written) =
        parts.flatMap (Part.expanded env) := by
  have horder : ∀ order : List (List Char),
      (∀ name, name ∈ order ↔ name ∈ Part.names parts) →
      (order.map inBraces).foldl (replaceMention env) (parts.flatMap Part.written) =
        parts.flatMap (Part.expanded env) := by
    intro order hnames
    have hbraces : ∀ name ∈ order, '\x7d' ∉ name :=
      fun name hname => brace_notMem_of_mem_names ((hnames name).mp hname)
    rw [← flatMap_replaced_parts_nil, foldl_replaceMention_inBraces hbraces hvalues,
      List.nil_append, flatMap_replaced_parts_all fun name => (hnames name).mpr]
  refine ⟨?_, horder⟩
  simp only [expand, String.toList_ofList, mentions_braced?_written, mentions_bare?_written,
    List.append_nil, horder _ fun _ => Iff.rfl]

/-- The parts of `${HOST}:${PORT}/${HOST}${HOST_NAME}`. -/
def addressText : List Part :=
  [.braced "HOST".toList (by decide) (by decide) (by decide), .plain ":".toList (by decide),
    .braced "PORT".toList (by decide) (by decide) (by decide), .plain "/".toList (by decide),
    .braced "HOST".toList (by decide) (by decide) (by decide),
    .braced "HOST_NAME".toList (by decide) (by decide) (by decide)]

/-- A value with braces, one that is used twice, and a longer name that is not set. -/
theorem expand_parts_addressText :
    (∀ name ∈ Part.names addressText,
      ∀ value ∈ Environment.value? [("HOST", "\x7bPORT\x7d"), ("PORT", "80")] name,
        '$' ∉ value) ∧
    expand [("HOST", "\x7bPORT\x7d"), ("PORT", "80")]
        "$\x7bHOST\x7d:$\x7bPORT\x7d/$\x7bHOST\x7d$\x7bHOST_NAME\x7d" =
      "\x7bPORT\x7d:80/\x7bPORT\x7d$\x7bHOST_NAME\x7d" := by
  have hvalues : ∀ name ∈ Part.names addressText,
      ∀ value ∈ Environment.value? [("HOST", "\x7bPORT\x7d"), ("PORT", "80")] name,
        '$' ∉ value := by
    decide +kernel
  refine ⟨hvalues, ?_⟩
  have hexpand := (expand_parts _ addressText hvalues).1
  have hwritten : String.ofList (addressText.flatMap Part.written) =
      "$\x7bHOST\x7d:$\x7bPORT\x7d/$\x7bHOST\x7d$\x7bHOST_NAME\x7d" := by decide +kernel
  have hexpanded : String.ofList (addressText.flatMap
      (Part.expanded [("HOST", "\x7bPORT\x7d"), ("PORT", "80")])) =
      "\x7bPORT\x7d:80/\x7bPORT\x7d$\x7bHOST_NAME\x7d" := by decide +kernel
  rwa [hwritten, hexpanded] at hexpand

end ModuleOutputs.Expansion
