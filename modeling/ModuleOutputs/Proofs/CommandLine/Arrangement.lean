import Mathlib.Data.List.Induction
import Mathlib.Data.List.Nodup
import ModuleOutputs.Proofs.CommandLine.Pieces

/-!
Options anywhere on a command line. What a line says is given by its positional arguments in their
order and by which options there are, wherever among the arguments each of them stands.
-/

namespace ModuleOutputs.CommandLine

/-! ## What is given -/

/-- What an option is called. -/
def Given.named : Given → Named
  | .switch s => .inl s
  | .setting s _ => .inr s

/-- The value that an option gives for a setting. -/
def Given.valueFor? (s : Setting) : Given → Option String
  | .switch _ => none
  | .setting t value => if t = s then some value else none

/-- The value that options give for a setting. -/
def value? (s : Setting) (options : List Given) : Option String :=
  options.findSome? (Given.valueFor? s)

/-- Whether each option is given once at most, but for the one that is counted. -/
def GivenOnce (options : List Given) : Prop :=
  ((options.filter (·.named ≠ .inl .verbose)).map Given.named).Nodup

instance (options : List Given) : Decidable (GivenOnce options) :=
  inferInstanceAs (Decidable (List.Nodup _))

section

variable {options options' : List Given} {g g' : Given} {s : Setting} {value : String}

theorem valueFor?_eq_some_iff : g.valueFor? s = some value ↔ g = .setting s value := by
  cases g <;> simp [Given.valueFor?]

theorem value?_append : value? s (options ++ [g]) = (value? s options).or (g.valueFor? s) := by
  rw [value?, List.findSome?_append, List.findSome?_singleton]
  rfl

theorem GivenOnce.of_append (h : GivenOnce (options ++ [g])) : GivenOnce options := by
  refine h.sublist ?_
  exact ((List.sublist_append_left options [g]).filter _).map _

theorem GivenOnce.perm (h : GivenOnce options) (hperm : options'.Perm options) :
    GivenOnce options' :=
  ((hperm.filter _).map _).nodup_iff.mpr h

theorem GivenOnce.named_ne (h : GivenOnce (options ++ [g])) (hne : g.named ≠ .inl .verbose)
    (hg' : g' ∈ options) : g'.named ≠ g.named := by
  unfold GivenOnce at h
  rw [List.filter_append, List.map_append, List.nodup_append] at h
  by_cases hne' : g'.named = .inl .verbose
  · exact fun heq => hne (heq ▸ hne')
  · exact h.2.2 _ (List.mem_map_of_mem (List.mem_filter.mpr ⟨hg', decide_eq_true hne'⟩)) _
      (List.mem_map_of_mem (List.mem_filter.mpr ⟨List.mem_singleton_self g, decide_eq_true hne⟩))

theorem GivenOnce.eq_of_named (h : GivenOnce options) (hg : g ∈ options) (hg' : g' ∈ options)
    (hnamed : g.named = g'.named) (hne : g.named ≠ .inl .verbose) : g = g' := by
  refine List.inj_on_of_nodup_map h ?_ ?_ hnamed
  · exact List.mem_filter.mpr ⟨hg, decide_eq_true hne⟩
  · exact List.mem_filter.mpr ⟨hg', decide_eq_true (hnamed ▸ hne)⟩

/-- A setting that is given once has the value that is given. -/
theorem value?_eq_some_iff (h : GivenOnce options) :
    value? s options = some value ↔ .setting s value ∈ options := by
  constructor
  · intro hvalue
    obtain ⟨g, hg, hfor⟩ := List.exists_of_findSome?_eq_some hvalue
    rwa [valueFor?_eq_some_iff.mp hfor] at hg
  · intro hmem
    have hsome : (value? s options).isSome :=
      List.findSome?_isSome_iff.mpr
        ⟨_, hmem, Option.isSome_of_mem (valueFor?_eq_some_iff.mpr rfl)⟩
    obtain ⟨value', hvalue'⟩ := Option.isSome_iff_exists.mp hsome
    obtain ⟨g, hg, hfor⟩ := List.exists_of_findSome?_eq_some hvalue'
    obtain rfl := valueFor?_eq_some_iff.mp hfor
    cases h.eq_of_named hg hmem rfl nofun
    exact hvalue'

theorem GivenOnce.value?_eq_none (h : GivenOnce (options ++ [.setting s value])) :
    value? s options = none := by
  rw [Option.eq_none_iff_forall_ne_some]
  intro value' hvalue
  exact h.named_ne nofun ((value?_eq_some_iff h.of_append).mp hvalue) rfl

end

/-! ## What arguments and options say -/

/-- What positional arguments say with options. -/
def saying (arguments : List String) (options : List Given) : CommandLine where
  args := arguments
  generateOverride := .switch .generateOverride ∈ options
  skipStrings := .switch .skipStrings ∈ options
  config := value? .config options
  model := value? .model options
  keepClone := .switch .keepClone ∈ options
  printConfig := .switch .printConfig ∈ options
  verbose := min verboseLimit (options.count (.switch .verbose))
  quiet := .switch .quiet ∈ options

/-- What a line comes to. The path of a configuration file is not empty. -/
def checked (line : CommandLine) : Except Refusal CommandLine :=
  if line.config = some "" then .error (.missingValue .config) else .ok line

section

variable {configValue : Option String} {arguments : List String} {options options' : List Given}
  {line : CommandLine} {s : Setting} {value : String}

theorem checked_of_empty (h : line.config = some "") :
    checked line = .error (.missingValue .config) :=
  if_pos h

theorem checked_of_ne (h : line.config ≠ some "") : checked line = .ok line :=
  if_neg h

/-- Options that are given once at most say the same in any order. -/
theorem saying_of_perm (h : GivenOnce options) (hperm : options'.Perm options) :
    saying arguments options' = saying arguments options := by
  have hvalue : ∀ s, value? s options' = value? s options := fun s => Option.ext fun value => by
    rw [value?_eq_some_iff (h.perm hperm), value?_eq_some_iff h, hperm.mem_iff]
  simp only [saying, hvalue, hperm.mem_iff, hperm.count_eq]

theorem turnOn_saying {s : Switch} (hrun : s.isAnswered = false)
    (hnew : s ≠ .verbose → .switch s ∉ options) :
    turnOn configValue (saying arguments options) s =
      .ok (saying arguments (options ++ [.switch s])) := by
  have hvalue : ∀ t, value? t (options ++ [.switch s]) = value? t options := fun t => by
    rw [value?_append, Given.valueFor?, Option.or_none]
  cases s with
  | help => cases hrun
  | version => cases hrun
  | verbose =>
      have hcount (n : Nat) : min verboseLimit (min verboseLimit n + 1) =
          min verboseLimit (n + 1) := by
        omega
      simp [turnOn, saying, hvalue, hcount]
  | _ => simp [turnOn, turnOn.once, saying, hvalue, hnew]

theorem assign_saying (hnew : value? s options = none) :
    assign (saying arguments options) s value =
      if s = .config ∧ value = "" then .error (.missingValue .config)
      else .ok (saying arguments (options ++ [.setting s value])) := by
  have hvalue : ∀ t, value? t (options ++ [.setting s value]) =
      (value? t options).or (if s = t then some value else none) := fun t => by
    rw [value?_append, Given.valueFor?]
  cases s with
  | config =>
      by_cases hempty : value = "" <;> simp [assign, saying, hvalue, hnew, hempty]
  | model => simp [assign, saying, hvalue, hnew]

/-- A piece behind others adds its argument or its option to what they say. -/
theorem checked_bind_addTo (configValue : Option String) (p : Piece)
    (h : GivenOnce (options ++ p.option?.toList)) :
    (checked (saying arguments options) >>= fun line => p.addTo configValue line) =
      checked (saying (arguments ++ p.argument?.toList) (options ++ p.option?.toList)) := by
  by_cases hempty : (saying arguments options).config = some ""
  · -- No other path can follow, so the line is refused with every piece more.
    have hstays : (saying (arguments ++ p.argument?.toList)
        (options ++ p.option?.toList)).config = some "" :=
      List.findSome?_append.trans ((congrArg (Option.or · _) hempty).trans Option.some_or)
    rw [checked_of_empty hempty, checked_of_empty hstays]
    rfl
  · rw [checked_of_ne hempty]
    change p.addTo configValue (saying arguments options) = _
    cases p with
    | positional word plain =>
        have hstays : (saying (arguments ++ [word]) options).config ≠ some "" := hempty
        rw [Piece.option?, Option.toList_none, List.append_nil]
        exact (checked_of_ne hstays).symm
    | switch s word names run =>
        have hnew : s ≠ .verbose → .switch s ∉ options := fun hne hmem =>
          h.named_ne (fun hnamed => hne (Sum.inl.inj hnamed)) hmem rfl
        have hstays : (saying arguments (options ++ [.switch s])).config ≠ some "" := by
          rwa [saying, value?_append, Given.valueFor?, Option.or_none]
        rw [Piece.argument?, Option.toList_none, List.append_nil]
        exact (turnOn_saying run hnew).trans (checked_of_ne hstays).symm
    | setting s word value names plain =>
        have hnew : value? s options = none := GivenOnce.value?_eq_none h
        have hne : value? .config options ≠ some "" := hempty
        have hconfig : value? .config (options ++ [.setting s value]) = some "" ↔
            s = .config ∧ value = "" := by
          cases s <;> simp [value?_append, Given.valueFor?, hnew, hne]
        rw [Piece.argument?, Option.toList_none, List.append_nil]
        exact (assign_saying hnew).trans (if_congr hconfig rfl rfl).symm

/-- Pieces that give each option once say what their arguments and their options say. -/
theorem foldlM_addTo (ps : List Piece) (h : GivenOnce (optionsOf ps)) :
    ps.foldlM (Piece.addTo configValue) {} =
      checked (saying (argumentsOf ps) (optionsOf ps)) := by
  -- What is said so far grows with the last piece, so the induction is from the end.
  induction ps using List.reverseRecOn with
  | nil => rfl
  | append_singleton ps p ih =>
      rw [optionsOf_append] at h
      have honce : GivenOnce (optionsOf ps) := by
        cases hoption : p.option? with
        | none => simpa [hoption] using h
        | some g => exact GivenOnce.of_append (hoption ▸ h)
      rw [List.foldlM_append, ih honce, optionsOf_append, argumentsOf_append]
      refine Eq.trans (bind_congr fun line => ?_) (checked_bind_addTo configValue p h)
      exact bind_pure _

/-- The environment gives the path of a configuration file if the line does not. -/
theorem checked_bind_withEnvironment (line : CommandLine) :
    checked line >>= withEnvironment configValue =
      checked { line with config := line.config.or configValue } := by
  by_cases hempty : line.config = some ""
  · have hstays : line.config.or configValue = some "" := by rw [hempty, Option.some_or]
    rw [checked_of_empty hempty, checked_of_empty hstays]
    rfl
  · rw [checked_of_ne hempty]
    change withEnvironment configValue line = _
    cases hconfig : line.config with
    | some path =>
        rw [Option.some_or, ← hconfig]
        refine Eq.trans ?_ (checked_of_ne hempty).symm
        simp [withEnvironment, hconfig]
    | none =>
        cases configValue with
        | none =>
            rw [Option.or_none, ← hconfig]
            refine Eq.trans ?_ (checked_of_ne hempty).symm
            simp [withEnvironment, hconfig]
        | some path =>
            by_cases hpath : path = "" <;>
              simp [withEnvironment, assign, checked, hconfig, hpath]

end

/-! ## Arrangements -/

/-- A line of positional arguments and options. The arguments stand in their order, and the
options in any order and anywhere among them. -/
structure Arranges (arguments : List String) (options : List Given) (ps : List Piece) : Prop where
  arguments : argumentsOf ps = arguments
  options : (optionsOf ps).Perm options

/-- What positional arguments ask for with options. Two arguments name a module in a directory,
three one in a registry with its version, and any other number is a failure. -/
structure AsksFor (configValue : Option String) (arguments : List String) (options : List Given)
    (line : CommandLine) : Prop where
  directory : ∀ source output, arguments = [source, output] →
    line.invocation = .ok ⟨⟨source, ""⟩, .directory, output⟩
  registry : ∀ source version output, arguments = [source, version, output] →
    line.invocation = .ok ⟨⟨source, version⟩, .registry, output⟩
  otherwise : arguments.length ≠ 2 → arguments.length ≠ 3 →
    line.invocation =
      .error (.arguments ("Expected 2 or 3 arguments, got " ++ toString arguments.length))
  runOptions : line.runOptions =
    ⟨.switch .generateOverride ∈ options, .switch .skipStrings ∈ options⟩
  configFile : line.config = (value? .config options).or configValue
  merged : ∀ config : Config, line.mergeInto config =
    { config with
      inference := { config.inference with
        model := (value? .model options).getD config.inference.model }
      git := ⟨config.git.keepClone || .switch .keepClone ∈ options⟩ }
  printConfig : line.printConfig = decide (.switch .printConfig ∈ options)
  verbose : line.verbose = min verboseLimit (options.count (.switch .verbose))
  quiet : line.quiet = decide (.switch .quiet ∈ options)

section

variable {configValue : Option String} {arguments : List String} {options : List Given}
  {ps : List Piece}

theorem invocation_of_length {line : CommandLine} (htwo : line.args.length ≠ 2)
    (hthree : line.args.length ≠ 3) :
    line.invocation =
      .error (.arguments ("Expected 2 or 3 arguments, got " ++ toString line.args.length)) := by
  unfold invocation
  split
  · next hargs => exact absurd (congrArg List.length hargs) htwo
  · next hargs => exact absurd (congrArg List.length hargs) hthree
  · rfl

theorem saying_asksFor : AsksFor configValue arguments options
    { saying arguments options with config := (value? .config options).or configValue } where
  directory := by
    rintro source output rfl
    rfl
  registry := by
    rintro source version output rfl
    rfl
  otherwise htwo hthree := invocation_of_length htwo hthree
  runOptions := rfl
  configFile := rfl
  merged _ := rfl
  printConfig := rfl
  verbose := rfl
  quiet := rfl

theorem parse_of_arranges (honce : GivenOnce options) (h : Arranges arguments options ps) :
    parse configValue (wordsOf ps) =
      checked { saying arguments options with
        config := (value? .config options).or configValue } := by
  rw [parse_wordsOf, foldlM_addTo ps (honce.perm h.options), h.arguments,
    saying_of_perm honce h.options, checked_bind_withEnvironment]
  rfl

end

/-- Options may stand anywhere among the positional arguments. Any two lines of the same arguments
and options, each of these next to its value and given once at most, are understood in the same
way. They are refused if they, or else the environment, give an empty path for the configuration
file, and otherwise ask for what the arguments and the options ask for. -/
theorem parse_arranged (configValue : Option String) {arguments : List String}
    {options : List Given} {ps qs : List Piece} (honce : GivenOnce options)
    (hps : Arranges arguments options ps) (hqs : Arranges arguments options qs) :
    parse configValue (wordsOf ps) = parse configValue (wordsOf qs) ∧
    ((value? .config options).or configValue = some "" →
      parse configValue (wordsOf ps) = .error (.missingValue .config)) ∧
    ((value? .config options).or configValue ≠ some "" →
      ∃ line, parse configValue (wordsOf ps) = .ok line ∧
        AsksFor configValue arguments options line) := by
  refine ⟨?_, fun hempty => ?_, fun hne => ⟨_, ?_, saying_asksFor⟩⟩
  · rw [parse_of_arranges honce hps, parse_of_arranges honce hqs]
  · rw [parse_of_arranges honce hps]
    exact checked_of_empty hempty
  · rw [parse_of_arranges honce hps]
    exact checked_of_ne hne

/-- The options of a line that asks for another model. -/
def modelOptions : List Given :=
  [.switch .skipStrings, .setting .model "gpt-4o-mini", .switch .verbose, .switch .verbose]

/-- Options among the arguments, and behind them in another order. -/
theorem parse_arranged_modelOptions :
    GivenOnce modelOptions ∧
    parse none ["-v", "org/vpc/aws", "--model", "gpt-4o-mini", "5.1.0", "--skip-strings", "-v",
        "vpc.json"] =
      parse none ["org/vpc/aws", "5.1.0", "vpc.json", "--skip-strings", "-v", "--verbose",
        "--model", "gpt-4o-mini"] ∧
    ∃ line, parse none ["-v", "org/vpc/aws", "--model", "gpt-4o-mini", "5.1.0",
        "--skip-strings", "-v", "vpc.json"] = .ok line ∧
      line.invocation = .ok ⟨⟨"org/vpc/aws", "5.1.0"⟩, .registry, "vpc.json"⟩ ∧
      (line.mergeInto {}).inference.model = "gpt-4o-mini" := by
  have honce : GivenOnce modelOptions := by decide
  let source : Piece := .positional "org/vpc/aws" (by decide)
  let version : Piece := .positional "5.1.0" (by decide)
  let output : Piece := .positional "vpc.json" (by decide)
  let skip : Piece := .switch .skipStrings "--skip-strings" (by decide) rfl
  let letter : Piece := .switch .verbose "-v" (by decide) rfl
  let verbose : Piece := .switch .verbose "--verbose" (by decide) rfl
  let model : Piece := .setting .model "--model" "gpt-4o-mini" (by decide) (by decide)
  have hps : Arranges ["org/vpc/aws", "5.1.0", "vpc.json"] modelOptions
      [letter, source, model, version, skip, letter, output] := ⟨rfl, by decide⟩
  have hqs : Arranges ["org/vpc/aws", "5.1.0", "vpc.json"] modelOptions
      [source, version, output, skip, letter, verbose, model] := ⟨rfl, by decide⟩
  obtain ⟨hsame, -, hline⟩ := parse_arranged none honce hps hqs
  obtain ⟨line, hparse, hasks⟩ := hline (by decide)
  refine ⟨honce, hsame, line, hparse, hasks.registry _ _ _ rfl, ?_⟩
  rw [hasks.merged]
  rfl

end ModuleOutputs.CommandLine
