import Mathlib.Logic.Relation
import ModuleOutputs.Config.Text
import ModuleOutputs.Proofs.Config.Expansion
import ModuleOutputs.Proofs.Yaml.Records

/-!
The configuration, setting by setting. Each setting is what is given for it in its section, or
has its default, whatever is given for the others.
-/

namespace ModuleOutputs.Config

open Yaml

/-! ## Sections and their settings -/

/-- A section of the configuration: its key, what it is called in messages, its settings, and
where the configuration holds it. -/
structure Section where
  key : String
  expected : String
  Part : Type
  layout : Layout Part
  get : Config → Part
  set : Part → Config → Config
  get_set (x : Part) (c : Config) : get (set x c) = x

/-- A section as a field of the configuration. Without any setting it has the defaults. -/
def Section.slot (S : Section) : Slot Config where
  key := S.key
  Value := S.Part
  read := readRecord S.expected S.layout.fields (S.get {})
  means := S.layout.means (S.get {})
  reads := S.layout.readRecord_reads S.expected (S.get {})
  get := S.get
  set := S.set
  get_set := S.get_set

def inferenceLayout : Layout InferenceConfig where
  slots :=
    [.text "model" (·.model) (fun v c => { c with model := v }) fun _ _ => rfl,
     .text "api_base_url" (·.apiBaseUrl) (fun v c => { c with apiBaseUrl := v }) fun _ _ => rfl,
     .text "api_key_env" (·.apiKeyEnv) (fun v c => { c with apiKeyEnv := v }) fun _ _ => rfl,
     .natural "timeout_secs" "u64" (·.timeoutSecs) (fun v c => { c with timeoutSecs := v })
       fun _ _ => rfl,
     .text "schema_name" (·.schemaName) (fun v c => { c with schemaName := v }) fun _ _ => rfl]
  apart := by
    simp only [List.pairwise_cons, List.forall_mem_cons, List.not_mem_nil, false_implies,
      implies_true, and_true, List.Pairwise.nil]
    refine ⟨⟨?_, ?_, ?_, ?_⟩, ⟨?_, ?_, ?_⟩, ⟨?_, ?_⟩, ?_⟩ <;>
      exact ⟨by decide, fun _ _ => rfl, fun _ _ => rfl⟩
  ext {a b} h := by
    obtain ⟨model, apiBaseUrl, apiKeyEnv, timeoutSecs, schemaName⟩ := a
    simp only [List.forall_mem_cons] at h
    obtain ⟨rfl, rfl, rfl, rfl, rfl, -⟩ := h
    rfl

def registryLayout : Layout RegistryConfig where
  slots :=
    [.text "base_url" (·.baseUrl) (fun v c => { c with baseUrl := v }) fun _ _ => rfl,
     .natural "timeout_secs" "u64" (·.timeoutSecs) (fun v c => { c with timeoutSecs := v })
       fun _ _ => rfl]
  apart := List.pairwise_pair.mpr ⟨by decide, fun _ _ => rfl, fun _ _ => rfl⟩
  ext {a b} h := by
    obtain ⟨baseUrl, timeoutSecs⟩ := a
    simp only [List.forall_mem_cons] at h
    obtain ⟨rfl, rfl, -⟩ := h
    rfl

def scanLayout : Layout ScanConfig where
  slots :=
    [.texts "exclude_patterns" (·.excludePatterns) (fun v c => { c with excludePatterns := v })
       fun _ _ => rfl,
     .natural "max_depth" "usize" (·.maxDepth) (fun v c => { c with maxDepth := v })
       fun _ _ => rfl]
  apart := List.pairwise_pair.mpr ⟨by decide, fun _ _ => rfl, fun _ _ => rfl⟩
  ext {a b} h := by
    obtain ⟨excludePatterns, maxDepth⟩ := a
    simp only [List.forall_mem_cons] at h
    obtain ⟨rfl, rfl, -⟩ := h
    rfl

/-- Whether clones are kept. -/
def keepClone : Slot CloneConfig :=
  .flag "keep_clone" (·.keepClone) (fun v c => { c with keepClone := v }) fun _ _ => rfl

def cloneLayout : Layout CloneConfig where
  slots := [keepClone]
  apart := List.pairwise_singleton _ _
  ext {a b} h := by
    obtain ⟨keepClone⟩ := a
    obtain rfl := List.forall_mem_singleton.mp h
    rfl

def outputLayout : Layout OutputConfig where
  slots := [.flag "pretty" (·.pretty) (fun v c => { c with pretty := v }) fun _ _ => rfl]
  apart := List.pairwise_singleton _ _
  ext {a b} h := by
    obtain ⟨pretty⟩ := a
    obtain rfl := List.forall_mem_singleton.mp h
    rfl

def inferenceSection : Section :=
  ⟨"inference", "struct InferenceOptions", InferenceConfig, inferenceLayout, (·.inference),
    fun v c => { c with inference := v }, fun _ _ => rfl⟩

def registrySection : Section :=
  ⟨"registry", "struct RegistryOptions", RegistryConfig, registryLayout, (·.registry),
    fun v c => { c with registry := v }, fun _ _ => rfl⟩

def scanSection : Section :=
  ⟨"scan", "struct ScanOptions", ScanConfig, scanLayout, (·.scan),
    fun v c => { c with scan := v }, fun _ _ => rfl⟩

def cloneSection : Section :=
  ⟨"git", "struct GitOptions", CloneConfig, cloneLayout, (·.git),
    fun v c => { c with git := v }, fun _ _ => rfl⟩

def outputSection : Section :=
  ⟨"output", "struct OutputOptions", OutputConfig, outputLayout, (·.output),
    fun v c => { c with output := v }, fun _ _ => rfl⟩

/-- The sections that the configuration knows. -/
def sections : List Section :=
  [inferenceSection, registrySection, scanSection, cloneSection, outputSection]

def layout : Layout Config where
  slots := sections.map Section.slot
  apart := by
    simp only [sections, List.map_cons, List.map_nil, List.pairwise_cons, List.forall_mem_cons,
      List.not_mem_nil, false_implies, implies_true, and_true, List.Pairwise.nil]
    refine ⟨⟨?_, ?_, ?_, ?_⟩, ⟨?_, ?_, ?_⟩, ⟨?_, ?_⟩, ?_⟩ <;>
      exact ⟨by decide, fun _ _ => rfl, fun _ _ => rfl⟩
  ext {a b} h := by
    obtain ⟨inference, registry, scan, git, output⟩ := a
    simp only [sections, List.map_cons, List.map_nil, List.forall_mem_cons] at h
    obtain ⟨rfl, rfl, rfl, rfl, rfl, -⟩ := h
    rfl

/-- The fields that a configuration is read by. -/
theorem fields_eq : fields = layout.fields := rfl

/-! ## What is given for a setting -/

/-- What the entries of a configuration give for a setting of a section. -/
def givenFor (S : Section) (s : Slot S.Part) (es : List (Content × Content)) : List Content :=
  (under S.key es).flatMap fun part => under s.key part.entries

/-- Whether entries have the form of a configuration: their keys are texts, the sections are
mappings, and known keys are given once at most, those of sections and those of settings. -/
structure InForm (es : List (Content × Content)) : Prop where
  keys : KeysAreTexts es
  once : ∀ S ∈ sections, (under S.key es).length ≤ 1
  mappings : ∀ S ∈ sections, ∀ part ∈ under S.key es, part.isMapping = true
  onceWithin : ∀ S ∈ sections, ∀ part ∈ under S.key es, ∀ s ∈ S.layout.slots,
    (under s.key part.entries).length ≤ 1

/-- One configuration from another: its entries are rearranged, or those of a section are. -/
inductive Rewritten : List (Content × Content) → List (Content × Content) → Prop
  | sections {es es' : List (Content × Content)}
      (entries : Rearranges (sections.map (·.key)) es es') : Rewritten es es'
  | settings {S : Section} {k : Content} {part part' es : List (Content × Content)}
      (known : S ∈ sections) (key : k.text? = some S.key)
      (entries : Rearranges (S.layout.slots.map (·.key)) part part') :
      Rewritten ((k, .mapping part) :: es) ((k, .mapping part') :: es)

section

variable {S : Section} {s : Slot S.Part} {es es' : List (Content × Content)} {c : Config}

theorem slot_mem (h : S ∈ sections) : S.slot ∈ layout.slots :=
  List.mem_map_of_mem h

theorem givenFor_of_nil (h : under S.key es = []) : givenFor S s es = [] := by
  rw [givenFor, h, List.flatMap_nil]

theorem givenFor_of_singleton {part : Content} (h : under S.key es = [part]) :
    givenFor S s es = under s.key part.entries := by
  rw [givenFor, h, List.flatMap_singleton]

/-- Entries in the form of a configuration are one if what is given for each setting is of its
type, and the keys of sections are texts as well. -/
theorem isSome_means_iff (hform : InForm es) : (layout.means {} (.mapping es)).isSome ↔
    ∀ S ∈ sections, (∀ part ∈ under S.key es, KeysAreTexts part.entries) ∧
      ∀ s ∈ S.layout.slots, ∀ v ∈ givenFor S s es, (s.means v).isSome := by
  have hsection : ∀ S ∈ sections, ∀ part ∈ under S.key es,
      ((S.layout.means (S.get {}) part).isSome ↔ KeysAreTexts part.entries ∧
        ∀ s ∈ S.layout.slots, ∀ v ∈ under s.key part.entries, (s.means v).isSome) := by
    intro S hS part hpart
    obtain ⟨settings, rfl⟩ := Content.exists_of_isMapping (hform.mappings S hS part hpart)
    exact Layout.isSome_means_mapping_iff (hform.onceWithin S hS _ hpart)
  rw [Layout.isSome_means_mapping_iff (List.forall_mem_map.mpr hform.once)]
  simp only [hform.keys, true_and, layout, List.forall_mem_map]
  refine forall₂_congr fun S hS => ?_
  simp only [givenFor, List.mem_flatMap, forall_exists_index, and_imp]
  constructor
  · intro h
    exact ⟨fun part hpart => ((hsection S hS part hpart).mp (h part hpart)).1,
      fun s hs v part hpart hv => ((hsection S hS part hpart).mp (h part hpart)).2 s hs v hv⟩
  · rintro ⟨hkeys, hmeans⟩ part hpart
    exact (hsection S hS part hpart).mpr
      ⟨hkeys part hpart, fun s hs v hv => hmeans s hs v part hpart hv⟩

/-- Each setting is what is given for it, or has its default. -/
theorem get_of_means (hform : InForm es) (h : layout.means {} (.mapping es) = some c)
    (hS : S ∈ sections) (hs : s ∈ S.layout.slots) :
    givenFor S s es = [] ∧ s.get (S.get c) = s.get (S.get {}) ∨
      ∃ v, givenFor S s es = [v] ∧ s.means v = some (s.get (S.get c)) := by
  rcases Layout.get_of_ofEntries h (slot_mem hS) with ⟨hnone, hget⟩ | ⟨part, hpart, hget⟩
  · have hget : S.get c = S.get {} := hget
    exact .inl ⟨givenFor_of_nil hnone, by rw [hget]⟩
  · have hpart : under S.key es = [part] := hpart
    obtain ⟨settings, rfl⟩ := Content.exists_of_isMapping
      (hform.mappings S hS part (hpart ▸ List.mem_singleton_self part))
    have hmeans : S.layout.ofEntries [] settings (S.get {}) = some (S.get c) := hget
    rw [givenFor_of_singleton hpart]
    exact Layout.get_of_ofEntries hmeans hs

theorem Rewritten.means_eq (h : Rewritten es es') :
    layout.means {} (.mapping es') = layout.means {} (.mapping es) := by
  cases h with
  | sections entries =>
      refine Rearranges.means_eq (l := layout) ?_
      rwa [layout, List.map_map]
  | @settings S k part part' es known key entries =>
      refine Layout.ofEntries_cons_congr fun t ht hkey => ?_
      obtain rfl : S.slot = t :=
        Layout.eq_of_key (slot_mem known) ht (Option.some.inj (key.symm.trans hkey))
      exact entries.means_eq

theorem means_eq_of_rewritten (h : Relation.EqvGen Rewritten es es') :
    layout.means {} (.mapping es') = layout.means {} (.mapping es) := by
  induction h with
  | rel _ _ h => exact h.means_eq
  | refl => rfl
  | symm _ _ _ ih => exact ih.symm
  | trans _ _ _ _ _ ih ih' => exact ih'.trans ih

end

/-! ## Texts -/

section

variable {env : Environment} {text : String} {es : List (Content × Content)} {c : Config}

theorem expand_plain (hplain : '$' ∉ text.toList) : Expansion.expand env text = text := by
  have hbraced : Expansion.mentions Expansion.braced? 0 (text.toList ++ []) = [] :=
    Expansion.mentions_plain (fun _ _ => Expansion.braced?_of_ne) hplain
  have hbare : Expansion.mentions Expansion.bare? 0 (text.toList ++ []) = [] :=
    Expansion.mentions_plain (fun _ _ => Expansion.bare?_of_ne) hplain
  rw [List.append_nil] at hbraced hbare
  rw [Expansion.expand, hbraced, hbare]
  exact String.ofList_toList

/-- A text of blank lines and comments is not read as YAML. -/
theorem ofText_of_silent (hplain : '$' ∉ text.toList)
    (hsilent : (lines text.toList).all isSilent = true) : ofText env text = .ok {} := by
  unfold ofText
  rw [expand_plain hplain]
  exact if_pos hsilent

theorem ofText_eq_ok_iff (hplain : '$' ∉ text.toList)
    (hlines : (lines text.toList).all isSilent = false) (hsaid : TextSays text (.mapping es)) :
    ofText env text = .ok c ↔ layout.means {} (.mapping es) = some c := by
  unfold ofText
  rw [expand_plain hplain]
  dsimp only
  rw [if_neg (by rw [hlines]; exact Bool.false_ne_true), fields_eq,
    ← layout.toOption_recordOfText "struct Config" {} hsaid]
  cases recordOfText "struct Config" layout.fields {} text <;> simp [Except.toOption]

end

/-- A text that mentions no variables and is a mapping in the form of a configuration is read
setting by setting. If all of its lines are taken for blank ones and comments, nothing of it is
read. Otherwise it is a configuration if each setting that is given is of its type, and the keys
of sections are texts as well. Each setting is then what is given for it, or has its default. Any
other such text whose entries are the same but rearranged comes to the same. -/
theorem ofText_settings (env : Environment) (text : String) (es : List (Content × Content))
    (hplain : '$' ∉ text.toList) (hsaid : TextSays text (.mapping es)) (hform : InForm es) :
    ((lines text.toList).all isSilent = true → ofText env text = .ok {}) ∧
    ((lines text.toList).all isSilent = false →
      ((∃ c, ofText env text = .ok c) ↔ ∀ S ∈ sections,
        (∀ part ∈ under S.key es, KeysAreTexts part.entries) ∧
        ∀ s ∈ S.layout.slots, ∀ v ∈ givenFor S s es, (s.means v).isSome) ∧
      (∀ c, ofText env text = .ok c → ∀ S ∈ sections, ∀ s ∈ S.layout.slots,
        givenFor S s es = [] ∧ s.get (S.get c) = s.get (S.get {}) ∨
          ∃ v, givenFor S s es = [v] ∧ s.means v = some (s.get (S.get c))) ∧
      ∀ env' text' es', '$' ∉ text'.toList → TextSays text' (.mapping es') →
        (lines text'.toList).all isSilent = false → Relation.EqvGen Rewritten es es' →
        ∀ c, ofText env' text' = .ok c ↔ ofText env text = .ok c) := by
  refine ⟨ofText_of_silent hplain, fun hlines => ⟨?_, ?_, ?_⟩⟩
  · simp only [ofText_eq_ok_iff hplain hlines hsaid, ← Option.isSome_iff_exists]
    exact isSome_means_iff hform
  · intro c hc S hS s hs
    exact get_of_means hform ((ofText_eq_ok_iff hplain hlines hsaid).mp hc) hS hs
  · intro env' text' es' hplain' hsaid' hlines' hrewritten c
    rw [ofText_eq_ok_iff hplain' hlines' hsaid', ofText_eq_ok_iff hplain hlines hsaid,
      means_eq_of_rewritten hrewritten]

def plainScalar (text : String) : Content :=
  .scalar none .plain text

/-- Entries that ask for clones to be kept, with others in front of that in the section. -/
def keptClones (others : List (Content × Content)) : List (Content × Content) :=
  [(plainScalar "git", .mapping (others ++ [(plainScalar "keep_clone", plainScalar "true")]))]

/-- An unknown key in front of the section, or one within it. -/
theorem ofText_settings_keptClones :
    TextSays "x: 1\ngit: \x7bkeep_clone: true\x7d\n"
      (.mapping ((plainScalar "x", plainScalar "1") :: keptClones [])) ∧
    InForm ((plainScalar "x", plainScalar "1") :: keptClones []) ∧
    ∃ c, ofText [] "x: 1\ngit: \x7bkeep_clone: true\x7d\n" = .ok c ∧
      ofText [] "git: \x7by: 2, keep_clone: true\x7d\n" = .ok c ∧ c.git.keepClone = true := by
  have hsaid : TextSays "x: 1\ngit: \x7bkeep_clone: true\x7d\n"
      (.mapping ((plainScalar "x", plainScalar "1") :: keptClones [])) := by
    decide +kernel
  have hsaid' : TextSays "git: \x7by: 2, keep_clone: true\x7d\n"
      (.mapping (keptClones [(plainScalar "y", plainScalar "2")])) := by
    decide +kernel
  have hform : InForm ((plainScalar "x", plainScalar "1") :: keptClones []) :=
    ⟨by decide, by decide, by decide, by decide⟩
  have hknown : cloneSection ∈ sections := by simp [sections]
  -- The key in front is left out, and then the one within the section is put in.
  have hrewritten : Relation.EqvGen Rewritten
      ((plainScalar "x", plainScalar "1") :: keptClones [])
      (keptClones [(plainScalar "y", plainScalar "2")]) :=
    .trans _ (keptClones []) _ (.symm _ _ (.rel _ _ (.sections (.unknown rfl (by decide)))))
      (.rel _ _ (.settings hknown rfl (.unknown rfl (by decide))))
  obtain ⟨hsome, hget, hsame⟩ := (ofText_settings [] _ _ (by decide) hsaid hform).2 (by decide)
  obtain ⟨c, hc⟩ := hsome.mpr (by decide +kernel)
  have hc' := (hsame [] _ _ (by decide) hsaid' (by decide) hrewritten c).mpr hc
  refine ⟨hsaid, hform, c, hc, hc', ?_⟩
  obtain ⟨hnone, -⟩ | ⟨v, hv, hmeans⟩ := hget c hc cloneSection hknown keepClone List.mem_cons_self
  · cases hnone
  · cases hv
    exact (Option.some.inj hmeans).symm

/-- A carriage return ends a comment in YAML, and it ends none of the lines that are looked at. The
mapping behind it is in the form of a configuration, and nothing of it is read. -/
theorem ofText_ne_of_comment_ended :
    '$' ∉ "# c\rgit: \x7bkeep_clone: true\x7d\n".toList ∧
    TextSays "# c\rgit: \x7bkeep_clone: true\x7d\n" (.mapping (keptClones [])) ∧
    InForm (keptClones []) ∧
    (∃ v, givenFor cloneSection keepClone (keptClones []) = [v] ∧
      keepClone.means v = some true) ∧
    ∃ c, ofText [] "# c\rgit: \x7bkeep_clone: true\x7d\n" = .ok c ∧
      keepClone.get (cloneSection.get c) = false :=
  ⟨by decide, by decide +kernel, ⟨by decide, by decide, by decide, by decide⟩, ⟨_, rfl, rfl⟩, {},
    ofText_of_silent (by decide) (by decide), rfl⟩

end ModuleOutputs.Config
