import ModuleOutputs.Proofs.Run.Frame
import ModuleOutputs.Proofs.Run.Posting

/-!
The requests of a whole run, in order: the look-up of the module, the requests of the
clone, and the calls of the chat service. Which of them are sent is settled by the
replies and by what is found in the clone, as `Requests` has it.
-/

namespace ModuleOutputs

open Http (Sent Reply)

/-! ## Naming a source -/

namespace Text

/-- Whether a text is another one without the white space at its ends. -/
structure Trims (core s : String) : Prop where
  ends : ∃ front back, s.toList = front ++ core.toList ++ back ∧
    ∀ c ∈ front ++ back, isBlank c = true
  first : ∀ c, core.toList.head? = some c → isBlank c = false
  last : ∀ c, core.toList.getLast? = some c → isBlank c = false

theorem not_of_head?_dropWhile {p : Char → Bool} {cs : List Char} {c : Char}
    (h : (cs.dropWhile p).head? = some c) : p c = false := by
  have hnot := List.head?_dropWhile_not p cs
  rw [h] at hnot
  exact hnot

theorem trims_trim (s : String) : Trims (trim s) s := by
  have hfront := List.takeWhile_append_dropWhile (p := isBlank) (l := s.toList)
  generalize hrest : s.toList.dropWhile isBlank = rest at hfront
  have hcore : (trim s).toList = dropEndWhile isBlank rest := by
    rw [trim, String.toList_ofList, stripWhile, hrest]
  have hback : dropEndWhile isBlank rest ++ (rest.reverse.takeWhile isBlank).reverse = rest := by
    rw [dropEndWhile, ← List.reverse_append, List.takeWhile_append_dropWhile, List.reverse_reverse]
  refine ⟨⟨s.toList.takeWhile isBlank, (rest.reverse.takeWhile isBlank).reverse, ?_, ?_⟩, ?_, ?_⟩
  · rw [hcore, List.append_assoc, hback, hfront]
  · intro c hc
    rw [List.mem_append, List.mem_reverse] at hc
    exact hc.elim List.mem_takeWhile_imp List.mem_takeWhile_imp
  · intro c hc
    have hhead : rest.head? = some c := by
      rw [← hback, List.head?_append, ← hcore, hc]
      rfl
    exact not_of_head?_dropWhile (hrest ▸ hhead)
  · intro c hc
    rw [hcore, dropEndWhile, List.getLast?_reverse] at hc
    exact not_of_head?_dropWhile hc

theorem trim_eq_empty_iff (s : String) : trim s = "" ↔ isAllBlank s = true := by
  have hsplit := List.takeWhile_append_dropWhile (p := isBlank) (l := s.toList)
  simp only [trim, isAllBlank, stripWhile, dropEndWhile, String.ofList_eq_empty_iff,
    List.reverse_eq_nil_iff, List.dropWhile_eq_nil_iff, List.mem_reverse, List.all_eq_true]
  constructor
  · intro h c hc
    rw [← hsplit] at hc
    rcases List.mem_append.mp hc with hc | hc
    · exact List.all_eq_true.mp List.all_takeWhile c hc
    · exact h c hc
  · exact fun h c hc => h c ((List.dropWhile_sublist isBlank).subset hc)

end Text

namespace Clone

/-- Whether an address is that of the repository of a source: without the white space at the
ends of the source, and with the ending of repositories. -/
def IsUrlOf (source url : String) : Prop :=
  ∃ core, Text.Trims core source ∧
    url = if ".git".toList <:+ core.toList then core else core ++ ".git"

theorem isUrlOf_repositoryUrl (source : String) : IsUrlOf source (repositoryUrl source) := by
  refine ⟨Text.trim source, Text.trims_trim source, ?_⟩
  simp [repositoryUrl, ending]

end Clone

namespace Registry

/-- Whether a reply from the registry names a source: it has a successful status, it
is metadata, and its source is not blank. -/
def NamesSource (reply : Reply) (source : String) : Prop :=
  Http.isSuccess (Http.documentOf reply).1 = true ∧
    ∃ metadata, Json.decodeBytes Metadata.read (Http.documentOf reply).2 = .ok metadata ∧
      metadata.source = some source ∧ Text.trim source ≠ ""

theorem namesSource_iff (c : RegistryConfig) (m : ModuleRef) (reply : Reply) (source : String) :
    NamesSource reply source ↔
      ∃ metadata, metadataIn c m reply = .ok metadata ∧
        Sources.repository? metadata = some source := by
  have hblank : Text.trim source ≠ "" ↔ Text.isAllBlank source = false := by
    rw [Ne, Text.trim_eq_empty_iff, Bool.not_eq_true]
  unfold NamesSource metadataIn
  cases hfault : reply.fault? with
  | some reason =>
      -- A reply that is missing has no status of success.
      have hstatus : Http.isSuccess (Http.documentOf reply).1 ≠ true := fun hsuccess => by
        simp [Http.fault?_of_isSuccess hsuccess] at hfault
      simp [hstatus]
  | none =>
      simp only [readReply, Sources.repository?]
      split
      · split <;> simp_all
      · simp_all

/-- Below a base the metadata of every module has an address. -/
theorem metadataUrl_ok {base : String} (h : Http.Url.IsBase base) (m : ModuleRef) :
    ∃ a, Http.Url.ofText (metadataUrl base m) = .ok a := by
  unfold metadataUrl
  split
  · have happend := h.ofText_append (Text.stripSlashes m.source ++ "/" ++ m.version)
    simpa [String.append_assoc] using happend
  · exact h.ofText_append (Text.stripSlashes m.source)

end Registry

namespace World

@[simp] theorem released_clones (w : World) (k : Clone.Checkout) :
    (w.released k).clones = w.clones := by
  unfold released
  split <;> rfl

theorem finished_clones (w : World) (s : Sources) : (w.finished s).clones = w.clones := by
  unfold finished
  split
  · exact released_clones w _
  · rfl

end World

namespace Sources

/-! ## Finding sources -/

/-- What finding the sources of a module sends, and which clone it attempts. -/
structure Located (c : Config) (m : ModuleRef) (mode : SourceMode) (w v : World)
    (lookups packs : List Sent) : Prop where
  /-- A module in a directory is found without a request. -/
  directory : mode = .directory → lookups = [] ∧ packs = [] ∧ v.clones = w.clones
  /-- A module in a registry is looked up first, at the address of its metadata. -/
  lookup : mode = .registry → ∃ a,
    Http.Url.ofText (Registry.metadataUrl c.registry.baseUrl m) = .ok a ∧
      lookups = [Registry.lookup a]
  /-- If the reply names a source a clone of it is attempted, with the blanks at its ends left
  out and the ending of repositories put to it. If a directory can be made for the clone, git
  sends what it has to send; if none can be made, nothing is sent. -/
  attempt : mode = .registry → ∀ source, Registry.NamesSource (w.reply 0) source →
    Clone.IsUrlOf source (Clone.repositoryUrl source) ∧
      v.clones = w.clones ++ [Clone.repositoryUrl source] ∧
      (∀ d, Clone.nextDirectory w = .ok d → packs = (cloning source w).requests ∧
        Clone.cloning (Clone.repositoryUrl source) d.path ∈ v.events) ∧
      ∀ fault, Clone.nextDirectory w = .error fault → packs = []
  /-- Otherwise no clone is attempted. -/
  noAttempt : mode = .registry → (∀ source, ¬ Registry.NamesSource (w.reply 0) source) →
    v.clones = w.clones ∧ packs = []

variable {c : Config} {m : ModuleRef} {mode : SourceMode} {u v w : World} {a : Http.Url}
  {metadata : Metadata} {source source' : String} {lookups packs : List Sent}

theorem located_of_directory : Located c m .directory w w [] [] where
  directory _ := ⟨rfl, rfl, rfl⟩
  lookup hmode := by cases hmode
  attempt hmode := by cases hmode
  noAttempt hmode := by cases hmode

theorem Located.mono (h : Located c m mode w v lookups packs) (hclones : u.clones = v.clones)
    (hevents : v.events ⊆ u.events) : Located c m mode w u lookups packs where
  directory hmode := by
    rw [hclones]
    exact h.directory hmode
  lookup := h.lookup
  attempt hmode source hnames := by
    obtain ⟨hurl, hattempted, hmade, hunmade⟩ := h.attempt hmode source hnames
    rw [hclones]
    exact ⟨hurl, hattempted, fun d hnext => (hmade d hnext).imp_right fun hcloning => hevents hcloning,
      hunmade⟩
  noAttempt hmode hnone := by
    rw [hclones]
    exact h.noAttempt hmode hnone

theorem lookedUp_heard (c : Config) (m : ModuleRef) (a : Http.Url) (w : World) :
    w.Heard (lookedUp c m a w) [Registry.lookup a] := rfl

theorem cloned_heard (c : Config) (m : ModuleRef) (a : Http.Url) (metadata : Metadata)
    (source : String) (d : Clone.Directory) (w : World) :
    w.Heard (cloned c m a metadata source d w)
      ([Registry.lookup a] ++ (cloning source w).requests) :=
  ((lookedUp_heard c m a w).of_server_eq rfl).sent (cloning source w).requests

theorem Published.namesSource (h : Published c m w a metadata source) :
    Registry.NamesSource (w.reply 0) source :=
  (Registry.namesSource_iff _ _ _ _).mpr ⟨metadata, h.reply, h.repository⟩

theorem Published.eq_of_namesSource (h : Published c m w a metadata source)
    (hnames : Registry.NamesSource (w.reply 0) source') : source' = source := by
  obtain ⟨metadata', hreply, hrepository⟩ :=
    (Registry.namesSource_iff c.registry m _ _).mp hnames
  exact h.unique ⟨h.address, hreply, hrepository⟩

/-- A clone that git is asked for. -/
theorem Published.located {d : Clone.Directory} (h : Published c m w a metadata source)
    (hnext : Clone.nextDirectory w = .ok d) :
    Located c m .registry w (cloned c m a metadata source d w) [Registry.lookup a]
      (cloning source w).requests where
  directory := nofun
  lookup _ := ⟨a, h.address, rfl⟩
  attempt _ source' hnames := by
    obtain rfl := h.eq_of_namesSource hnames
    refine ⟨Clone.isUrlOf_repositoryUrl _, rfl, fun d' hnext' => ⟨rfl, ?_⟩, fun fault hfault => ?_⟩
    · rw [hnext] at hnext'
      cases hnext'
      exact List.mem_append_right _ List.mem_cons_self
    · rw [hnext] at hfault
      cases hfault
  noAttempt _ hnone := absurd h.namesSource (hnone source)

/-- A clone for which no directory can be made. -/
theorem Published.located_of_unmade {fault : FileFault} (h : Published c m w a metadata source)
    (hnext : Clone.nextDirectory w = .error fault) :
    Located c m .registry w
      ((beforeClone c m a metadata w).asked (Clone.repositoryUrl source)) [Registry.lookup a] [] where
  directory := nofun
  lookup _ := ⟨a, h.address, rfl⟩
  attempt _ source' hnames := by
    obtain rfl := h.eq_of_namesSource hnames
    refine ⟨Clone.isUrlOf_repositoryUrl _, rfl, fun d hok => ?_, fun _ _ => rfl⟩
    rw [hnext] at hok
    cases hok
  noAttempt _ hnone := absurd h.namesSource (hnone source)

/-- Without a source that is named there is no clone. -/
theorem located_of_unnamed
    (haddress : Http.Url.ofText (Registry.metadataUrl c.registry.baseUrl m) = .ok a)
    (hunnamed : ∀ metadata source, Registry.metadataIn c.registry m (w.reply 0) = .ok metadata →
      repository? metadata ≠ some source) :
    w.Heard (lookedUp c m a w) ([Registry.lookup a] ++ []) ∧
      Located c m .registry w (lookedUp c m a w) [Registry.lookup a] [] := by
  have hnone : ∀ source, ¬ Registry.NamesSource (w.reply 0) source := by
    intro source hnames
    obtain ⟨metadata, hreply, hrepository⟩ :=
      (Registry.namesSource_iff c.registry m _ _).mp hnames
    exact hunnamed metadata source hreply hrepository
  exact ⟨lookedUp_heard c m a w, nofun, fun _ => ⟨a, haddress, rfl⟩,
    fun _ source hnames => absurd hnames (hnone source), fun _ _ => ⟨rfl, rfl⟩⟩

theorem Resolved.located {r : Except Failure Sources}
    (haddress : Http.Url.ofText (Registry.metadataUrl c.registry.baseUrl m) = .ok a)
    (h : Resolved c m w r v) :
    ∃ lookups packs, w.Heard v (lookups ++ packs) ∧ Located c m .registry w v lookups packs := by
  cases h with
  | unaddressed hfault =>
      rw [haddress] at hfault
      cases hfault
  | unknown address reply =>
      refine ⟨_, _, located_of_unnamed address fun _ _ hok => ?_⟩
      rw [reply] at hok
      cases hok
  | @unnamed _ metadata address reply none =>
      refine ⟨_, _, located_of_unnamed address fun _ source hok hsome => ?_⟩
      rw [reply] at hok
      cases hok
      rw [none] at hsome
      cases hsome
  | @unmade a metadata source _ published directory =>
      have hheard : w.Heard ((beforeClone c m a metadata w).asked (Clone.repositoryUrl source))
          ([Registry.lookup a] ++ []) := (lookedUp_heard c m a w).of_server_eq rfl
      exact ⟨_, _, hheard, published.located_of_unmade directory⟩
  -- In the other three git is asked, and what becomes of the clone sends nothing more.
  | @uncloned a metadata source d _ published directory _ =>
      exact ⟨_, _, (cloned_heard c m a metadata source d w).of_server_eq rfl,
        (published.located directory).mono rfl (List.Subset.refl _)⟩
  | @unlisted a metadata source d _ published directory _ _ =>
      refine ⟨_, _, (cloned_heard c m a metadata source d w).of_server_eq (by simp),
        (published.located directory).mono (by simp) ?_⟩
      rw [World.released_events]
      exact List.Subset.refl _
  | listed published directory _ _ =>
      exact ⟨_, _, cloned_heard c m _ _ _ _ w, published.located directory⟩

/-- Finding sources sends what `Located` says, in this order. -/
theorem find_located (hbase : Http.Url.IsBase c.registry.baseUrl) {r : Except Failure Sources}
    (h : (find c m mode).run w = (r, v)) :
    ∃ lookups packs, w.Heard v (lookups ++ packs) ∧ Located c m mode w v lookups packs := by
  cases mode with
  | directory =>
      rw [find, ofDirectory_run] at h
      cases h
      exact ⟨[], [], .nil rfl, located_of_directory⟩
  | registry =>
      rw [find] at h
      obtain ⟨a, haddress⟩ := Registry.metadataUrl_ok hbase m
      exact (resolved_of_run h).located haddress

end Sources

/-! ## Whole runs -/

namespace Inference

/-- Whether there is something to ask about: sources are found, and all of them can be read. -/
def HasContents (c : Config) (m : ModuleRef) (mode : SourceMode) (w : World) : Prop :=
  ∃ s u files, (Sources.find c m mode).run w = (.ok s, u) ∧ s.files ≠ [] ∧
    u.contents s.files = .ok files

/-- The requests of a run from one world to another. -/
structure Requests (c : Config) (apiKey : String) (m : ModuleRef) (mode : SourceMode)
    (w v : World) (lookups packs posts : List Sent) : Prop
    extends Sources.Located c m mode w v lookups packs where
  /-- This is all that is sent, in this order. -/
  received : v.server.received = w.server.received ++ lookups ++ packs ++ posts
  /-- Redirects are followed only on the way to the replies to these requests. -/
  followed : v.server.followed = w.server.followed ++
    (w.server.detours.take (lookups ++ packs ++ posts).length).flatten
  isPost : ∀ post ∈ posts, Chat.IsPost c.inference apiKey post
  atMostTwo : posts.length ≤ 2
  /-- The chat service is asked only if the clone succeeded. -/
  afterClone : mode = .registry → posts ≠ [] → ∃ d files, Sources.Clones c m w d files
  /-- The chat service is asked exactly if there is something to ask about and the credential
  can stand in a header. -/
  first : posts ≠ [] ↔
    HasContents c m mode w ∧ Http.isHeaderText ("Bearer " ++ apiKey) = true
  /-- It is asked again only if the first reply says that the files are too large and the
  path of one of them ends like that of a file of outputs. -/
  second : posts.length = 2 ↔
    posts ≠ [] ∧ Chat.SaysTooLarge (w.reply (lookups ++ packs).length) ∧
      ∃ s u p, (Sources.find c m mode).run w = (.ok s, u) ∧ p ∈ s.files ∧
        "outputs.tf".toList <:+ (Path.display p).toList

variable {c : Config} {m : ModuleRef} {mode : SourceMode} {u v w : World}
  {lookups packs : List Sent}

theorem not_hasContents_of_error {f : Failure}
    (found : (Sources.find c m mode).run w = (.error f, v)) : ¬ HasContents c m mode w := by
  rintro ⟨s, u, files, hfound, -⟩
  rw [found] at hfound
  cases hfound

theorem not_hasContents_of_nil {s : Sources}
    (found : (Sources.find c m mode).run w = (.ok s, v)) (none : s.files = []) :
    ¬ HasContents c m mode w := by
  rintro ⟨s', u, files, hfound, hsome, -⟩
  rw [found] at hfound
  cases hfound
  exact hsome none

theorem not_hasContents_of_unreadable {s : Sources} {f : Failure}
    (found : (Sources.find c m mode).run w = (.ok s, v)) (contents : v.contents s.files = .error f) :
    ¬ HasContents c m mode w := by
  rintro ⟨s', u, files, hfound, -, hcontents⟩
  rw [found] at hfound
  cases hfound
  rw [contents] at hcontents
  cases hcontents

/-- A run that does not come to the model. -/
theorem requests_of_silent (apiKey : String) (hheard : w.Heard u (lookups ++ packs))
    (hlocated : Sources.Located c m mode w u lookups packs) (hnone : ¬ HasContents c m mode w)
    (hserver : v.server = u.server) (hclones : v.clones = u.clones)
    (hevents : u.events ⊆ v.events) :
    Requests c apiKey m mode w v lookups packs [] where
  toLocated := hlocated.mono hclones hevents
  received := by simp [hserver, hheard.received]
  followed := by simp [hserver, hheard.followed]
  isPost := nofun
  atMostTwo := Nat.zero_le 2
  afterClone := by simp
  first := by simp [hnone]
  second := by simp

/-- The files of outputs are told from their paths. -/
theorem exists_outputsFile_iff {paths : List Path} {files : List SourceFile}
    (h : u.contents paths = .ok files) :
    (∃ f ∈ files, f.isOutputsFile = true) ↔
      ∃ p ∈ paths, outputsFileEnding <:+ (Path.display p).toList := by
  rw [← World.contents_paths h]
  simp [SourceFile.isOutputsFile, SourceFile.displayPath, Path.display]

/-- A run that comes to the model. -/
theorem requests_of_asked (apiKey : String) {s : Sources} {u₀ : World} {files : List SourceFile}
    {r : Except Failure Outcome} (hservice : Http.Url.IsBase c.inference.apiBaseUrl)
    (hheard : w.Heard u₀ (lookups ++ packs))
    (hlocated : Sources.Located c m mode w u₀ lookups packs)
    (found : (Sources.find c m mode).run w = (.ok s, u₀)) (some : s.files ≠ [])
    (contents : u₀.contents s.files = .ok files)
    (asked : (ask (.service c.inference apiKey) c.inference.schemaName files).run
      (u₀.logged [foundFiles s]) = (r, u))
    (hserver : v.server = u.server) (hclones : v.clones = u.clones)
    (hevents : u.events ⊆ v.events) :
    ∃ posts, Requests c apiKey m mode w v lookups packs posts := by
  obtain ⟨address, haddress⟩ := hservice.ofText_append "chat/completions"
  have hendpoint : Http.Url.ofText (Chat.endpoint c.inference) = .ok address := by
    rw [← haddress, Chat.endpoint, String.append_assoc]
    rfl
  obtain ⟨posts, hposts, hisPost, hmost, hfirst, hsecond⟩ :=
    ask_posts hendpoint apiKey c.inference.schemaName files asked
  have hall : w.Heard v (lookups ++ packs ++ posts) :=
    ((hheard.of_server_eq rfl).trans hposts).of_server_eq hserver
  -- The first call gets the reply that comes after those to the look-up and the clone.
  have hreply : (u₀.logged [foundFiles s]).reply 0 = w.reply (lookups ++ packs).length :=
    hheard.reply_eq 0
  have hasked := ask_asked (.service c.inference apiKey) c.inference.schemaName files
    (u₀.logged [foundFiles s])
  rw [asked] at hasked
  have hlogged : u₀.events ⊆ u.events :=
    List.Subset.trans (List.subset_append_left _ _) hasked.events_prefix.subset
  have hmade : u.clones = u₀.clones := by
    obtain ⟨_, _, _, rfl⟩ := hasked.sameFiles (Chat.Model.service_confined c.inference apiKey)
    rfl
  have hcontents : HasContents c m mode w := ⟨s, u₀, files, found, some, contents⟩
  refine ⟨posts, hlocated.mono (hclones.trans hmade) (List.Subset.trans hlogged hevents), ?_,
    hall.followed, hisPost, hmost, ?_, ?_, ?_⟩
  · simp [hall.received]
  · rintro rfl -
    rw [Sources.find] at found
    obtain ⟨d, clone, hcloned, -⟩ := (Sources.resolved_of_run found).exists_clone
    exact ⟨d, clone, hcloned⟩
  · rw [hfirst, and_iff_right hcontents]
  · rw [hsecond, hreply, exists_outputsFile_iff contents]
    refine and_congr_right fun _ => and_congr_right fun _ => ⟨?_, ?_⟩
    · rintro ⟨p, hp, hending⟩
      exact ⟨s, u₀, p, found, hp, hending⟩
    · rintro ⟨s', u', p, hfound, hp, hending⟩
      rw [found] at hfound
      cases hfound
      exact ⟨p, hp, hending⟩

/-- A repository with one file, of outputs. -/
def outputsAlone : List (Location × Entry) :=
  [([Path.ofText "outputs.tf"], .file (Text.utf8 "output \"id\" \x7b\x7d"))]

/-- A world with that repository, in which the service finds the conversation too large at
first, and then gives an answer without outputs. -/
def hesitating : World :=
  .offering outputsAlone .around [
    .document 400 (Text.utf8 "context_length_exceeded"),
    .document 200 (Text.utf8
      "\x7b\"choices\":[\x7b\"message\":\x7b\"content\":\"\x7b\\\"outputs\\\":[]\x7d\"\x7d\x7d]\x7d")]

end Inference

end ModuleOutputs
