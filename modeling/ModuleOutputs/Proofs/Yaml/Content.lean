import ModuleOutputs.Yaml.Shape

/-!
What a document says, and readers against it. A node says the same wherever it stands, whatever
its anchor is, and also through an alias. A text that breaks off says nothing.
-/

namespace ModuleOutputs.Yaml

/-- What a node says. -/
inductive Content where
  | scalar (tag : Option String) (style : ScalarStyle) (text : String)
  | list (items : List Content)
  | mapping (entries : List (Content × Content))

/-- A node, the items of a list or the entries of a mapping, with what they say. -/
inductive Saying where
  | node (n : Node) (c : Content)
  | items (ns : List Node) (cs : List Content)
  | entries (ns : List (Node × Node)) (es : List (Content × Content))

/-- What the nodes of a document say. All of their text is there. -/
inductive Says (d : Document) : Saying → Prop
  | scalar {n : Node} {mark : Mark} {anchor : Option Nat} {tag : Option String}
      {style : ScalarStyle} {text : String}
      (resolved : d.resolve n = .scalar mark anchor tag style text) :
      Says d (.node n (.scalar tag style text))
  | list {n : Node} {mark : Mark} {anchor : Option Nat} {ns : List Node} {cs : List Content}
      (resolved : d.resolve n = .list mark anchor ns true) (items : Says d (.items ns cs)) :
      Says d (.node n (.list cs))
  | mapping {n : Node} {mark : Mark} {anchor : Option Nat} {ns : List (Node × Node)}
      {es : List (Content × Content)} (resolved : d.resolve n = .mapping mark anchor ns true)
      (entries : Says d (.entries ns es)) : Says d (.node n (.mapping es))
  | noItems : Says d (.items [] [])
  | moreItems {n : Node} {c : Content} {ns : List Node} {cs : List Content}
      (first : Says d (.node n c)) (next : Says d (.items ns cs)) :
      Says d (.items (n :: ns) (c :: cs))
  | noEntries : Says d (.entries [] [])
  | moreEntries {k v : Node} {key value : Content} {ns : List (Node × Node)}
      {es : List (Content × Content)} (first : Says d (.node k key))
      (given : Says d (.node v value)) (next : Says d (.entries ns es)) :
      Says d (.entries ((k, v) :: ns) ((key, value) :: es))

/-- Whether a text is one document, which says this. -/
def TextSays (text : String) (c : Content) : Prop :=
  ∃ n, Document.ofText text = ⟨some n, true⟩ ∧ Says ⟨some n, true⟩ (.node n c)

/-- Whether the text of what says something is all there. -/
def Saying.IsComplete : Saying → Prop
  | .node n _ => n.isComplete = true
  | .items ns _ => Node.areComplete ns = true
  | .entries ns _ => Node.entriesComplete ns = true

variable {d : Document} {way : Way} {α β : Type}

/-- An alias is there, whatever it stands for. -/
theorem isComplete_of_resolve {n : Node} (h : (d.resolve n).isComplete = true) :
    n.isComplete = true := by
  match n, h with
  | .alias _, _ => rfl
  | .scalar .., h | .list .., h | .mapping .., h | .broken, h => exact h

theorem Says.isComplete {s : Saying} (h : Says d s) : s.IsComplete := by
  induction h with
  | scalar resolved => exact isComplete_of_resolve (by rw [resolved]; rfl)
  | list resolved _ ih => exact isComplete_of_resolve (by rw [resolved]; exact ih)
  | mapping resolved _ ih => exact isComplete_of_resolve (by rw [resolved]; exact ih)
  | noItems | noEntries => rfl
  | moreItems _ _ first next => exact Bool.and_eq_true_iff.mpr ⟨first, next⟩
  | moreEntries _ _ _ first given next =>
      exact Bool.and_eq_true_iff.mpr ⟨Bool.and_eq_true_iff.mpr ⟨first, given⟩, next⟩

/-! ## Finding out what is said -/

namespace Document

mutual

/-- Whether a node says this, found out along what it is to say. -/
def tells (d : Document) : Content → Node → Bool
  | .scalar tag style text, n =>
    match d.resolve n with
    | .scalar _ _ tag' style' text' => tag = tag' && style = style' && text = text'
    | _ => false
  | .list cs, n =>
    match d.resolve n with
    | .list _ _ ns true => d.tellsItems cs ns
    | _ => false
  | .mapping es, n =>
    match d.resolve n with
    | .mapping _ _ ns true => d.tellsEntries es ns
    | _ => false

def tellsItems (d : Document) : List Content → List Node → Bool
  | [], [] => true
  | c :: cs, n :: ns => d.tells c n && d.tellsItems cs ns
  | _, _ => false

def tellsEntries (d : Document) : List (Content × Content) → List (Node × Node) → Bool
  | [], [] => true
  | (key, value) :: es, (k, v) :: ns => d.tells key k && d.tells value v && d.tellsEntries es ns
  | _, _ => false

end

end Document

/-- Whether something is found to be said. -/
def Saying.isFound (d : Document) : Saying → Bool
  | .node n c => d.tells c n
  | .items ns cs => d.tellsItems cs ns
  | .entries ns es => d.tellsEntries es ns

namespace Says

theorem isFound {s : Saying} (h : Says d s) : s.isFound d = true := by
  induction h with
  | scalar resolved => simp [Saying.isFound, Document.tells, resolved]
  | list resolved _ ih => simpa [Saying.isFound, Document.tells, resolved] using ih
  | mapping resolved _ ih => simpa [Saying.isFound, Document.tells, resolved] using ih
  | noItems | noEntries => rfl
  | moreItems _ _ first next => exact Bool.and_eq_true_iff.mpr ⟨first, next⟩
  | moreEntries _ _ _ first given next =>
      exact Bool.and_eq_true_iff.mpr ⟨Bool.and_eq_true_iff.mpr ⟨first, given⟩, next⟩

mutual

theorem of_tells {c : Content} {n : Node} (h : d.tells c n = true) : Says d (.node n c) := by
  cases c with
  | scalar tag style text =>
      unfold Document.tells at h
      split at h
      · next resolved =>
          simp only [Bool.and_eq_true, decide_eq_true_eq] at h
          obtain ⟨⟨rfl, rfl⟩, rfl⟩ := h
          exact .scalar resolved
      · cases h
  | list cs =>
      unfold Document.tells at h
      split at h
      · next resolved => exact .list resolved (of_tellsItems h)
      · cases h
  | mapping es =>
      unfold Document.tells at h
      split at h
      · next resolved => exact .mapping resolved (of_tellsEntries h)
      · cases h

theorem of_tellsItems {cs : List Content} {ns : List Node}
    (h : d.tellsItems cs ns = true) : Says d (.items ns cs) := by
  match cs, ns, h with
  | [], [], _ => exact .noItems
  | c :: cs, n :: ns, h =>
      obtain ⟨hfirst, hnext⟩ := Bool.and_eq_true_iff.mp h
      exact .moreItems (of_tells hfirst) (of_tellsItems hnext)

theorem of_tellsEntries {es : List (Content × Content)} {ns : List (Node × Node)}
    (h : d.tellsEntries es ns = true) : Says d (.entries ns es) := by
  match es, ns, h with
  | [], [], _ => exact .noEntries
  | (key, value) :: es, (k, v) :: ns, h =>
      obtain ⟨hfirst, hnext⟩ := Bool.and_eq_true_iff.mp h
      obtain ⟨hkey, hvalue⟩ := Bool.and_eq_true_iff.mp hfirst
      exact .moreEntries (of_tells hkey) (of_tells hvalue) (of_tellsEntries hnext)

end

end Says

theorem textSays_iff {text : String} {c : Content} : TextSays text c ↔
    (match Document.ofText text with
      | ⟨some n, true⟩ => Document.tells ⟨some n, true⟩ c n
      | _ => false) = true := by
  unfold TextSays
  constructor
  · rintro ⟨n, hdocument, hsaid⟩
    rw [hdocument]
    exact hsaid.isFound
  · intro h
    split at h
    · next n hdocument => exact ⟨n, hdocument, Says.of_tells h⟩
    · cases h

instance (text : String) (c : Content) : Decidable (TextSays text c) :=
  decidable_of_iff _ textSays_iff.symm

/-! ## Readers -/

/-- Whether a reader makes of a node what `means` makes of what the node says, and fails where
that is nothing. -/
structure Reads (read : Reader α) (means : Content → Option α) : Prop where
  toOption_eq {d : Document} {way : Way} {n : Node} {c : Content} (h : Says d (.node n c)) :
    (read d way n).toOption = means c

theorem toOption_bind {ε : Type} (x : Except ε α) (f : α → Except ε β) :
    (x >>= f).toOption = x.toOption.bind fun a => (f a).toOption := by
  cases x <;> rfl

theorem toOption_map {ε : Type} (x : Except ε α) (f : α → β) :
    (x.map f).toOption = x.toOption.map f := by
  cases x <;> rfl

namespace Content

/-- The text of a scalar. Any scalar is a text. -/
def text? : Content → Option String
  | .scalar _ _ text => some text
  | _ => none

def isMapping : Content → Bool
  | .mapping _ => true
  | _ => false

/-- The entries of a mapping. -/
def entries : Content → List (Content × Content)
  | .mapping es => es
  | _ => []

/-- The truth value that a scalar spells, if it may stand for one. -/
def flag? : Content → Option Bool
  | .scalar tag style text => if mayStandFor "bool" tag style then boolean? text else none
  | _ => none

/-- The number of sixty-four bits that a scalar spells, if it may stand for one. -/
def natural? : Content → Option Nat
  | .scalar tag style text =>
    if mayStandFor "int" tag style then (integer? .unsigned64 text.toList).map Int.toNat else none
  | _ => none

/-- The items of a list. What is not written is the empty list. -/
def list? (means : Content → Option α) : Content → Option (List α)
  | .list cs => cs.mapM means
  | .scalar _ style text => if style = .plain ∧ text = "" then some [] else none
  | .mapping _ => none

theorem exists_of_isMapping {c : Content} (h : c.isMapping = true) : ∃ es, c = .mapping es := by
  cases c with
  | mapping es => exact ⟨es, rfl⟩
  | _ => cases h

end Content

theorem readText_reads (expected : String) : Reads (readText expected) Content.text? := by
  refine ⟨fun {d way n c} h => ?_⟩
  unfold readText
  cases h with
  | scalar resolved | list resolved | mapping resolved =>
      rw [resolved]
      rfl

theorem readBoolean_reads : Reads readBoolean Content.flag? := by
  refine ⟨fun {d way n c} h => ?_⟩
  unfold readBoolean
  cases h with
  | scalar resolved =>
      rw [resolved, Content.flag?]
      dsimp only
      split
      · next hb => exact hb.symm
      · next hb => exact hb.symm
  | list resolved | mapping resolved =>
      rw [resolved]
      rfl

theorem readNatural_reads (expected : String) : Reads (readNatural expected) Content.natural? := by
  refine ⟨fun {d way n c} h => ?_⟩
  unfold readNatural
  cases h with
  | @scalar _ _ _ tag style text resolved =>
      rw [resolved, Content.natural?]
      dsimp only
      cases mayStandFor "int" tag style with
      | false => rfl
      | true => cases integer? .unsigned64 text.toList <;> rfl
  | list resolved | mapping resolved =>
      rw [resolved]
      rfl

theorem toOption_readItems {read : Reader α} {means : Content → Option α} (h : Reads read means)
    {ns : List Node} {cs : List Content} (hs : Says d (.items ns cs)) (index : Nat) :
    (readItems read d way index ns).toOption = cs.mapM means := by
  induction ns generalizing cs index with
  | nil =>
      cases hs
      rfl
  | cons n ns ih =>
      cases hs with
      | moreItems first next =>
          rw [readItems, toOption_bind, h.toOption_eq first, List.mapM_cons]
          refine congrArg _ (funext fun a => ?_)
          rw [toOption_bind, ih next]
          rfl

theorem readList_reads {read : Reader α} {means : Content → Option α} (h : Reads read means) :
    Reads (readList read) (Content.list? means) := by
  refine ⟨fun {d way n c} hs => ?_⟩
  unfold readList
  cases hs with
  | scalar resolved =>
      rw [resolved, Content.list?]
      split
      · next heq => cases heq
      · next heq =>
          cases heq
          rw [if_pos ⟨rfl, rfl⟩]
          rfl
      · next hother =>
          rw [if_neg]
          · rfl
          · rintro ⟨rfl, rfl⟩
            exact hother _ _ _ rfl
  | list resolved items =>
      rw [resolved]
      dsimp only
      rw [toOption_bind, toOption_readItems h items]
      exact Option.bind_fun_some _
  | mapping resolved =>
      rw [resolved]
      rfl

end ModuleOutputs.Yaml
