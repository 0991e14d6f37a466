import ModuleOutputs.Json.Tree
import ModuleOutputs.Proofs.Json.Unambiguous

/-!
Printing, against the grammar. Both written forms of a tree are documents of the value that
the tree stands for, and a value stands for one tree at most. So a text that was printed is
parsed as the tree it was printed from, and as no other.
-/

namespace ModuleOutputs.Json

open Text (Piece)

/-! ## Escapes -/

theorem hexValue?_hexDigit : ∀ n < 16, hexValue? (hexDigit n) = some n := by
  decide

/-- A character in a string is escaped by a letter, escaped by its code, or bare. -/
theorem escapeChar_cases (c : Char) :
    (∃ d, shortEscape? d = some c ∧ escapeChar c = ['\\', d]) ∨
      (c.toNat < 0x20 ∧ escapeChar c =
        ['\\', 'u', '0', '0', hexDigit (c.toNat / 16), hexDigit (c.toNat % 16)]) ∨
      (c ≠ '"' ∧ c ≠ '\\' ∧ 0x20 ≤ c.toNat ∧ escapeChar c = [c]) := by
  by_cases hquote : c = '"'
  · subst hquote
    exact .inl ⟨'"', rfl, rfl⟩
  by_cases hbackslash : c = '\\'
  · subst hbackslash
    exact .inl ⟨'\\', rfl, rfl⟩
  by_cases hline : c = '\n'
  · subst hline
    exact .inl ⟨'n', rfl, rfl⟩
  by_cases hreturn : c = '\r'
  · subst hreturn
    exact .inl ⟨'r', rfl, rfl⟩
  by_cases htab : c = '\t'
  · subst htab
    exact .inl ⟨'t', rfl, rfl⟩
  by_cases hback : c = '\x08'
  · subst hback
    exact .inl ⟨'b', rfl, rfl⟩
  by_cases hfeed : c = '\x0c'
  · subst hfeed
    exact .inl ⟨'f', rfl, rfl⟩
  unfold escapeChar
  by_cases hcontrol : c.toNat < 0x20
  · exact .inr (.inl ⟨hcontrol, by simp [*]⟩)
  · exact .inr (.inr ⟨hquote, hbackslash, Nat.le_of_not_lt hcontrol, by simp [*]⟩)

/-- The code units of a text. -/
def unitsOfText (s : String) : Units :=
  s.toList.flatMap unitsOf

theorem hexDigits?_code {n : Nat} (h : n < 0x20) :
    hexDigits? (['0', '0', hexDigit (n / 16), hexDigit (n % 16)].map .char) = some n := by
  have hzero : hexValue? '0' = some 0 := rfl
  have hhigh := hexValue?_hexDigit (n / 16) (by omega)
  have hlow := hexValue?_hexDigit (n % 16) (by omega)
  simp [hexDigits?, Piece.char?, hzero, hhigh, hlow]
  omega

/-- An escaped character spells itself. -/
theorem SpellsString.escapeChar {us : Units} {ps rest : List Piece} (c : Char)
    (next : SpellsString us ps rest) :
    SpellsString (unitsOf c ++ us) ((escapeChar c).map .char ++ ps) rest := by
  rcases escapeChar_cases c with ⟨d, hd, heq⟩ | ⟨hcontrol, heq⟩ | ⟨hquote, hbackslash, hplain, heq⟩
  · rw [heq]
    exact .short hd next
  · have hunits : unitsOf c = [some c.toNat] := if_pos (by omega)
    rw [heq, hunits]
    exact .code rfl (hexDigits?_code hcontrol) rfl next
  · rw [heq]
    exact .plain hquote hbackslash (by simp [isControl]; omega) next

theorem spellsString_quote (s : String) (rest : List Piece) :
    SpellsString (unitsOfText s)
      ((s.toList.flatMap escapeChar ++ ['"']).map .char ++ rest) rest := by
  unfold unitsOfText
  induction s.toList with
  | nil => exact .close
  | cons c cs ih =>
      have hc := ih.escapeChar c
      simpa using hc

/-! ## Values -/

mutual

/-- The value that a tree stands for. -/
def value : Json → Value
  | .null => .null
  | .flag b => .flag b
  | .text s => .text (unitsOfText s)
  | .list items => .list (values items)
  | .object members => .object (memberValues members)

def values : List Json → List Value
  | [] => []
  | v :: rest => value v :: values rest

def memberValues : List (String × Json) → List (Units × Value)
  | [] => []
  | (k, v) :: rest => (unitsOfText k, value v) :: memberValues rest

end

theorem unitsOfText_text? (s : String) : (unitsOfText s).text? = some s := by
  have hchars : ∀ cs : List Char, Units.chars? (cs.flatMap unitsOf) = some cs := by
    intro cs
    induction cs with
    | nil => rfl
    | cons c cs ih =>
        rw [List.flatMap_cons]
        exact Units.chars?_unitsOf_append.mpr ⟨cs, ih, rfl⟩
  unfold unitsOfText Units.text?
  rw [hchars, Option.map_some, String.ofList_toList]

theorem unitsOfText_inj {s s' : String} (h : unitsOfText s = unitsOfText s') : s = s' := by
  have htext := unitsOfText_text? s
  rw [h, unitsOfText_text?] at htext
  exact (Option.some.inj htext).symm

mutual

theorem value_inj : ∀ {v v' : Json}, v.value = v'.value → v = v'
  | .null, .null, _ => rfl
  | .flag b, .flag b', h => by
      simp only [value, Value.flag.injEq] at h
      rw [h]
  | .text s, .text s', h => by
      simp only [value, Value.text.injEq] at h
      rw [unitsOfText_inj h]
  | .list items, .list items', h => by
      simp only [value, Value.list.injEq] at h
      rw [values_inj h]
  | .object ms, .object ms', h => by
      simp only [value, Value.object.injEq] at h
      rw [memberValues_inj h]

theorem values_inj : ∀ {vs vs' : List Json}, values vs = values vs' → vs = vs'
  | [], [], _ => rfl
  | v :: vs, v' :: vs', h => by
      simp only [values, List.cons.injEq] at h
      rw [value_inj h.1, values_inj h.2]

theorem memberValues_inj :
    ∀ {ms ms' : List (String × Json)}, memberValues ms = memberValues ms' → ms = ms'
  | [], [], _ => rfl
  | (k, v) :: ms, (k', v') :: ms', h => by
      simp only [memberValues, List.cons.injEq, Prod.mk.injEq] at h
      rw [unitsOfText_inj h.1.1, value_inj h.1.2, memberValues_inj h.2]

end

/-! ## Layouts -/

/-- Whether characters are a phrase, whatever follows them. -/
def Writes (phrase : Phrase) (cs : List Char) : Prop :=
  ∀ rest, Spells phrase (cs.map .char ++ rest) rest

/-- Whether characters are white space between words. -/
def IsBlank (cs : List Char) : Prop :=
  ∀ c ∈ cs, isSpace (.char c) = true

theorem IsBlank.append {cs cs' : List Char} (h : IsBlank cs) (h' : IsBlank cs') :
    IsBlank (cs ++ cs') := by
  intro c hc
  rcases List.mem_append.mp hc with hc | hc
  · exact h c hc
  · exact h' c hc

theorem skipSpace_append {cs : List Char} (h : IsBlank cs) (ps : List Piece) :
    skipSpace (cs.map .char ++ ps) = skipSpace ps := by
  unfold skipSpace
  rw [List.dropWhile_append_of_pos]
  intro p hp
  obtain ⟨c, hc, rfl⟩ := List.mem_map.mp hp
  exact h c hc

theorem isSpace_of_isDigit {p : Piece} (h : isDigit p = true) : isSpace p = false := by
  cases p with
  | stray bytes => rfl
  | char c =>
      by_contra hspace
      simp only [isSpace, Bool.not_eq_false, Bool.or_eq_true, beq_iff_eq] at hspace
      rcases hspace with ((rfl | rfl) | rfl) | rfl <;> cases h

/-- No value begins with white space. -/
theorem Spells.skipSpace_eq {v : Value} {ps rest : List Piece} (h : Spells (.value v) ps rest) :
    skipSpace ps = ps := by
  cases h with
  | number isNumber split =>
      obtain ⟨p, word, rfl, hp⟩ := isNumber.exists_cons
      subst split
      rcases hp with hp | rfl
      · exact skipSpace_of_notSpace (isSpace_of_isDigit hp)
      · exact skipSpace_of_notSpace rfl
  | _ => exact skipSpace_of_notSpace rfl

/-- Whether characters are one part of a container, whatever white space stands before them. -/
def WritesPart (part : List Piece → List Piece → Prop) (cs : List Char) : Prop :=
  ∀ front rest, IsBlank front → part ((front ++ cs).map .char ++ rest) rest

/-- Whether pieces are an item, behind white space. -/
def SpellsItem (v : Value) (ps rest : List Piece) : Prop :=
  Spells (.value v) (skipSpace ps) rest

theorem Writes.item {v : Value} {cs : List Char} (h : Writes (.value v) cs) :
    WritesPart (SpellsItem v) cs := by
  intro front rest hfront
  unfold SpellsItem
  rw [List.map_append, List.append_assoc, skipSpace_append hfront, (h rest).skipSpace_eq]
  exact h rest

theorem skipSpace_append_notSpace {cs : List Char} (h : IsBlank cs) {c : Char}
    (hc : isSpace (.char c) = false) (ps : List Piece) :
    skipSpace (cs.map .char ++ .char c :: ps) = .char c :: ps := by
  rw [skipSpace_append h, skipSpace_of_notSpace hc]

section

variable {front between back : List Char} (hbetween : IsBlank between) (hback : IsBlank back)
include hbetween hback

/-- Parts with commas between them and any white space, up to the end of their container: the
items of a list and the members of an object alike. -/
theorem spells_joined {α : Type} (part : α → List Piece → List Piece → Prop)
    (parts : List α → List Piece → List Piece → Prop) {closing : Char}
    (hclosing : isSpace (.char closing) = false)
    (last : ∀ {a ps ps' rest}, part a ps ps' → skipSpace ps' = .char closing :: rest →
      parts [a] ps rest)
    (more : ∀ {a as ps ps' ps'' rest}, part a ps ps' → skipSpace ps' = .char ',' :: ps'' →
      parts as ps'' rest → parts (a :: as) ps rest)
    {as : List α} {css : List (List Char)}
    (h : List.Forall₂ (fun a cs => WritesPart (part a) cs) as css) (hsome : as ≠ [])
    (hfront : IsBlank front) (rest : List Piece) :
    parts as ((front ++ joinWith (',' :: between) css ++ back ++ [closing]).map .char ++ rest)
      rest := by
  induction h generalizing front with
  | nil => exact absurd rfl hsome
  | @cons a cs as css ha hrest ih =>
      cases hrest with
      | nil =>
          have hfirst : part a ((front ++ cs ++ back ++ [closing]).map .char ++ rest)
              ((back ++ [closing]).map .char ++ rest) := by
            simpa using ha front _ hfront
          have hclose : skipSpace ((back ++ [closing]).map .char ++ rest) =
              .char closing :: rest := by
            simpa using skipSpace_append_notSpace hback hclosing rest
          exact last hfirst hclose
      | @cons a' cs' as css ha' hrest =>
          have hnext := ih (List.cons_ne_nil _ _) hbetween
          have hfirst : part a
              ((front ++ joinWith (',' :: between) (cs :: cs' :: css) ++ back ++
                [closing]).map .char ++ rest)
              (.char ',' :: ((between ++ joinWith (',' :: between) (cs' :: css) ++ back ++
                [closing]).map .char ++ rest)) := by
            simpa [joinWith] using ha front _ hfront
          exact more hfirst (skipSpace_of_notSpace rfl) hnext

theorem writes_list {vs : List Value} {css : List (List Char)}
    (h : List.Forall₂ (fun v cs => WritesPart (SpellsItem v) cs) vs css) (hfront : IsBlank front) :
    Writes (.value (.list vs))
      ('[' :: (front ++ joinWith (',' :: between) css ++ back ++ [']'])) := by
  intro rest
  cases h with
  | nil =>
      have hclose : skipSpace ((front ++ [] ++ back ++ [']']).map .char ++ rest) =
          .char ']' :: rest := by
        simpa using skipSpace_append_notSpace (hfront.append hback) rfl rest
      exact .emptyList hclose
  | cons hv hrest =>
      apply Spells.list
      exact spells_joined hbetween hback SpellsItem (Spells <| .items ·) rfl Spells.lastItem
        Spells.moreItems (.cons hv hrest) (List.cons_ne_nil _ _) hfront rest

theorem writes_object {ms : List (Units × Value)} {css : List (List Char)}
    (h : List.Forall₂ (fun m cs => WritesPart (Spells (.member m.1 m.2)) cs) ms css)
    (hfront : IsBlank front) :
    Writes (.value (.object ms))
      ('\x7b' :: (front ++ joinWith (',' :: between) css ++ back ++ ['\x7d'])) := by
  intro rest
  cases h with
  | nil =>
      have hclose : skipSpace ((front ++ [] ++ back ++ ['\x7d']).map .char ++ rest) =
          .char '\x7d' :: rest := by
        simpa using skipSpace_append_notSpace (hfront.append hback) rfl rest
      exact .emptyObject hclose
  | cons hm hrest =>
      apply Spells.object
      exact spells_joined hbetween hback (fun m => Spells (.member m.1 m.2))
        (Spells <| .members ·) rfl Spells.lastMember Spells.moreMembers (.cons hm hrest)
        (List.cons_ne_nil _ _) hfront rest

end

theorem writes_text (s : String) : Writes (.value (.text (unitsOfText s))) (quote s) := by
  intro rest
  exact .text (spellsString_quote s rest)

theorem writes_member {gap cs : List Char} (hgap : IsBlank gap) {v : Value}
    (h : Writes (.value v) cs) (k : String) :
    WritesPart (Spells (.member (unitsOfText k) v)) (quote k ++ ':' :: (gap ++ cs)) := by
  intro front rest hfront
  have hopening : skipSpace ((front ++ (quote k ++ ':' :: (gap ++ cs))).map .char ++ rest) =
      .char '"' :: ((k.toList.flatMap escapeChar ++ ['"']).map .char ++
        .char ':' :: ((gap ++ cs).map .char ++ rest)) := by
    simpa [quote] using skipSpace_append_notSpace hfront rfl _
  exact .member hopening (spellsString_quote k _) (skipSpace_of_notSpace rfl) (h.item gap rest hgap)

/-! ## The written forms -/

theorem isBlank_nil : IsBlank [] := nofun

theorem isBlank_space : IsBlank [' '] := by
  simp [IsBlank, isSpace]

theorem isBlank_newline (level : Nat) : IsBlank (newline level) := by
  intro c hc
  rcases List.mem_cons.mp hc with rfl | hc
  · rfl
  · rw [List.eq_of_mem_replicate hc]
    rfl

mutual

theorem writes_compact : ∀ v : Json, Writes (.value v.value) v.compactChars
  | .null => fun _ => .null
  | .flag true => fun _ => .yes
  | .flag false => fun _ => .no
  | .text s => writes_text s
  | .list items => by
      have h := writes_list isBlank_nil isBlank_nil (writes_compactItems items) isBlank_nil
      simpa [value, compactChars] using h
  | .object members => by
      have h := writes_object isBlank_nil isBlank_nil (writes_compactMembers members) isBlank_nil
      simpa [value, compactChars] using h

theorem writes_compactItems : ∀ items : List Json,
    List.Forall₂ (fun v cs => WritesPart (SpellsItem v) cs) (values items) (compactItems items)
  | [] => .nil
  | v :: rest => .cons (writes_compact v).item (writes_compactItems rest)

theorem writes_compactMembers : ∀ members : List (String × Json),
    List.Forall₂ (fun m cs => WritesPart (Spells (.member m.1 m.2)) cs)
      (memberValues members) (compactMembers members)
  | [] => .nil
  | (k, v) :: rest =>
      .cons (writes_member isBlank_nil (writes_compact v) k) (writes_compactMembers rest)

end

mutual

theorem writes_pretty : ∀ (level : Nat) (v : Json), Writes (.value v.value) (v.prettyChars level)
  | _, .null => fun _ => .null
  | _, .flag true => fun _ => .yes
  | _, .flag false => fun _ => .no
  | _, .text s => writes_text s
  | _, .list [] => writes_list isBlank_nil isBlank_nil .nil isBlank_nil
  | level, .list (v :: rest) => by
      have h := writes_list (isBlank_newline (level + 1)) (isBlank_newline level)
        (writes_prettyItems (level + 1) (v :: rest)) (isBlank_newline (level + 1))
      simpa only [value, prettyChars] using h
  | _, .object [] => writes_object isBlank_nil isBlank_nil .nil isBlank_nil
  | level, .object (m :: rest) => by
      have h := writes_object (isBlank_newline (level + 1)) (isBlank_newline level)
        (writes_prettyMembers (level + 1) (m :: rest)) (isBlank_newline (level + 1))
      simpa only [value, prettyChars] using h

theorem writes_prettyItems : ∀ (level : Nat) (items : List Json),
    List.Forall₂ (fun v cs => WritesPart (SpellsItem v) cs) (values items) (prettyItems level items)
  | _, [] => .nil
  | level, v :: rest => .cons (writes_pretty level v).item (writes_prettyItems level rest)

theorem writes_prettyMembers : ∀ (level : Nat) (members : List (String × Json)),
    List.Forall₂ (fun m cs => WritesPart (Spells (.member m.1 m.2)) cs)
      (memberValues members) (prettyMembers level members)
  | _, [] => .nil
  | level, (k, v) :: rest =>
      .cons (writes_member isBlank_space (writes_pretty level v) k)
        (writes_prettyMembers level rest)

end

/-! ## Texts -/

/-- Whether a text is parsed as a tree: it is one value, the one that the tree stands for. -/
def Parses (text : String) (tree : Json) : Prop :=
  IsDocument tree.value (Text.piecesOf text)

theorem Parses.unique {text : String} {tree tree' : Json} (h : Parses text tree)
    (h' : Parses text tree') : tree' = tree :=
  value_inj (IsDocument.unique h h')

theorem Writes.isDocument {v : Value} {cs : List Char} (h : Writes (.value v) cs) :
    IsDocument v (Text.piecesOf (String.ofList cs)) := by
  refine ⟨[], ?_, rfl⟩
  have hspells := h []
  rw [List.append_nil] at hspells
  unfold Text.piecesOf
  rw [String.toList_ofList, hspells.skipSpace_eq]
  exact hspells

theorem parses_compact (v : Json) : Parses v.compact v :=
  (writes_compact v).isDocument

theorem parses_pretty (v : Json) : Parses v.pretty v :=
  (writes_pretty 0 v).isDocument

/-- The compact form of a tree is parsed as the tree, and as no other. -/
theorem parses_compact_iff {v tree : Json} : Parses v.compact tree ↔ tree = v := by
  constructor
  · intro h
    exact (parses_compact v).unique h
  · intro h
    subst h
    exact parses_compact tree

theorem parses_pretty_iff {v tree : Json} : Parses v.pretty tree ↔ tree = v := by
  constructor
  · intro h
    exact (parses_pretty v).unique h
  · intro h
    subst h
    exact parses_pretty tree

end ModuleOutputs.Json
