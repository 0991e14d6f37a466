import ModuleOutputs.Proofs.Json.Printing

/-!
White space between words. A text without the white space that stands outside of its strings
is found by going through it once, with an eye on where strings begin and end; the indented
form of a tree becomes the compact one in that way.
-/

namespace ModuleOutputs.Json

/-- Where in a text a character stands. -/
inductive Zone where
  | outside
  | inside
  /-- In a string, behind a backslash. -/
  | escaped
deriving Repr, DecidableEq

/-- Where the next character stands. -/
def Zone.next : Zone → Char → Zone
  | .outside, c => if c = '"' then .inside else .outside
  | .inside, c => if c = '"' then .outside else if c = '\\' then .escaped else .inside
  | .escaped, _ => .inside

def withoutSpaceFrom (zone : Zone) : List Char → List Char
  | [] => []
  | c :: cs =>
    if zone = .outside ∧ isSpace (.char c) = true then withoutSpaceFrom zone cs
    else c :: withoutSpaceFrom (zone.next c) cs

/-- A text without the white space that stands outside of its strings. -/
def withoutSpace (text : String) : String :=
  String.ofList (withoutSpaceFrom .outside text.toList)

/-! ## Words -/

/-- Whether a character stays outside of strings, and begins none. -/
def isPlain (c : Char) : Bool :=
  !isSpace (.char c) && c != '"'

/-- Whether characters outside of strings become others, whatever follows them. -/
def Squeezes (cs cs' : List Char) : Prop :=
  ∀ rest, withoutSpaceFrom .outside (cs ++ rest) = cs' ++ withoutSpaceFrom .outside rest

namespace Squeezes

variable {as as' bs bs' : List Char}

theorem nil : Squeezes [] [] := fun _ => rfl

theorem append (h : Squeezes as as') (h' : Squeezes bs bs') : Squeezes (as ++ bs) (as' ++ bs') := by
  intro rest
  rw [List.append_assoc, h, h', List.append_assoc]

theorem blank (h : IsBlank as) : Squeezes as [] := by
  intro rest
  induction as with
  | nil => rfl
  | cons c as ih =>
      obtain ⟨hc, has⟩ := List.forall_mem_cons.mp h
      simp [withoutSpaceFrom, hc, ih has]

theorem plain (h : as.all isPlain = true) : Squeezes as as := by
  intro rest
  induction as with
  | nil => rfl
  | cons c as ih =>
      rw [List.all_cons, Bool.and_eq_true] at h
      obtain ⟨hspace, hquote⟩ : isSpace (.char c) = false ∧ c ≠ '"' := by
        simpa [isPlain] using h.1
      simp [withoutSpaceFrom, Zone.next, hspace, hquote, ih h.2]

end Squeezes

/-! ## Strings -/

theorem hexDigit_inside : ∀ n < 16, Zone.next .inside (hexDigit n) = .inside := by
  decide

theorem withoutSpaceFrom_next {zone : Zone} (h : zone ≠ .outside) (c : Char) (rest : List Char) :
    withoutSpaceFrom zone (c :: rest) = c :: withoutSpaceFrom (zone.next c) rest := by
  simp [withoutSpaceFrom, h]

theorem withoutSpaceFrom_inside {c : Char} (h : Zone.next .inside c = .inside) (rest : List Char) :
    withoutSpaceFrom .inside (c :: rest) = c :: withoutSpaceFrom .inside rest := by
  rw [withoutSpaceFrom_next (by decide), h]

/-- A backslash and the character behind it stay, whatever that is. -/
theorem withoutSpaceFrom_backslash (c : Char) (rest : List Char) :
    withoutSpaceFrom .inside ('\\' :: c :: rest) =
      '\\' :: c :: withoutSpaceFrom .inside rest := by
  rw [withoutSpaceFrom_next (by decide)]
  exact congrArg _ (withoutSpaceFrom_next (by decide) c rest)

/-- An escaped character stays, and the string goes on behind it. -/
theorem withoutSpaceFrom_escapeChar (c : Char) (rest : List Char) :
    withoutSpaceFrom .inside (escapeChar c ++ rest) =
      escapeChar c ++ withoutSpaceFrom .inside rest := by
  rcases escapeChar_cases c with ⟨d, -, heq⟩ | ⟨hcontrol, heq⟩ | ⟨hquote, hbackslash, -, heq⟩
  · rw [heq]
    exact withoutSpaceFrom_backslash d rest
  · have hhigh := hexDigit_inside (c.toNat / 16) (by omega)
    have hlow := hexDigit_inside (c.toNat % 16) (by omega)
    simp only [heq, List.cons_append, List.nil_append]
    rw [withoutSpaceFrom_backslash, withoutSpaceFrom_inside rfl, withoutSpaceFrom_inside rfl,
      withoutSpaceFrom_inside hhigh, withoutSpaceFrom_inside hlow]
  · rw [heq]
    exact withoutSpaceFrom_inside (by simp [Zone.next, hquote, hbackslash]) rest

theorem Squeezes.quote (s : String) : Squeezes (quote s) (quote s) := by
  intro rest
  have hbody : ∀ cs : List Char, withoutSpaceFrom .inside (cs.flatMap escapeChar ++ '"' :: rest) =
      cs.flatMap escapeChar ++ '"' :: withoutSpaceFrom .outside rest := by
    intro cs
    induction cs with
    | nil => simp [withoutSpaceFrom, Zone.next]
    | cons c cs ih =>
        rw [List.flatMap_cons, List.append_assoc, withoutSpaceFrom_escapeChar, ih,
          List.append_assoc]
  have hopening : isSpace (.char '"') = false := rfl
  simp [Json.quote, withoutSpaceFrom, Zone.next, hopening, hbody]

/-! ## Containers -/

theorem Squeezes.joinWith {between : List Char} (hbetween : IsBlank between)
    {css css' : List (List Char)} (h : List.Forall₂ Squeezes css css') :
    Squeezes (joinWith (',' :: between) css) (joinWith [','] css') := by
  induction h with
  | nil => exact .nil
  | @cons cs cs' css css' hcs hrest ih =>
      cases hrest with
      | nil => exact hcs
      | cons _ _ =>
          have hcomma : Squeezes [','] [','] := .plain (by decide)
          have hseparator := hcomma.append (.blank hbetween)
          have h := (hcs.append hseparator).append ih
          simpa [Json.joinWith] using h

theorem Squeezes.enclosed {opening closing : Char} {front between back : List Char}
    (hopening : isPlain opening = true) (hclosing : isPlain closing = true)
    (hfront : IsBlank front) (hbetween : IsBlank between) (hback : IsBlank back)
    {css css' : List (List Char)} (h : List.Forall₂ Squeezes css css') :
    Squeezes (opening :: (front ++ Json.joinWith (',' :: between) css ++ back ++ [closing]))
      (opening :: (Json.joinWith [','] css' ++ [closing])) := by
  have hopens : Squeezes [opening] [opening] := .plain (by simpa using hopening)
  have hcloses : Squeezes [closing] [closing] := .plain (by simpa using hclosing)
  have hcontent := ((blank hfront).append (joinWith hbetween h)).append (blank hback)
  have hall := hopens.append (hcontent.append hcloses)
  simpa using hall

mutual

theorem squeezes_pretty : ∀ (level : Nat) (v : Json), Squeezes (v.prettyChars level) v.compactChars
  | _, .null => by
      show Squeezes "null".toList "null".toList
      exact .plain (by decide)
  | _, .flag true => by
      show Squeezes "true".toList "true".toList
      exact .plain (by decide)
  | _, .flag false => by
      show Squeezes "false".toList "false".toList
      exact .plain (by decide)
  | _, .text s => .quote s
  | _, .list [] => by
      show Squeezes ['[', ']'] ['[', ']']
      exact .plain (by decide)
  | level, .list (v :: rest) => by
      simp only [prettyChars, compactChars]
      exact .enclosed (by decide) (by decide) (isBlank_newline _) (isBlank_newline _)
        (isBlank_newline _) (squeezes_prettyItems (level + 1) (v :: rest))
  | _, .object [] => by
      show Squeezes ['\x7b', '\x7d'] ['\x7b', '\x7d']
      exact .plain (by decide)
  | level, .object (m :: rest) => by
      simp only [prettyChars, compactChars]
      exact .enclosed (by decide) (by decide) (isBlank_newline _) (isBlank_newline _)
        (isBlank_newline _) (squeezes_prettyMembers (level + 1) (m :: rest))

theorem squeezes_prettyItems : ∀ (level : Nat) (items : List Json),
    List.Forall₂ Squeezes (prettyItems level items) (compactItems items)
  | _, [] => .nil
  | level, v :: rest => .cons (squeezes_pretty level v) (squeezes_prettyItems level rest)

theorem squeezes_prettyMembers : ∀ (level : Nat) (members : List (String × Json)),
    List.Forall₂ Squeezes (prettyMembers level members) (compactMembers members)
  | _, [] => .nil
  | level, (k, v) :: rest => by
      refine .cons ?_ (squeezes_prettyMembers level rest)
      have hgap : Squeezes [':', ' '] [':'] := by
        have hcolon : Squeezes [':'] [':'] := .plain (by decide)
        exact hcolon.append (.blank isBlank_space)
      have h := ((Squeezes.quote k).append hgap).append (squeezes_pretty level v)
      simpa using h

end

/-- Without its white space the indented form of a tree is the compact one. -/
theorem withoutSpace_pretty (v : Json) : withoutSpace v.pretty = v.compact := by
  have h : withoutSpaceFrom .outside (prettyChars 0 v) = v.compactChars := by
    simpa [withoutSpaceFrom] using squeezes_pretty 0 v []
  unfold withoutSpace pretty compact
  rw [String.toList_ofList, h]

end ModuleOutputs.Json
