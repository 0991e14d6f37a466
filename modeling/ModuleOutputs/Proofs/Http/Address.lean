import ModuleOutputs.Http.Url

/-!
Addresses below a base. A base that is an address with a slash at its end is one with
anything behind that slash: what follows the slash is path, query or fragment, and none
of these can make an address wrong.
-/

namespace ModuleOutputs.Http.Url

/-- Whether a text is the base of addresses: with one slash at its end, however many
it has, it is the address of a request. -/
def IsBase (base : String) : Prop :=
  ∃ u, ofText (Text.dropEndSlashes base ++ "/") = .ok u

/-! ## Texts that go on behind a slash -/

/-- Whether one text is another, or that one with more behind the slash at its end. -/
inductive GoesOn : List Char → List Char → Prop
  | same (cs : List Char) : GoesOn cs cs
  | slash (s z : List Char) : GoesOn (s ++ ['/']) (s ++ '/' :: z)

variable {p : Char → Bool} {cs ds : List Char}

theorem dropWhile_slash (hp : p '/' = false) (s z : List Char) :
    (s ++ '/' :: z).dropWhile p = s.dropWhile p ++ '/' :: z := by
  induction s with
  | nil => simp [hp]
  | cons c rest ih => cases hc : p c <;> simp [hc, ih]

theorem takeWhile_slash (hp : p '/' = false) (s z : List Char) :
    (s ++ '/' :: z).takeWhile p = s.takeWhile p := by
  induction s with
  | nil => simp [hp]
  | cons c rest ih => cases hc : p c <;> simp [hc, ih]

theorem dropEndWhile_slash (hp : p '/' = false) (s z : List Char) :
    Text.dropEndWhile p (s ++ '/' :: z) = s ++ '/' :: Text.dropEndWhile p z := by
  have hreverse : (s ++ '/' :: z).reverse = z.reverse ++ '/' :: s.reverse := by simp
  rw [Text.dropEndWhile, hreverse, dropWhile_slash hp]
  simp [Text.dropEndWhile]

namespace GoesOn

theorem takeWhile_eq (hp : p '/' = false) (h : GoesOn cs ds) :
    ds.takeWhile p = cs.takeWhile p := by
  cases h with
  | same => rfl
  | slash s z => rw [takeWhile_slash hp, takeWhile_slash hp]

theorem dropWhile (hp : p '/' = false) (h : GoesOn cs ds) :
    GoesOn (cs.dropWhile p) (ds.dropWhile p) := by
  cases h with
  | same => exact .same _
  | slash s z =>
      rw [dropWhile_slash hp, dropWhile_slash hp]
      exact .slash _ z

/-- Going on is seen up to the first character of another kind. -/
theorem takeWhile (hp : p '/' = true) (h : GoesOn cs ds) :
    GoesOn (cs.takeWhile p) (ds.takeWhile p) := by
  cases h with
  | same => exact .same _
  | slash s z =>
      simp only [List.takeWhile_append, List.takeWhile_cons, hp, if_true, List.takeWhile_nil]
      split
      · exact .slash s _
      · exact .same _

/-- Behind the slashes at the beginning there is nothing, or the texts still go on. -/
theorem dropSlashes (hp : p '/' = true) (h : GoesOn cs ds) :
    cs.dropWhile p = [] ∨ GoesOn (cs.dropWhile p) (ds.dropWhile p) := by
  cases h with
  | same => exact .inr (.same _)
  | slash s z =>
      simp only [List.dropWhile_append, List.dropWhile_cons, hp, if_true, List.dropWhile_nil]
      split
      · exact .inl rfl
      · exact .inr (.slash _ z)

theorem tail {c : Char} (hc : c ≠ '/') (h : GoesOn (c :: cs) ds) :
    ∃ rest, ds = c :: rest ∧ GoesOn cs rest := by
  generalize hcs : c :: cs = all at h
  cases h with
  | same => exact ⟨cs, hcs.symm, .same cs⟩
  | slash s z =>
      cases s with
      | nil => exact absurd (List.cons.inj hcs).1 hc
      | cons d s =>
          obtain ⟨rfl, rfl⟩ := List.cons.inj hcs
          exact ⟨s ++ '/' :: z, rfl, .slash s z⟩

end GoesOn

theorem clean_goesOn (s z : List Char) : GoesOn (clean (s ++ ['/'])) (clean (s ++ '/' :: z)) := by
  unfold clean Text.stripWhile
  rw [dropWhile_slash (by decide), dropWhile_slash (by decide), dropEndWhile_slash (by decide),
    dropEndWhile_slash (by decide), List.filter_append, List.filter_append,
    List.filter_cons_of_pos (by decide), List.filter_cons_of_pos (by decide)]
  exact .slash _ _

/-! ## Addresses -/

theorem drop_takeWhile (p : Char → Bool) (cs : List Char) :
    cs.drop (cs.takeWhile p).length = cs.dropWhile p := by
  conv => lhs; arg 2; rw [← List.takeWhile_append_dropWhile (p := p) (l := cs)]
  exact List.drop_left

def isSchemeChar (c : Char) : Bool :=
  c.isAlphanum || c == '+' || c == '-' || c == '.'

theorem splitScheme_eq (cs : List Char) :
    splitScheme cs =
      match cs.takeWhile isSchemeChar, cs.dropWhile isSchemeChar with
      | c :: _, ':' :: rest =>
        if c.isAlpha then some ((cs.takeWhile isSchemeChar).map Char.toLower, rest) else none
      | _, _ => none := by
  rw [← drop_takeWhile]
  rfl

theorem splitScheme_goesOn (h : GoesOn cs ds) {scheme rest : List Char}
    (hs : splitScheme cs = some (scheme, rest)) :
    ∃ rest', splitScheme ds = some (scheme, rest') ∧ GoesOn rest rest' := by
  have hslash : isSchemeChar '/' = false := by decide
  rw [splitScheme_eq] at hs
  rw [splitScheme_eq, h.takeWhile_eq hslash]
  have hrest := h.dropWhile hslash
  split at hs
  · next c tail more hscheme hcolon =>
      rw [hcolon] at hrest
      obtain ⟨more', hmore, hgoes⟩ := hrest.tail (by decide)
      split at hs
      · next halpha =>
          cases hs
          exact ⟨more', by simp [hscheme, hmore, halpha], hgoes⟩
      · cases hs
  · cases hs

/-- A slash of the web, which may be a backslash. -/
def isWebSlash (c : Char) : Bool :=
  c == '/' || c == '\\'

/-- The authority in what follows the colon of a scheme of the web. -/
def authorityIn (rest : List Char) : List Char :=
  (((rest.takeWhile (· ≠ '#')).takeWhile (· ≠ '?')).dropWhile isWebSlash).takeWhile
    fun c => !isWebSlash c

theorem isRequestable_iff (u : Url) :
    u.isRequestable = true ↔
      (u.scheme = "http".toList ∨ u.scheme = "https".toList) ∧ u.authority.getD [] ≠ [] := by
  cases h : u.authority <;> simp [isRequestable, h]

/-- A text is the address of a request if its scheme is one of the two and its authority
is understood. -/
theorem ofText_ok_iff (text : String) :
    (∃ u, ofText text = .ok u) ↔
      ∃ scheme rest web host, splitScheme (clean text.toList) = some (scheme, rest) ∧
        webSchemes.find? (fun x => x.1 = scheme) = some web ∧
        (scheme = "http".toList ∨ scheme = "https".toList) ∧
        webAuthority web.2 (authorityIn rest) = .ok host ∧ host ≠ [] := by
  constructor
  · rintro ⟨u, hu⟩
    unfold ofText at hu
    split at hu
    · cases hu
    · next v hparse =>
        split at hu
        · next hrequestable =>
            cases hu
            rw [isRequestable_iff] at hrequestable
            unfold parse at hparse
            split at hparse
            · cases hparse
            · next scheme rest hscheme =>
                dsimp only [splitFragment, splitQuery] at hparse
                split at hparse
                · next web ownPort hweb =>
                    split at hparse
                    · cases hparse
                    · next host hhost =>
                        cases hparse
                        obtain ⟨hhttp, hsome⟩ := hrequestable
                        exact ⟨scheme, rest, _, host, hscheme, hweb, hhttp, hhost, by simpa using hsome⟩
                · next hnone =>
                    -- Any other scheme is kept as it is, so it is not one of the two.
                    have hsame : u.scheme = scheme := by
                      split at hparse <;> cases hparse <;> rfl
                    rw [hsame] at hrequestable
                    rcases hrequestable.1 with rfl | rfl <;> cases hnone
        · cases hu
  · rintro ⟨scheme, rest, web, host, hscheme, hweb, hhttp, hhost, hsome⟩
    unfold authorityIn isWebSlash at hhost
    unfold ofText parse
    rw [hscheme]
    dsimp only [splitFragment, splitQuery]
    rw [hweb]
    dsimp only
    rw [hhost]
    refine ⟨_, if_pos ?_⟩
    rw [isRequestable_iff]
    exact ⟨hhttp, by simpa using hsome⟩

theorem authorityIn_goesOn (h : GoesOn cs ds) (hsome : authorityIn cs ≠ []) :
    authorityIn ds = authorityIn cs := by
  have hquery := (h.takeWhile (p := (· ≠ '#')) (by decide)).takeWhile (p := (· ≠ '?')) (by decide)
  rcases hquery.dropSlashes (p := isWebSlash) (by decide) with hnone | hgoes
  · unfold authorityIn at hsome
    rw [hnone] at hsome
    exact absurd rfl hsome
  · exact hgoes.takeWhile_eq (by decide)

theorem webAuthority_nil (ownPort : Option (List Char)) :
    webAuthority ownPort [] = .error .emptyHost := rfl

/-- An address stays one if its text goes on behind the slash at its end. -/
theorem ofText_goesOn {text text' : String} (h : GoesOn (clean text.toList) (clean text'.toList))
    (hu : ∃ u, ofText text = .ok u) : ∃ u, ofText text' = .ok u := by
  rw [ofText_ok_iff] at hu ⊢
  obtain ⟨scheme, rest, web, host, hscheme, hweb, hhttp, hhost, hsome⟩ := hu
  obtain ⟨rest', hscheme', hgoes⟩ := splitScheme_goesOn h hscheme
  refine ⟨scheme, rest', web, host, hscheme', hweb, hhttp, ?_, hsome⟩
  rw [authorityIn_goesOn hgoes, hhost]
  intro hnone
  rw [hnone, webAuthority_nil] at hhost
  cases hhost

/-- Anything can stand behind the slash of a base. -/
theorem IsBase.ofText_append {base : String} (h : IsBase base) (tail : String) :
    ∃ u, ofText (Text.dropEndSlashes base ++ "/" ++ tail) = .ok u := by
  refine ofText_goesOn ?_ h
  have hgoes := clean_goesOn (Text.dropEndSlashes base).toList tail.toList
  simpa [String.toList_append] using hgoes

end ModuleOutputs.Http.Url
