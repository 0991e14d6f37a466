import ModuleOutputs.Proofs.Json.Printing
import ModuleOutputs.Proofs.Json.Records

/-!
Decoding what was written. A word may stand alone or as the key of an object; a text that is
parsed as a tree is decoded as what the value of the tree means, however it was laid out.
-/

namespace ModuleOutputs.Json

open Text (Piece)

variable {α : Type} {ps rest : List Piece}

/-! ## Words -/

/-- What a word names. -/
def named (known : List (String × α)) (word : String) : Option α :=
  (known.find? fun (w, _) => w = word).map Prod.snd

/-- What is made of a value as a word: it is a string, or the one key of an object that holds
`null` under it. -/
def wordMeaning (known : List (String × α)) : Nat → Value → Option α
  | _, .text us => us.text?.bind (named known)
  | _ + 1, .object [(us, .null)] => us.text?.bind (named known)
  | _, _ => none

theorem wordMeaning_text_eq_some_iff {known : List (String × α)} {depth : Nat} {us : Units}
    {a : α} :
    wordMeaning known depth (.text us) = some a ↔
      ∃ word, us.text? = some word ∧ named known word = some a := by
  unfold wordMeaning
  exact Option.bind_eq_some_iff

theorem wordMeaning_object_eq_some_iff {known : List (String × α)} {depth : Nat}
    {ms : List (Units × Value)} {a : α} :
    wordMeaning known depth (.object ms) = some a ↔
      ∃ d us word, depth = d + 1 ∧ ms = [(us, .null)] ∧ us.text? = some word ∧
        named known word = some a := by
  constructor
  · intro h
    unfold wordMeaning at h
    split at h
    · next heq => cases heq
    · next d us heq =>
        cases heq
        obtain ⟨word, htext, hnamed⟩ := Option.bind_eq_some_iff.mp h
        exact ⟨d, us, word, rfl, rfl, htext, hnamed⟩
    · cases h
  · rintro ⟨d, us, word, rfl, rfl, htext, hnamed⟩
    exact Option.bind_eq_some_iff.mpr ⟨word, htext, hnamed⟩

theorem choose_eq_ok_iff {known : List (String × α)} {word : String} {a : α} :
    choose known word ps = .ok (a, rest) ↔ named known word = some a ∧ rest = ps := by
  unfold choose named
  cases known.find? fun (w, _) => w = word with
  | none => simp
  | some found => simp [eq_comm]

theorem readUnit_eq_ok_iff :
    readWord.readUnit ps = .ok rest ↔ Spells (.value .null) (skipSpace ps) rest := by
  unfold readWord.readUnit
  constructor
  · intro h
    split at h
    · next hspace =>
        obtain ⟨⟨⟨⟩, rest'⟩, hword, rfl⟩ := map_eq_ok_iff.mp h
        rw [hspace, expectWord_eq_ok_iff.mp hword]
        exact .null
    · cases h
  · intro h
    generalize skipSpace ps = qs at h ⊢
    cases h with
    | null => exact map_eq_ok_iff.mpr ⟨_, expectWord_eq_ok_iff.mpr rfl, rfl⟩

theorem readWord_means (known : List (String × α)) :
    Means (readWord known) (wordMeaning known) where
  sound {depth ps rest a} h := by
    unfold readWord at h
    split at h
    · cases h
    · next hspace =>
        obtain ⟨⟨word, rest'⟩, hstring, hchoose⟩ := bind_eq_ok_iff.mp h
        obtain ⟨hnamed, rfl⟩ := choose_eq_ok_iff.mp hchoose
        obtain ⟨us, hus, htext⟩ := string_eq_ok_iff.mp hstring
        exact ⟨.text us, hspace ▸ .text hus,
          wordMeaning_text_eq_some_iff.mpr ⟨word, htext, hnamed⟩⟩
    · next tail hspace =>
        split at h
        · cases h
        next depth =>
        split at h
        · next hopening =>
            obtain ⟨⟨word, ps₁⟩, hstring, h⟩ := bind_eq_ok_iff.mp h
            obtain ⟨⟨b, ps₂⟩, hchoose, h⟩ := bind_eq_ok_iff.mp h
            obtain ⟨ps₃, hcolon, h⟩ := bind_eq_ok_iff.mp h
            obtain ⟨ps₄, hunit, h⟩ := bind_eq_ok_iff.mp h
            obtain ⟨us, hus, htext⟩ := string_eq_ok_iff.mp hstring
            split at h
            · cases h
            · next hclose =>
                cases h
                obtain ⟨hnamed, rfl⟩ := choose_eq_ok_iff.mp hchoose
                have hmember : Spells (.member us .null) tail ps₄ :=
                  .member hopening hus (colon_eq_ok_iff.mp hcolon) (readUnit_eq_ok_iff.mp hunit)
                exact ⟨.object [(us, .null)], hspace ▸ .object (.lastMember hmember hclose),
                  wordMeaning_object_eq_some_iff.mpr ⟨_, us, word, rfl, rfl, htext, hnamed⟩⟩
            · cases h
        · cases h
    · cases h
  complete {depth ps rest v a} hv hmeans := by
    unfold readWord
    generalize skipSpace ps = qs at hv ⊢
    cases hv with
    | text string =>
        obtain ⟨word, htext, hnamed⟩ := wordMeaning_text_eq_some_iff.mp hmeans
        exact bind_eq_ok_iff.mpr ⟨_, string_eq_ok_iff.mpr ⟨_, string, htext⟩,
          choose_eq_ok_iff.mpr ⟨hnamed, rfl⟩⟩
    | object members =>
        obtain ⟨depth, us, word, rfl, rfl, htext, hnamed⟩ :=
          wordMeaning_object_eq_some_iff.mp hmeans
        cases members with
        | lastMember first close =>
            cases first with
            | member opening key colon value =>
                simp only [opening]
                refine bind_eq_ok_iff.mpr ⟨_, string_eq_ok_iff.mpr ⟨_, key, htext⟩, ?_⟩
                refine bind_eq_ok_iff.mpr ⟨_, choose_eq_ok_iff.mpr ⟨hnamed, rfl⟩, ?_⟩
                refine bind_eq_ok_iff.mpr ⟨_, colon_eq_ok_iff.mpr colon, ?_⟩
                refine bind_eq_ok_iff.mpr ⟨_, readUnit_eq_ok_iff.mpr value, ?_⟩
                simp only [close]
        | moreMembers _ _ next => cases next
    | emptyObject _ =>
        obtain ⟨_, _, _, -, hone, -⟩ := wordMeaning_object_eq_some_iff.mp hmeans
        cases hone
    | _ => cases depth <;> cases hmeans

/-! ## Trees -/

/-- A text that is parsed as a tree is decoded as what the value of the tree means. -/
theorem Means.decode_of_parses {read : Reader α} {means : Nat → Value → Option α}
    (h : Means read means) {text : String} {tree : Json} (hparses : Parses text tree) {a : α}
    (ha : means depthLimit tree.value = some a) : decode read text = .ok a :=
  h.decode_eq_ok_iff.mpr ⟨tree.value, hparses, ha⟩

/-- Items are read back from a list of what was written for them. -/
theorem listMeaning_values {means : Nat → Value → Option α} {write : α → Json} {depth : Nat}
    (h : ∀ a, means depth (write a).value = some a) (as : List α) :
    listMeaning means (depth + 1) (value (.list (as.map write))) = some as := by
  refine mapM_eq_some_iff.mpr ?_
  induction as with
  | nil => exact .nil
  | cons a as ih => exact .cons (h a) ih

end ModuleOutputs.Json
