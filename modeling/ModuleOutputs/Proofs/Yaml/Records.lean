import Mathlib.Data.List.Pairwise
import ModuleOutputs.Proofs.Yaml.Content

/-!
Readers of records, field by field. The fields of a record are apart from one another and make
up the record, so what is read depends, for each field, on what is given for its key alone.
-/

namespace ModuleOutputs.Yaml

variable {α : Type}

/-- What the entries of a mapping give for a key. -/
def under (key : String) (es : List (Content × Content)) : List Content :=
  (es.filter fun e => e.1.text? = some key).map Prod.snd

/-- Whether every key of a mapping is a text. -/
def KeysAreTexts (es : List (Content × Content)) : Prop :=
  ∀ e ∈ es, e.1.text?.isSome

instance (es : List (Content × Content)) : Decidable (KeysAreTexts es) :=
  inferInstanceAs (Decidable (∀ e ∈ es, e.1.text?.isSome))

/-- A field of a record: its key, how it is read and what its values mean, and where the record
holds it. -/
structure Slot (α : Type) where
  key : String
  Value : Type
  read : Reader Value
  means : Content → Option Value
  reads : Reads read means
  get : α → Value
  set : Value → α → α
  get_set (x : Value) (a : α) : get (set x a) = x

namespace Slot

section

variable (key : String)

/-- A field that holds a text. -/
def text (get : α → String) (set : String → α → α) (get_set : ∀ x a, get (set x a) = x) : Slot α :=
  ⟨key, String, readText "a string", Content.text?, readText_reads _, get, set, get_set⟩

/-- A field that holds a number. -/
def natural (expected : String) (get : α → Nat) (set : Nat → α → α)
    (get_set : ∀ x a, get (set x a) = x) : Slot α :=
  ⟨key, Nat, readNatural expected, Content.natural?, readNatural_reads _, get, set, get_set⟩

/-- A field that holds a truth value. -/
def flag (get : α → Bool) (set : Bool → α → α) (get_set : ∀ x a, get (set x a) = x) : Slot α :=
  ⟨key, Bool, readBoolean, Content.flag?, readBoolean_reads, get, set, get_set⟩

/-- A field that holds texts. -/
def texts (get : α → List String) (set : List String → α → α)
    (get_set : ∀ x a, get (set x a) = x) : Slot α :=
  ⟨key, List String, readList (readText "a string"), Content.list? Content.text?,
    readList_reads (readText_reads _), get, set, get_set⟩

end

def field (s : Slot α) : RecordField α :=
  .of s.key s.read s.set

/-- Whether two fields have different keys and do not touch each other. -/
structure Apart (s t : Slot α) : Prop where
  keys : s.key ≠ t.key
  left (x : t.Value) (a : α) : s.get (t.set x a) = s.get a
  right (x : s.Value) (a : α) : t.get (s.set x a) = t.get a

instance : Std.Symm (@Apart α) where
  symm _ _ h := ⟨h.keys.symm, h.right, h.left⟩

end Slot

/-- The fields of a record. They are apart, and records that hold the same in all of them are the
same. -/
structure Layout (α : Type) where
  slots : List (Slot α)
  apart : slots.Pairwise Slot.Apart
  ext {a b : α} (h : ∀ s ∈ slots, s.get a = s.get b) : a = b

section

variable {key name : String} {k v : Content} {es es' : List (Content × Content)}

theorem under_cons_self (h : k.text? = some key) :
    under key ((k, v) :: es) = v :: under key es := by
  simp [under, h]

theorem under_cons_ne (h : k.text? = some name) (hne : key ≠ name) :
    under key ((k, v) :: es) = under key es := by
  simp [under, h, hne.symm]

theorem under_perm (h : es'.Perm es) : (under key es').Perm (under key es) :=
  (h.filter _).map _

theorem keysAreTexts_cons : KeysAreTexts ((k, v) :: es) ↔ k.text?.isSome ∧ KeysAreTexts es :=
  List.forall_mem_cons

theorem keysAreTexts_perm (h : es'.Perm es) : KeysAreTexts es' ↔ KeysAreTexts es :=
  forall_congr' fun _ => by rw [h.mem_iff]

end

namespace Layout

variable {l : Layout α} {s t : Slot α} {d : Document} {way : Way} {mark : Mark}
  {given : List String} {ns : List (Node × Node)} {es es' : List (Content × Content)} {a b : α}

def fields (l : Layout α) : List (RecordField α) :=
  l.slots.map Slot.field

/-- What is made of the entries of a record, beyond those that were given before. Entries that
are no fields are passed over. -/
def ofEntries (l : Layout α) : (given : List String) → List (Content × Content) → α → Option α
  | _, [], a => some a
  | given, (key, value) :: es, a =>
    match key.text? with
    | none => none
    | some name =>
      match l.slots.find? (·.key == name) with
      | none => l.ofEntries given es a
      | some s =>
        if given.contains name then none
        else (s.means value).bind fun x => l.ofEntries (name :: given) es (s.set x a)

/-- What is made of a content as a record. What is not written leaves the record as it is. -/
def means (l : Layout α) (unset : α) : Content → Option α
  | .mapping es => l.ofEntries [] es unset
  | .scalar _ style text => if style = .plain ∧ text = "" then some unset else none
  | .list _ => none

/-! ## Reading -/

theorem find?_fields (l : Layout α) (name : String) :
    l.fields.find? (·.name == name) = (l.slots.find? (·.key == name)).map Slot.field :=
  List.find?_map

theorem toOption_readName {n : Node} {c : Content} (h : Says d (.node n c)) :
    (readName d way n).toOption.map Prod.fst = c.text? := by
  unfold readName
  rw [toOption_bind, (readText_reads _).toOption_eq h]
  cases c.text? with
  | none => rfl
  | some name => cases n <;> rfl

theorem readEntries_cons {fields : List (RecordField α)} {k v : Node} :
    readEntries fields d way mark given ((k, v) :: ns) a =
      (readName d way k) >>= fun named =>
        match fields.find? (·.name == named.1) with
        | some field =>
          if given.contains named.1 then .error (.mismatch way mark (.repeated named.1))
          else field.put d (named.2 :: way) v a >>= fun a =>
            readEntries fields d way mark (named.1 :: given) ns a
        | none =>
          if v.isComplete then readEntries fields d way mark given ns a else .error .malformed :=
  rfl

theorem toOption_readEntries (h : Says d (.entries ns es)) :
    (readEntries l.fields d way mark given ns a).toOption = l.ofEntries given es a := by
  induction ns generalizing es given a with
  | nil =>
      cases h
      rfl
  | cons entry ns ih =>
      obtain ⟨k, v⟩ := entry
      cases h with
      | @moreEntries _ _ key value _ es first hvalue next =>
          have hname : (readName d way k).toOption.map Prod.fst = key.text? :=
            toOption_readName first
          rw [readEntries_cons, ofEntries, toOption_bind]
          cases hread : (readName d way k).toOption with
          | none =>
              rw [hread] at hname
              rw [← hname]
              rfl
          | some named =>
              obtain ⟨name, step⟩ := named
              rw [hread] at hname
              rw [← hname, Option.map_some, Option.bind_some]
              dsimp only
              rw [find?_fields]
              cases l.slots.find? (·.key == name) with
              | none =>
                  dsimp only [Option.map_none]
                  have hcomplete : v.isComplete = true := hvalue.isComplete
                  rw [if_pos hcomplete]
                  exact ih next
              | some s =>
                  dsimp only [Option.map_some]
                  split
                  · rfl
                  · rw [toOption_bind, Slot.field, RecordField.of]
                    dsimp only
                    rw [toOption_map, s.reads.toOption_eq hvalue, Option.bind_map]
                    exact congrArg _ (funext fun x => ih next)

/-- A record is read as what it means. -/
theorem readRecord_reads (l : Layout α) (expected : String) (unset : α) :
    Reads (readRecord expected l.fields unset) (l.means unset) := by
  refine ⟨fun {d way n c} h => ?_⟩
  unfold readRecord
  cases h with
  | scalar resolved =>
      rw [resolved, means]
      split
      · next heq => cases heq
      · next heq =>
          cases heq
          rw [if_pos ⟨rfl, rfl⟩]
          rfl
      · next hother =>
          rw [if_neg]
          · rfl
          · rintro ⟨rfl, rfl⟩
            exact hother _ _ _ rfl
  | list resolved =>
      rw [resolved]
      rfl
  | mapping resolved entries =>
      rw [resolved]
      dsimp only
      rw [toOption_bind, toOption_readEntries entries]
      exact Option.bind_fun_some _

theorem toOption_recordOfText (l : Layout α) (expected : String) (unset : α) {text : String}
    {c : Content} (h : TextSays text c) :
    (recordOfText expected l.fields unset text).toOption = l.means unset c := by
  obtain ⟨n, hdocument, hsaid⟩ := h
  unfold recordOfText
  rw [hdocument]
  dsimp only
  rw [toOption_bind, (l.readRecord_reads expected unset).toOption_eq hsaid]
  exact Option.bind_fun_some _

/-! ## Fields by key -/

theorem apart_of_ne (hs : s ∈ l.slots) (ht : t ∈ l.slots) (hne : s ≠ t) : s.Apart t :=
  l.apart.forall hs ht hne

/-- No two fields have the same key. -/
theorem find?_eq_some_iff {name : String} :
    l.slots.find? (·.key == name) = some s ↔ s ∈ l.slots ∧ s.key = name := by
  constructor
  · intro h
    exact ⟨List.mem_of_find?_eq_some h, by simpa using List.find?_some h⟩
  · rintro ⟨hs, rfl⟩
    obtain ⟨t, ht⟩ : ∃ t, l.slots.find? (·.key == s.key) = some t := by
      refine Option.isSome_iff_exists.mp (List.find?_isSome.mpr ⟨s, hs, ?_⟩)
      exact beq_self_eq_true _
    have hkey : t.key = s.key := by simpa using List.find?_some ht
    by_cases hne : t = s
    · rw [ht, hne]
    · exact absurd hkey (apart_of_ne (List.mem_of_find?_eq_some ht) hs hne).keys

theorem eq_of_key (hs : s ∈ l.slots) (ht : t ∈ l.slots) (hkey : s.key = t.key) : s = t :=
  Option.some.inj
    ((find?_eq_some_iff.mpr ⟨hs, hkey⟩).symm.trans (find?_eq_some_iff.mpr ⟨ht, rfl⟩))

theorem find?_eq_none_iff {name : String} :
    l.slots.find? (·.key == name) = none ↔ ∀ s ∈ l.slots, s.key ≠ name := by
  simp [List.find?_eq_none]

/-- The first entry is no field of the record, or one that was not given before. -/
theorem ofEntries_cons_eq_some_iff {k v : Content} :
    l.ofEntries given ((k, v) :: es) a = some b ↔ ∃ name, k.text? = some name ∧
      ((∀ s ∈ l.slots, s.key ≠ name) ∧ l.ofEntries given es a = some b ∨
        ∃ s ∈ l.slots, s.key = name ∧ name ∉ given ∧ ∃ x, s.means v = some x ∧
          l.ofEntries (name :: given) es (s.set x a) = some b) := by
  rw [ofEntries]
  cases k.text? with
  | none => simp
  | some name =>
      simp only [Option.some.injEq, exists_eq_left', ← find?_eq_none_iff]
      cases hfind : l.slots.find? (·.key == name) with
      | none =>
          have hnone := find?_eq_none_iff.mp hfind
          refine ⟨fun h => .inl ⟨rfl, h⟩, ?_⟩
          rintro (⟨-, h⟩ | ⟨s, hs, hkey, -⟩)
          · exact h
          · exact absurd hkey (hnone s hs)
      | some t =>
          obtain ⟨ht, hkey⟩ := find?_eq_some_iff.mp hfind
          by_cases hgiven : name ∈ given
          · simp [hgiven]
          · simp only [List.contains_iff_mem, hgiven, if_false, reduceCtorEq, false_and, false_or,
              Option.bind_eq_some_iff, not_false_eq_true, true_and]
            constructor
            · rintro ⟨x, hx, h⟩
              exact ⟨t, ht, hkey, x, hx, h⟩
            · rintro ⟨s, hs, hname, x, hx, h⟩
              obtain rfl := eq_of_key hs ht (hname.trans hkey.symm)
              exact ⟨x, hx, h⟩

/-- Whether what is given for a field can be its own: there is one content at most, and none if
the field was given before, and each means something. -/
structure Fits (given : List String) (es : List (Content × Content)) (s : Slot α) : Prop where
  once : (under s.key es).length ≤ if s.key ∈ given then 0 else 1
  meant : ∀ c ∈ under s.key es, (s.means c).isSome

section

variable {k v : Content} {name : String}

theorem fits_cons_self (hk : k.text? = some s.key) :
    Fits given ((k, v) :: es) s ↔
      s.key ∉ given ∧ (s.means v).isSome ∧ Fits (s.key :: given) es s := by
  have hvalues : under s.key ((k, v) :: es) = v :: under s.key es := under_cons_self hk
  constructor
  · rintro ⟨once, meant⟩
    rw [hvalues] at once meant
    obtain ⟨hfirst, hothers⟩ := List.forall_mem_cons.mp meant
    split at once
    · cases once
    · next hnew =>
        refine ⟨hnew, hfirst, ?_, hothers⟩
        rw [if_pos List.mem_cons_self]
        exact Nat.le_of_succ_le_succ once
  · rintro ⟨hnew, hfirst, once, hothers⟩
    rw [if_pos List.mem_cons_self] at once
    refine ⟨?_, ?_⟩
    · rw [hvalues, if_neg hnew]
      exact Nat.succ_le_succ once
    · rw [hvalues]
      exact List.forall_mem_cons.mpr ⟨hfirst, hothers⟩

theorem fits_cons_ne (hk : k.text? = some name) (hne : s.key ≠ name) :
    Fits given ((k, v) :: es) s ↔ Fits given es s := by
  have hvalues : under s.key ((k, v) :: es) = under s.key es := under_cons_ne hk hne
  constructor <;> rintro ⟨once, meant⟩
  · exact ⟨hvalues ▸ once, hvalues ▸ meant⟩
  · exact ⟨hvalues.symm ▸ once, hvalues.symm ▸ meant⟩

theorem fits_cons_given (hne : s.key ≠ name) : Fits (name :: given) es s ↔ Fits given es s := by
  have hiff : s.key ∈ name :: given ↔ s.key ∈ given := by simp [hne]
  constructor <;> rintro ⟨once, meant⟩
  · exact ⟨by simpa only [hiff] using once, meant⟩
  · exact ⟨by simpa only [hiff] using once, meant⟩

end

/-- Something is made of entries if every key is a text and what is given for each field can be
its own. -/
theorem isSome_ofEntries_iff : (l.ofEntries given es a).isSome ↔
    KeysAreTexts es ∧ ∀ s ∈ l.slots, Fits given es s := by
  induction es generalizing given a with
  | nil =>
      have hfits : ∀ s ∈ l.slots, Fits given [] s := fun s _ => ⟨Nat.zero_le _, nofun⟩
      exact ⟨fun _ => ⟨nofun, hfits⟩, fun _ => rfl⟩
  | cons e es ih =>
      obtain ⟨k, v⟩ := e
      rw [keysAreTexts_cons]
      constructor
      · intro h
        obtain ⟨b, hb⟩ := Option.isSome_iff_exists.mp h
        obtain ⟨name, hk, ⟨hnone, hrest⟩ | ⟨s, hs, rfl, hnew, x, hx, hrest⟩⟩ :=
          ofEntries_cons_eq_some_iff.mp hb
        · obtain ⟨hkeys, hfits⟩ := ih.mp (Option.isSome_of_mem hrest)
          exact ⟨⟨Option.isSome_of_mem hk, hkeys⟩,
            fun s hs => (fits_cons_ne hk (hnone s hs)).mpr (hfits s hs)⟩
        · obtain ⟨hkeys, hfits⟩ := ih.mp (Option.isSome_of_mem hrest)
          refine ⟨⟨Option.isSome_of_mem hk, hkeys⟩, fun t ht => ?_⟩
          -- The entry counts for its own field, and for no other.
          by_cases hne : t = s
          · subst hne
            exact (fits_cons_self hk).mpr ⟨hnew, Option.isSome_of_mem hx, hfits t ht⟩
          · have hkey := (apart_of_ne ht hs hne).keys
            exact (fits_cons_ne hk hkey).mpr ((fits_cons_given hkey).mp (hfits t ht))
      · rintro ⟨⟨hk, hkeys⟩, hfits⟩
        obtain ⟨name, hk⟩ := Option.isSome_iff_exists.mp hk
        by_cases hknown : ∃ s ∈ l.slots, s.key = name
        · obtain ⟨s, hs, rfl⟩ := hknown
          obtain ⟨hnew, hx, hrest⟩ := (fits_cons_self hk).mp (hfits s hs)
          obtain ⟨x, hx⟩ := Option.isSome_iff_exists.mp hx
          have hsome : (l.ofEntries (s.key :: given) es (s.set x a)).isSome := by
            refine ih.mpr ⟨hkeys, fun t ht => ?_⟩
            by_cases hne : t = s
            · subst hne
              exact hrest
            · have hkey := (apart_of_ne ht hs hne).keys
              exact (fits_cons_given hkey).mpr ((fits_cons_ne hk hkey).mp (hfits t ht))
          obtain ⟨b, hb⟩ := Option.isSome_iff_exists.mp hsome
          exact Option.isSome_of_mem (ofEntries_cons_eq_some_iff.mpr
            ⟨s.key, hk, .inr ⟨s, hs, rfl, hnew, x, hx, hb⟩⟩)
        · have hnone : ∀ s ∈ l.slots, s.key ≠ name := fun s hs hkey => hknown ⟨s, hs, hkey⟩
          have hsome : (l.ofEntries given es a).isSome :=
            ih.mpr ⟨hkeys, fun s hs => (fits_cons_ne hk (hnone s hs)).mp (hfits s hs)⟩
          obtain ⟨b, hb⟩ := Option.isSome_iff_exists.mp hsome
          exact Option.isSome_of_mem
            (ofEntries_cons_eq_some_iff.mpr ⟨name, hk, .inl ⟨hnone, hb⟩⟩)

/-- A field of what is made of entries holds what the content given for it means. If none is
given, it is as it was before. -/
theorem get_of_ofEntries (h : l.ofEntries given es a = some b) (hs : s ∈ l.slots) :
    under s.key es = [] ∧ s.get b = s.get a ∨
      ∃ c, under s.key es = [c] ∧ s.means c = some (s.get b) := by
  induction es generalizing given a with
  | nil =>
      cases h
      exact .inl ⟨rfl, rfl⟩
  | cons e es ih =>
      obtain ⟨k, v⟩ := e
      obtain ⟨name, hk, ⟨hnone, hrest⟩ | ⟨t, ht, rfl, hnew, x, hx, hrest⟩⟩ :=
        ofEntries_cons_eq_some_iff.mp h
      · rw [under_cons_ne hk (hnone s hs)]
        exact ih hrest
      · by_cases hne : s = t
        · subst hne
          have hfits := (isSome_ofEntries_iff.mp (Option.isSome_of_mem hrest)).2 s hs
          have hnone : under s.key es = [] := by simpa using hfits.once
          rw [under_cons_self hk, hnone]
          rcases ih hrest with ⟨-, hget⟩ | ⟨c, hc, -⟩
          · exact .inr ⟨v, rfl, by rw [hget, s.get_set, hx]⟩
          · cases hnone.symm.trans hc
        · have happart := apart_of_ne hs ht hne
          rw [under_cons_ne hk happart.keys, ← happart.left x a]
          exact ih hrest

/-- Where a mapping gives every field once at most, it is a record if its keys are texts and what
is given for the fields means something. -/
theorem isSome_means_mapping_iff {unset : α}
    (once : ∀ s ∈ l.slots, (under s.key es).length ≤ 1) :
    (l.means unset (.mapping es)).isSome ↔
      KeysAreTexts es ∧ ∀ s ∈ l.slots, ∀ c ∈ under s.key es, (s.means c).isSome := by
  refine isSome_ofEntries_iff.trans (and_congr_right fun _ => forall₂_congr fun s hs => ?_)
  exact ⟨fun h => h.meant, fun h => ⟨once s hs, h⟩⟩

/-! ## Entries that make the same -/

/-- What is made of entries depends on what they give for each field, and on whether every key
is a text. -/
theorem ofEntries_of_perm (hkeys : KeysAreTexts es' ↔ KeysAreTexts es)
    (hperm : ∀ s ∈ l.slots, (under s.key es').Perm (under s.key es))
    (h : l.ofEntries [] es a = some b) : l.ofEntries [] es' a = some b := by
  obtain ⟨htexts, hfits⟩ := isSome_ofEntries_iff.mp (Option.isSome_of_mem h)
  -- One content at most stands in no order.
  have heq : ∀ s ∈ l.slots, under s.key es' = under s.key es := by
    intro s hs
    have honce : (under s.key es).length ≤ 1 := (hfits s hs).once
    have hperm := hperm s hs
    match hvalues : under s.key es with
    | [] => exact List.perm_nil.mp (hvalues ▸ hperm)
    | [c] => exact List.perm_singleton.mp (hvalues ▸ hperm)
    | _ :: _ :: _ =>
        rw [hvalues] at honce
        exact absurd honce (by simp)
  have hsome : (l.ofEntries [] es' a).isSome :=
    isSome_ofEntries_iff.mpr ⟨hkeys.mpr htexts, fun s hs =>
      ⟨heq s hs ▸ (hfits s hs).once, heq s hs ▸ (hfits s hs).meant⟩⟩
  obtain ⟨b', hb'⟩ := Option.isSome_iff_exists.mp hsome
  have hget : ∀ s ∈ l.slots, s.get b' = s.get b := by
    intro s hs
    rcases get_of_ofEntries h hs with ⟨hnone, hget⟩ | ⟨c, hc, hget⟩
    · rcases get_of_ofEntries hb' hs with ⟨-, hget'⟩ | ⟨c', hc', -⟩
      · rw [hget, hget']
      · cases hnone.symm.trans ((heq s hs).symm.trans hc')
    · rcases get_of_ofEntries hb' hs with ⟨hnone', -⟩ | ⟨c', hc', hget'⟩
      · cases hc.symm.trans ((heq s hs).symm.trans hnone')
      · obtain rfl : c = c' := by simpa using hc.symm.trans ((heq s hs).symm.trans hc')
        exact Option.some.inj (hget'.symm.trans hget)
  rw [hb', l.ext hget]

/-- The content of an entry can change as long as it means the same for the field. -/
theorem ofEntries_cons_congr {k v v' : Content}
    (h : ∀ s ∈ l.slots, k.text? = some s.key → s.means v' = s.means v) :
    l.ofEntries given ((k, v') :: es) a = l.ofEntries given ((k, v) :: es) a := by
  refine Option.ext fun b => ?_
  rw [ofEntries_cons_eq_some_iff, ofEntries_cons_eq_some_iff]
  refine exists_congr fun name => and_congr_right fun hk => or_congr_right ?_
  refine exists_congr fun s => and_congr_right fun hs => and_congr_right fun hkey => ?_
  rw [h s hs (hkey ▸ hk)]

end Layout

/-! ## Ways of writing the same entries -/

/-- One list of entries from another: the entries stand in another order, or there is one more,
whose key is a text and none of the known ones. -/
inductive Rearranges (known : List String) :
    List (Content × Content) → List (Content × Content) → Prop
  | order {es es' : List (Content × Content)} (perm : es'.Perm es) : Rearranges known es es'
  | unknown {k v : Content} {name : String} {es : List (Content × Content)}
      (key : k.text? = some name) (other : name ∉ known) : Rearranges known es ((k, v) :: es)

section

variable {known : List String} {es es' : List (Content × Content)}

theorem Rearranges.keysAreTexts_iff (h : Rearranges known es es') :
    KeysAreTexts es' ↔ KeysAreTexts es := by
  cases h with
  | order perm => exact keysAreTexts_perm perm
  | unknown key => rw [keysAreTexts_cons, key, Option.isSome_some, eq_self, true_and]

theorem Rearranges.under_perm {key : String} (h : Rearranges known es es') (hkey : key ∈ known) :
    (under key es').Perm (under key es) := by
  cases h with
  | order perm => exact Yaml.under_perm perm
  | unknown hk other =>
      rw [under_cons_ne hk]
      rintro rfl
      exact other hkey

/-- Rearranges entries make the same record. -/
theorem Rearranges.means_eq {l : Layout α} {unset : α}
    (h : Rearranges (l.slots.map (·.key)) es es') :
    l.means unset (.mapping es') = l.means unset (.mapping es) := by
  have hperm : ∀ s ∈ l.slots, (under s.key es').Perm (under s.key es) := fun s hs =>
    h.under_perm (List.mem_map_of_mem hs)
  refine Option.ext fun b => ⟨fun hb => ?_, fun hb => ?_⟩
  · exact Layout.ofEntries_of_perm h.keysAreTexts_iff.symm (fun s hs => (hperm s hs).symm) hb
  · exact Layout.ofEntries_of_perm h.keysAreTexts_iff hperm hb

end

end ModuleOutputs.Yaml
