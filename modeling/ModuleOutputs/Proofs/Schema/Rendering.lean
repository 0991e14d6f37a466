import ModuleOutputs.Proofs.Json.Spacing
import ModuleOutputs.Proofs.Schema.Mapper
import ModuleOutputs.Proofs.Schema.RoundTrip
import ModuleOutputs.Schema.Document

/-!
The text of a document. Whatever the names of the outputs are, both forms of the text are
parsed as one tree: the fragments under their names, in their order, and around them what the
options ask for. The tree of a fragment is said here key by key, apart from how one is printed.
-/

namespace ModuleOutputs.Schema

/-! ## Fragments -/

namespace Fragment

/-- The trees of the fragments that types are mapped to. -/
inductive HasTree : Fragment → Json → Prop
  | string : HasTree (ofKind .string) (.object [("type", .text "string")])
  | number : HasTree (ofKind .number) (.object [("type", .text "number")])
  | boolean : HasTree (ofKind .boolean) (.object [("type", .text "boolean")])
  | list {f : Fragment} {tree : Json} (element : HasTree f tree) :
    HasTree (arrayOf f) (.object [("type", .text "array"), ("items", tree)])
  | map {f : Fragment} {tree : Json} (value : HasTree f tree) :
    HasTree (mapOf f) (.object [("type", .text "object"), ("additionalProperties", tree)])
  | any : HasTree any (.object [("$ref", .text "pulumi.json#/Any")])

theorem hasTree_fragmentOf (type : String) :
    (fragmentOf type).HasTree (fragmentOf type).toJson := by
  unfold fragmentOf
  split
  · exact .string
  · exact .number
  · exact .boolean
  · exact .list .string
  · exact .list .any
  · exact .map .string
  · exact .map .any
  · exact .any

theorem height_fragmentOf_le (type : String) : (fragmentOf type).height ≤ 127 := by
  unfold fragmentOf
  split <;> decide

end Fragment

/-- What stands for an output among the members of an object: its name, with a tree of its
fragment that is read back as that fragment from every text. -/
structure IsMember (x : String × Fragment) (member : String × Json) : Prop where
  name : member.1 = x.1
  tree : x.2.HasTree member.2
  readBack : ∀ text, Json.Parses text member.2 → Json.decode Fragment.read text = .ok x.2

theorem isMember_of_mem {outputs : List InferredOutput} {x : String × Fragment}
    (hx : x ∈ fragmentsOf outputs) : IsMember x (x.1, x.2.toJson) := by
  obtain ⟨o, -, ho⟩ := Option.map_eq_some_iff.mp (mem_fragmentsOf_iff.mp hx)
  have hheight : x.2.height ≤ 127 := ho ▸ Fragment.height_fragmentOf_le o.type
  exact {
    name := rfl
    tree := ho ▸ Fragment.hasTree_fragmentOf o.type
    readBack := fun _ htext =>
      Fragment.read_means.decode_of_parses htext (Fragment.meaning_toJson hheight) }

/-! ## Documents -/

namespace Document

theorem parses_render_iff {indented : Bool} {d : Document} {tree : Json} :
    Json.Parses (d.render indented) tree ↔ tree = d.toJson := by
  cases indented with
  | false => exact Json.parses_compact_iff
  | true => exact Json.parses_pretty_iff

/-- The two forms of a document differ in white space between words alone. -/
theorem withoutSpace_render (d : Document) :
    Json.withoutSpace (d.render true) = d.render false :=
  Json.withoutSpace_pretty d.toJson

/-- A rendered document is parsed as what was mapped, with a member for each fragment. The names
are those of the outputs that are kept, each once, where it comes first, and the fragment of a
name is that of the last output with it. -/
theorem render_ofOutputs (m : ModuleRef) (options : RunOptions) (outputs : List InferredOutput) :
    (∃ members, List.Forall₂ IsMember (mapOutputs options outputs) members ∧
      ∀ indented tree, Json.Parses ((ofOutputs m options outputs).render indented) tree ↔
        tree =
          if options.override then
            .object [("source", .text m.source), ("maximumVersion", .text m.version),
              ("partialSchema", .object [("outputs", .object members)])]
          else .object [("outputs", .object members)]) ∧
    (mapOutputs options outputs).names = ((kept options outputs).map (·.name)).eraseDups ∧
    (mapOutputs options outputs).names.Nodup ∧
    (∀ name f, (name, f) ∈ mapOutputs options outputs ↔
      ((kept options outputs).reverse.find? (·.name = name)).map (fragmentOf ·.type) = some f) ∧
    Json.withoutSpace ((ofOutputs m options outputs).render true) =
      (ofOutputs m options outputs).render false := by
  refine ⟨⟨(mapOutputs options outputs).map fun x => (x.1, x.2.toJson), ?_, ?_⟩,
    names_fragmentsOf _, nodup_names_fragmentsOf _, fun name f => mem_fragmentsOf_iff,
    withoutSpace_render _⟩
  · rw [List.forall₂_map_right_iff, List.forall₂_same]
    intro x hx
    exact isMember_of_mem hx
  · intro indented tree
    rw [parses_render_iff]
    unfold ofOutputs
    cases options.override <;> rfl

end Document

end ModuleOutputs.Schema
