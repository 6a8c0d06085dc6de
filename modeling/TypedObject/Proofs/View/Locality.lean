import Mathlib.Data.List.Basic
import TypedObject.Proofs.View.SizeExactness

/-!
# What a size depends on

A value of a schema may hold values of registered types, and these again values of
others.  The size depends on the schema and on the schemas of those types, and on
nothing else in the registry; in particular not on what references lead to.
-/

namespace TypedObject

namespace Registry

/-- Values of the schema hold values of the type registered under the name: the schema
mentions it outside of references, or mentions so a type that does. -/
inductive Embeds (registry : Registry) (name : String) : Schema → Prop where
  | placeholder {kind : Kind} : Embeds registry name (.placeholder kind name)
  | registered {kind : Kind} {other : String} {schema : Schema}
      (known : registry.schema? other = some schema) (inner : Embeds registry name schema) :
      Embeds registry name (.placeholder kind other)
  | array {ownName : Option String} {length : Nat} {elem : Schema}
      (inner : Embeds registry name elem) : Embeds registry name (.array ownName length elem)
  | slice {ownName : Option String} {elem : Schema} (inner : Embeds registry name elem) :
      Embeds registry name (.slice ownName elem)
  | struct {ownName : Option String} {fields : List Field} {field : Field}
      (member : field ∈ fields) (inner : Embeds registry name field.schema) :
      Embeds registry name (.struct ownName fields)

/-- The second registry holds the same schema under every name that the schema embeds in
the first. -/
def SameBelow (first second : Registry) (schema : Schema) : Prop :=
  ∀ name, first.Embeds name schema → second.schema? name = first.schema? name

end Registry

namespace View

variable {first second : Registry}

/-- The same schema in another registry. -/
def movedTo (registry : Registry) (view : View) : View := ⟨registry, view.schema⟩

theorem follow_movedTo
    {schema : Schema} (same : first.SameBelow second schema) :
    follow second schema = (follow first schema).map (movedTo second) := by
  cases schema with
  | placeholder kind name =>
      have sameSchema : second.schemaByName name = first.schemaByName name := by
        unfold Registry.schemaByName
        rw [same name .placeholder]
      simp only [follow, sameSchema]
      cases first.schemaByName name <;> rfl
  | _ => rfl

/-- What is followed lies in the same registry and embeds nothing new. -/
theorem sameBelow_of_follow
    {schema : Schema} (same : first.SameBelow second schema) {next : View}
    (followed : follow first schema = .ok next) :
    next = ⟨first, next.schema⟩ ∧ first.SameBelow second next.schema := by
  cases schema with
  | placeholder kind name =>
      obtain ⟨schema, known, rfl⟩ := Outcome.map_eq_ok_iff.mp followed
      have present := schemaByName_eq_ok_iff.mp known
      exact ⟨rfl, fun other inner => same other (.registered present inner)⟩
  | _ =>
      cases followed
      exact ⟨rfl, same⟩

/-- What is done with a part is the same in both registries if it is so for every view
that embeds only what the part does. -/
theorem bind_follow_movedTo
    {schema : Schema} (same : first.SameBelow second schema) {α : Type}
    {next next' : View → Except SchemaError α}
    (agree : ∀ inner, first.SameBelow second inner → next' ⟨second, inner⟩ = next ⟨first, inner⟩) :
    follow second schema >>= next' = follow first schema >>= next := by
  rw [follow_movedTo same, Outcome.bind_map]
  cases followed : follow first schema with
  | error error => rfl
  | ok view =>
      obtain ⟨place, sameView⟩ := sameBelow_of_follow same followed
      rw [place]
      exact agree view.schema sameView

theorem bind_toOption_follow_movedTo
    {schema : Schema} (same : first.SameBelow second schema) {α : Type}
    {next next' : View → Option α}
    (agree : ∀ inner, first.SameBelow second inner → next' ⟨second, inner⟩ = next ⟨first, inner⟩) :
    (follow second schema).toOption.bind next' = (follow first schema).toOption.bind next := by
  rw [follow_movedTo same, Outcome.toOption_map, Option.bind_map]
  cases followed : follow first schema with
  | error error => rfl
  | ok view =>
      obtain ⟨place, sameView⟩ := sameBelow_of_follow same followed
      rw [place]
      exact agree view.schema sameView

private theorem fixedSizeWithin_array_eq
    (levels : Nat) (registry : Registry) (name : Option String) (length : Nat) (inner : Schema) :
    fixedSizeWithin (levels + 1) ⟨registry, .array name length inner⟩ =
      if length = 0 then some 0
      else (follow registry inner).toOption.bind fun elem =>
        (fixedSizeWithin levels elem).bind fun size => Offset.mul? size length :=
  rfl

private theorem fixedSizeWithin_struct_eq
    (levels : Nat) (registry : Registry) (name : Option String) (fields : List Field) :
    fixedSizeWithin (levels + 1) ⟨registry, .struct name fields⟩ =
      fields.foldlM (fun total field =>
        (follow registry field.schema).toOption.bind fun part =>
          (fixedSizeWithin levels part).bind fun size => Offset.add? total size) 0 :=
  rfl

theorem fixedSizeWithin_of_sameBelow
    {schema : Schema} (same : first.SameBelow second schema) (levels : Nat) :
    fixedSizeWithin levels ⟨second, schema⟩ = fixedSizeWithin levels ⟨first, schema⟩ := by
  induction levels generalizing schema with
  | zero => rfl
  | succ levels induction =>
      cases schema with
      | reference kind target => rw [fixedSizeWithin_reference, fixedSizeWithin_reference]
      | openReference kind => rw [fixedSizeWithin_openReference, fixedSizeWithin_openReference]
      | array name length inner =>
          rw [fixedSizeWithin_array_eq, fixedSizeWithin_array_eq]
          congr 1
          apply bind_toOption_follow_movedTo fun name embeds => same name (.array embeds)
          intro elem sameElem
          rw [induction sameElem]
      | struct name fields =>
          rw [fixedSizeWithin_struct_eq, fixedSizeWithin_struct_eq]
          rw [List.foldlM_eq_foldl, List.foldlM_eq_foldl]
          apply List.foldl_ext
          intro total field member
          apply Option.bind_congr
          intro sum _
          apply bind_toOption_follow_movedTo fun name embeds => same name (.struct member embeds)
          intro part samePart
          rw [induction samePart]
      | _ => rfl

theorem fixedSize?_of_sameBelow {schema : Schema} (same : first.SameBelow second schema) :
    fixedSize? ⟨second, schema⟩ = fixedSize? ⟨first, schema⟩ :=
  fixedSizeWithin_of_sameBelow same (depthLimit + 1)

theorem sizeOfFields_of_sameBelow
    {measure : View → Bytes → Except SchemaError Nat} {schema : Schema} {fields : List Field}
    (same : ∀ field ∈ fields, first.SameBelow second field.schema)
    (agree : ∀ inner, first.SameBelow second inner →
      measure ⟨second, inner⟩ = measure ⟨first, inner⟩) (bytes : Bytes) :
    sizeOfFields measure ⟨second, schema⟩ fields bytes =
      sizeOfFields measure ⟨first, schema⟩ fields bytes := by
  induction fields generalizing bytes with
  | nil => rfl
  | cons field fields induction =>
      obtain ⟨sameFirst, sameLater⟩ := List.forall_mem_cons.mp same
      rw [sizeOfFields, sizeOfFields]
      apply bind_follow_movedTo sameFirst
      intro part samePart
      rw [agree part samePart]
      simp only [induction sameLater]

/-- Views of one schema measure alike in registries that agree on what it embeds. -/
theorem sizeWithin_of_sameBelow
    {schema : Schema} (same : first.SameBelow second schema) (levels : Nat) :
    sizeWithin levels ⟨second, schema⟩ = sizeWithin levels ⟨first, schema⟩ := by
  induction levels generalizing schema with
  | zero => rfl
  | succ levels induction =>
      have sequence : ∀ elem, first.SameBelow second elem → ∀ count start bytes,
          sizeOfSequence ⟨second, elem⟩ (sizeWithin levels ⟨second, elem⟩) count start bytes =
            sizeOfSequence ⟨first, elem⟩ (sizeWithin levels ⟨first, elem⟩) count start bytes := by
        intro elem sameElem count start bytes
        rw [induction sameElem]
        unfold sizeOfSequence
        rw [fixedSize?_of_sameBelow sameElem]
      funext bytes
      cases schema with
      | scalar kind name => rw [sizeWithin_scalar, sizeWithin_scalar]
      | reference kind target => rw [sizeWithin_reference, sizeWithin_reference]
      | openReference kind => rw [sizeWithin_openReference, sizeWithin_openReference]
      | slice name inner =>
          rw [sizeWithin_slice, sizeWithin_slice]
          congr 1
          apply bind_follow_movedTo fun name embeds => same name (.slice embeds)
          intro elem sameElem
          simp only [sequence elem sameElem]
      | array name length inner =>
          rw [sizeWithin_array, sizeWithin_array]
          congr 1
          apply bind_follow_movedTo fun name embeds => same name (.array embeds)
          intro elem sameElem
          exact sequence elem sameElem length 0 bytes
      | struct name fields =>
          rw [sizeWithin_struct, sizeWithin_struct]
          congr 1
          apply sizeOfFields_of_sameBelow _ fun inner sameInner => induction sameInner
          intro field member name embeds
          exact same name (.struct member embeds)
      | placeholder kind name => rfl

theorem size_of_sameBelow {schema : Schema} (same : first.SameBelow second schema) :
    size ⟨second, schema⟩ = size ⟨first, schema⟩ :=
  sizeWithin_of_sameBelow same (depthLimit + 1)

end View

end TypedObject
