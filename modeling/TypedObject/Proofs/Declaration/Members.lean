import TypedObject.Declaration.Layout

/-!
# The members of a layout

A layout names other types: those of its elements, and those of the fields that are not
excluded.  Layouts that differ in excluded fields only have the same kind and the same
members.
-/

namespace TypedObject.Layout

/-- The type of the elements. -/
def elem? : Layout → Option TypeExpr
  | slice elem | array _ elem => some elem
  | _ => none

/-- The fields that are not excluded. -/
def included : Layout → List FieldDeclaration
  | struct fields => fields.filter fun field => !field.isExcluded
  | _ => []

/-- The types of elements and fields. -/
def members (layout : Layout) : List TypeExpr :=
  layout.elem?.toList ++ layout.included.map FieldDeclaration.type

theorem mem_members_iff {layout : Layout} {member : TypeExpr} :
    member ∈ layout.members ↔
      layout.elem? = some member ∨ ∃ field ∈ layout.included, field.type = member := by
  simp [members]

theorem members_eq_nil {layout : Layout} (isReference : layout.isReference = true) :
    layout.members = [] := by
  cases layout with
  | marker kind => rfl
  | _ => cases isReference

/-- The layout without its excluded fields. -/
def withoutExcluded : Layout → Layout
  | struct fields => struct (fields.filter fun field => !field.isExcluded)
  | layout => layout

@[simp] theorem kind_withoutExcluded (layout : Layout) :
    layout.withoutExcluded.kind = layout.kind := by
  cases layout <;> rfl

@[simp] theorem isReference_withoutExcluded (layout : Layout) :
    layout.withoutExcluded.isReference = layout.isReference := by
  cases layout <;> rfl

/-- Layouts that differ in excluded fields only are equal, or both lay out a struct. -/
theorem eq_or_struct_of_withoutExcluded
    {layout layout' : Layout} (same : layout'.withoutExcluded = layout.withoutExcluded) :
    layout' = layout ∨ ∃ fields fields', layout = struct fields ∧ layout' = struct fields' ∧
      (fields'.filter fun field => !field.isExcluded) =
        fields.filter fun field => !field.isExcluded := by
  cases layout with
  | struct fields =>
      cases layout' with
      | struct fields' => exact .inr ⟨fields, fields', rfl, rfl, Layout.struct.inj same⟩
      | _ => cases same
  | _ =>
      cases layout' with
      | struct fields' => cases same
      | _ => exact .inl same

end TypedObject.Layout
