import TypedObject.Proofs.View.Locality
import TypedObject.View.Path

/-!
# Views do not depend on the registered types

A registry that was declared knows its types, and views of it do not look at them:
only the entries count.  Changing the types commutes with every step from a view,
and leaves all sizes as they are.
-/

namespace TypedObject

/-- The same entries with other types. -/
def Registry.retyped (types? : Option (List (TypeExpr × String))) (registry : Registry) :
    Registry :=
  { registry with types? }

namespace View

variable (types? : Option (List (TypeExpr × String)))

def retyped (view : View) : View := ⟨view.registry.retyped types?, view.schema⟩

@[simp] theorem schema_retyped (view : View) : (view.retyped types?).schema = view.schema := rfl

theorem follow_retyped (registry : Registry) (schema : Schema) :
    follow (registry.retyped types?) schema = (follow registry schema).map (retyped types?) := by
  cases schema with
  | placeholder kind name =>
      have same : (registry.retyped types?).schemaByName name = registry.schemaByName name := rfl
      simp only [follow, same]
      cases registry.schemaByName name <;> rfl
  | _ => rfl

theorem viewByName_retyped (registry : Registry) (name : String) :
    (registry.retyped types?).viewByName name =
      (registry.viewByName name).map (retyped types?) := by
  have same : (registry.retyped types?).schemaByName name = registry.schemaByName name := rfl
  simp only [Registry.viewByName, same]
  cases registry.schemaByName name <;> rfl

theorem viewByReference_retyped (registry : Registry) (reference : SchemaRef) :
    (registry.retyped types?).viewByReference reference =
      (registry.viewByReference reference).map (retyped types?) := by
  have same : (registry.retyped types?).schemaByReference reference =
      registry.schemaByReference reference := rfl
  simp only [Registry.viewByReference, same]
  cases registry.schemaByReference reference <;> rfl

theorem elem_retyped (view : View) :
    (view.retyped types?).elem = view.elem.map (retyped types?) := by
  obtain ⟨registry, schema⟩ := view
  cases schema with
  | array name length elem => apply follow_retyped
  | slice name elem => apply follow_retyped
  | reference kind target => apply follow_retyped
  | _ => rfl

theorem ofField_retyped (view : View) (field : Field) :
    (view.retyped types?).ofField field = (view.ofField field).map (retyped types?) := by
  apply follow_retyped

theorem step_retyped (view : View) (step : Step) :
    (view.retyped types?).step step = (view.step step).map (Option.map (retyped types?)) := by
  have sameField : (view.retyped types?).stepField? step = view.stepField? step := by
    cases step <;> rfl
  unfold View.step
  rw [sameField, elem_retyped]
  cases step with
  | elem => cases view.elem <;> rfl
  | _ =>
      cases view.stepField? _ with
      | none => rfl
      | some field =>
          simp only [ofField_retyped]
          cases view.ofField field <;> rfl

theorem walk_retyped (view : View) (path : List Step) :
    (view.retyped types?).walk path = (view.walk path).map (Option.map (retyped types?)) := by
  induction path generalizing view with
  | nil => rfl
  | cons step path induction =>
      unfold walk
      rw [step_retyped]
      cases view.step step with
      | error error => rfl
      | ok next =>
          cases next with
          | none => rfl
          | some next => exact induction next

theorem fixedSize?_retyped (view : View) :
    (view.retyped types?).fixedSize? = view.fixedSize? :=
  fixedSize?_of_sameBelow fun _ _ => rfl

theorem size_retyped (view : View) : (view.retyped types?).size = view.size :=
  size_of_sameBelow fun _ _ => rfl

theorem sizeOfFields_retyped (view : View) (fields : List Field) (bytes : Bytes) :
    sizeOfFields size (view.retyped types?) fields bytes = sizeOfFields size view fields bytes := by
  apply sizeOfFields_of_sameBelow
  · exact fun _ _ _ _ => rfl
  · exact fun _ same => size_of_sameBelow same

end View

end TypedObject
