import TypedObject.Registry.Arena
import TypedObject.View.Path

/-!
# Views through slots

Inside an arena a placeholder is followed to the schema in the slot that it holds.  One that holds
no slot, or one outside the arena, leads nowhere.
-/

namespace TypedObject

def SlotField.shape (field : SlotField) : Field := ⟨field.name, field.tag, field.schema.shape⟩

/-- A schema together with the arena that the slots of its placeholders belong to. -/
structure SlotView where
  arena : Arena
  schema : SlotSchema

namespace SlotView

def follow (arena : Arena) : SlotSchema → Except SchemaError SlotView
  | .placeholder found =>
    match found.slot?.bind fun slot => arena.schemas[slot]? with
    | some schema => .ok ⟨arena, schema⟩
    | none => .error (.missingSchema found.name)
  | schema => .ok ⟨arena, schema⟩

def elem (view : SlotView) : Except SchemaError SlotView :=
  match view.schema with
  | .array _ _ elem | .slice _ elem => follow view.arena elem
  | .reference _ target => follow view.arena target
  | schema => .error (.typeMismatch .elementHolder schema.shape.kind)

def fields (view : SlotView) : List SlotField :=
  match view.schema with
  | .struct _ fields => fields
  | _ => []

def ofField (view : SlotView) (field : SlotField) : Except SchemaError SlotView :=
  follow view.arena field.schema

def stepField? (view : SlotView) : View.Step → Option SlotField
  | .elem => none
  | .field index => view.fields[index]?
  | .name name => view.fields.find? fun field => field.name = name

def step (view : SlotView) (step : View.Step) : Except SchemaError (Option SlotView) :=
  match step with
  | .elem => view.elem.map some
  | _ =>
    match view.stepField? step with
    | none => .ok none
    | some field => (view.ofField field).map some

def walk (view : SlotView) : List View.Step → Except SchemaError (Option SlotView)
  | [] => .ok (some view)
  | step :: path => do
    match ← view.step step with
    | none => return none
    | some next => next.walk path

/-- The view of the same schema in the registry of the arena. -/
def shape (types? : Option (List (TypeExpr × String))) (view : SlotView) : View :=
  ⟨view.arena.registry types?, view.schema.shape⟩

end SlotView

def Arena.viewByName (arena : Arena) (name : String) : Except SchemaError SlotView :=
  match (arena.byName.lookup name).bind fun slot => arena.schemas[slot]? with
  | some schema => .ok ⟨arena, schema⟩
  | none => .error (.missingSchema name)

end TypedObject
