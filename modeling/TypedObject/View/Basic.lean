import TypedObject.Registry.Link

/-!
# Views

A view is a schema seen inside its registry.  Going from a schema to one of its parts follows
placeholders to the entries that they name, so a view of a linked registry is never a placeholder.
-/

namespace TypedObject

/-- A schema together with the registry that its placeholders refer to. -/
structure View where
  registry : Registry
  schema : Schema

namespace View

/-- The view of a part: a placeholder leads to the schema registered under its name. -/
def follow (registry : Registry) : Schema → Except SchemaError View
  | .placeholder _ name => (registry.schemaByName name).map (View.mk registry)
  | schema => .ok ⟨registry, schema⟩

def kind (view : View) : Kind := view.schema.kind

def name? (view : View) : Option String := view.schema.name?

def referenceKind? (view : View) : Option ReferenceKind := view.schema.referenceKind?

def elem (view : View) : Except SchemaError View :=
  match view.schema with
  | .array _ _ elem | .slice _ elem => follow view.registry elem
  | .reference _ target => follow view.registry target
  | schema => .error (.typeMismatch .elementHolder schema.kind)

def arrayLength? (view : View) : Option Nat :=
  match view.schema with
  | .array _ length _ => some length
  | _ => none

/-- The fields of a struct in order; empty for other schemas. -/
def fields (view : View) : List Field := view.schema.fields

def ofField (view : View) (field : Field) : Except SchemaError View :=
  follow view.registry field.schema

def fieldIndex? (view : View) (name : String) : Option Nat :=
  view.fields.findIdx? fun field => field.name = name

def encode (view : View) : Bytes := view.schema.encode

def identifier (view : View) : SchemaRef := view.schema.identifier

def text (view : View) : String := view.schema.text

def summary (view : View) : String := "SchemaView(" ++ view.text ++ ")"

end View

namespace Field

def summary (field : Field) : String :=
  "FieldView(" ++ field.name ++ " " ++ field.schema.text ++ ")"

end Field

namespace Registry

/-- The view of the schema registered under a name. -/
def viewByName (registry : Registry) (name : String) : Except SchemaError View :=
  (registry.schemaByName name).map (View.mk registry)

def viewByReference (registry : Registry) (reference : SchemaRef) : Except SchemaError View :=
  (registry.schemaByReference reference).map (View.mk registry)

end Registry

end TypedObject
