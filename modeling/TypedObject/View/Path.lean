import TypedObject.Value.Basic

/-!
# Paths

A path leads from a view to a view inside it, or from a value to one of its parts, step by step.
-/

namespace TypedObject

namespace View

/-- A step from a view to a part of its schema. -/
inductive Step where
  | elem
  | field (index : Nat)
  | name (name : String)
  deriving DecidableEq, Repr

def stepField? (view : View) : Step → Option Field
  | .elem => none
  | .field index => view.fields[index]?
  | .name name => view.fields.find? fun field => field.name = name

/-- Takes one step; there is nothing at a field that the struct does not have. -/
def step (view : View) (step : Step) : Except SchemaError (Option View) :=
  match step with
  | .elem => view.elem.map some
  | _ =>
    match view.stepField? step with
    | none => .ok none
    | some field => (view.ofField field).map some

/-- Takes steps in order, as long as there is something. -/
def walk (view : View) : List Step → Except SchemaError (Option View)
  | [] => .ok (some view)
  | step :: path => do
    match ← view.step step with
    | none => return none
    | some next => next.walk path

end View

namespace Value

inductive Step where
  | index (index : Nat)
  | field (index : Nat)
  | name (name : String)
  deriving DecidableEq, Repr

def step (value : Value) : Step → Except SchemaError Value
  | .index index => value.index index
  | .field index => value.fieldByIndex index
  | .name name => value.fieldByName name

def walk (value : Value) (path : List Step) : Except SchemaError Value := path.foldlM step value

end Value

end TypedObject
