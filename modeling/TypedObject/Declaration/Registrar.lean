import TypedObject.Declaration.Layout
import TypedObject.SchemaError

/-!
# Registering types

A registrar collects which types are registered under which names.  Names and types are each
registered at most once, and a reference marker not at all.
-/

namespace TypedObject

/-- Declarations, and the types registered so far in the order of registration. -/
structure Registrar where
  declarations : Declarations
  entries : List (TypeExpr × String)
  deriving DecidableEq

namespace Registrar

def empty (declarations : Declarations) : Registrar := ⟨declarations, []⟩

def layout (registrar : Registrar) (type : TypeExpr) : Layout :=
  registrar.declarations.layout type

def name? (registrar : Registrar) (type : TypeExpr) : Option String :=
  registrar.entries.lookup type

def register (registrar : Registrar) (type : TypeExpr) (name : String) :
    Except SchemaError Registrar :=
  if name = "" then .error .emptyName
  else if (registrar.layout type).isReference then .error (.referenceType type)
  else if registrar.entries.any (fun entry => entry.2 = name) then .error (.duplicateName name)
  else
    match registrar.name? type with
    | some existing => .error (.duplicateType type existing)
    | none => .ok { registrar with entries := registrar.entries ++ [(type, name)] }

def registerAll (registrar : Registrar) :
    List (TypeExpr × String) → Except SchemaError Registrar
  | [] => .ok registrar
  | (type, name) :: rest => do
    let registrar ← registrar.register type name
    registrar.registerAll rest

/-- Tries to register a type.  A failure leaves the registrar as it was. -/
def attempt (registrar : Registrar) (type : TypeExpr) (name : String) :
    Except SchemaError Unit × Registrar :=
  match registrar.register type name with
  | .ok registrar => (.ok (), registrar)
  | .error error => (.error error, registrar)

/-- Tries to register types in order.  Every attempt is given with the registrar after it. -/
def attempts (registrar : Registrar) :
    List (TypeExpr × String) → List (Except SchemaError Unit × Registrar)
  | [] => []
  | (type, name) :: rest =>
    let attempt := registrar.attempt type name
    attempt :: attempt.2.attempts rest

def attemptAll (registrar : Registrar) : List (TypeExpr × String) → Registrar
  | [] => registrar
  | (type, name) :: rest => (registrar.attempt type name).2.attemptAll rest

end Registrar

end TypedObject
