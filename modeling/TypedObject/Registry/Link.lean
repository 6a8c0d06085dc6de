import TypedObject.Registry.Arena

/-!
# Linking entries

Entries become a registry in an arena.  When every placeholder there is resolved, the registry is
what the arena holds under the names.
-/

namespace TypedObject.Entries

/-- Puts entries into an arena and resolves every placeholder there. -/
def finalize (entries : Entries) : Except SchemaError Arena := do
  let arena ← Arena.ofEntries entries
  arena.link

def link (entries : Entries) (types? : Option (List (TypeExpr × String))) :
    Except SchemaError Registry :=
  entries.finalize.map (·.registry types?)

end TypedObject.Entries

namespace TypedObject.Registry

def entriesOf (registrar : Registrar) : List (TypeExpr × String) → Except SchemaError Entries
  | [] => .ok []
  | (type, name) :: rest => do
    let schema ← registrar.schemaOf type
    let others ← entriesOf registrar rest
    return (name, schema) :: others

def ofRegistrar (registrar : Registrar) : Except SchemaError Registry := do
  let entries ← entriesOf registrar registrar.entries
  entries.link (some registrar.entries)

def declare (declarations : Declarations) (registrations : List (TypeExpr × String)) :
    Except SchemaError Registry := do
  let registrar ← (Registrar.empty declarations).registerAll registrations
  ofRegistrar registrar

/-- Declares a registry of the types whose registration is accepted; failures do not matter. -/
def declareAccepted (declarations : Declarations) (registrations : List (TypeExpr × String)) :
    Except SchemaError Registry :=
  ofRegistrar ((Registrar.empty declarations).attemptAll registrations)

end TypedObject.Registry
