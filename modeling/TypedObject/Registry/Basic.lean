import TypedObject.Declaration.Build
import TypedObject.Schema.Encode
import TypedObject.Schema.Text

/-!
# Registries

A registry is an immutable set of named schemas, kept in the order of the names.  Its canonical
encoding is the list of its entries in that order, and its identifier the digest of that encoding.
A registry that was declared also knows which types its entries describe; one that was decoded
does not.
-/

namespace TypedObject

abbrev Entries := List (String × Schema)

/-- A set of named schemas in the order of their names. -/
structure Registry where
  entries : Entries
  /-- The registered types with their names, when the registry was declared. -/
  types? : Option (List (TypeExpr × String))

namespace Entries

/-- Puts an entry in front of the first entry whose name is not smaller. -/
def insert (entry : String × Schema) : Entries → Entries
  | [] => [entry]
  | other :: rest =>
    if entry.1 ≤ other.1 then entry :: other :: rest else other :: insert entry rest

def sorted : Entries → Entries
  | [] => []
  | entry :: rest => insert entry (sorted rest)

/-- The canonical form: the number of entries, then each name and schema. -/
def encode (entries : Entries) : Bytes :=
  Wire.count entries.length ++
    entries.flatMap fun entry => Wire.text entry.1 ++ Wire.counted entry.2.encode

end Entries

namespace Registry

def encode (registry : Registry) : Bytes := registry.entries.encode

def reference (registry : Registry) : RegistryRef := .ofContent .registry registry.encode

def names (registry : Registry) : List String := registry.entries.map (·.1)

def size (registry : Registry) : Nat := registry.entries.length

def isEmpty (registry : Registry) : Bool := registry.entries.isEmpty

def isBuildCapable (registry : Registry) : Bool := registry.types?.isSome

def schema? (registry : Registry) (name : String) : Option Schema :=
  registry.entries.lookup name

def schemaByName (registry : Registry) (name : String) : Except SchemaError Schema :=
  match registry.schema? name with
  | some schema => .ok schema
  | none => .error (.missingSchema name)

def schemaByReference (registry : Registry) (reference : SchemaRef) :
    Except SchemaError Schema :=
  match registry.entries.find? (fun entry => entry.2.identifier = reference) with
  | some entry => .ok entry.2
  | none => .error (.missingSchemaRef reference)

def schemaByType (registry : Registry) (type : TypeExpr) : Except SchemaError Schema :=
  match registry.types? with
  | none => .error .notBuildCapable
  | some types =>
    match types.lookup type with
    | some name => registry.schemaByName name
    | none => .error (.unregisteredType type)

def schemaReference (registry : Registry) (name : String) : Except SchemaError SchemaRef :=
  (registry.schemaByName name).map Schema.identifier

def text (registry : Registry) : String :=
  "registry " ++ registry.reference.toHex ++ "\n" ++
    String.join (registry.entries.map fun entry =>
      "  " ++ entry.1 ++ ": " ++ entry.2.text ++ "\n")

def summary (registry : Registry) : String :=
  "Registry \x7b reference: " ++ registry.reference.summary ++ ", names: ["
    ++ String.intercalate ", " (registry.names.map Text.quoted) ++ "], build_capable: "
    ++ toString registry.isBuildCapable ++ " \x7d"

end Registry

end TypedObject
