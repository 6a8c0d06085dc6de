import TypedObject.Json
import TypedObject.Registry.Decode
import TypedObject.Report.Error

/-!
# What a registry holds

The identifier of a registry and, for each of its schemas in the order of the names, the schema's
identifier, kind and description.
-/

namespace TypedObject

structure SchemaSummary where
  name : String
  reference : SchemaRef
  kind : Kind
  text : String

structure RegistryReport where
  reference : RegistryRef
  schemas : List SchemaSummary

namespace RegistryReport

def ofBytes (bytes : Bytes) : Except ReportError RegistryReport :=
  match Registry.decode bytes with
  | .error cause => .error (.registry cause)
  | .ok registry =>
    .ok {
      reference := registry.reference
      schemas := registry.entries.map fun entry =>
        ⟨entry.2.name?.getD "", entry.2.identifier, entry.2.kind, entry.2.text⟩ }

def json (report : RegistryReport) : Json :=
  .object [
    ("reference", .string report.reference.toHex),
    ("schemas", .array (report.schemas.map fun schema => .object [
      ("name", .string schema.name),
      ("reference", .string schema.reference.toHex),
      ("kind", .string schema.kind.name),
      ("schema", .string schema.text)]))]

def lines (report : RegistryReport) : List String :=
  ("Registry " ++ report.reference.toHex) ::
    ("  " ++ toString report.schemas.length ++ " schemas") ::
    report.schemas.map fun schema =>
      "  " ++ schema.reference.short ++ "  " ++ schema.kind.name ++ "  " ++ schema.text

end RegistryReport

end TypedObject
