import TypedObject.Json
import TypedObject.Registry.Decode
import TypedObject.Report.Error
import TypedObject.Text.Column
import TypedObject.Value.Traversal

/-!
# How large a value is

The size of the value at the front of some bytes, how many bytes there are, and the size of each
field when the value is a struct.
-/

namespace TypedObject

structure FieldSize where
  name : String
  kind : Kind
  size : Nat

/-- How large a value is. -/
structure SizeReport where
  text : String
  size : Nat
  available : Nat
  fields : List FieldSize

namespace SizeReport

/-- A step that notes the sizes of fields, last first. -/
abbrev Measuring := ExceptT SchemaError (StateM (List FieldSize))

def note (name : String) (value : Value) : Measuring Unit := do
  let data ← Value.settle value.data
  modify fun fields => ⟨name, value.kind, data.length⟩ :: fields

/-- The sizes of the fields of a struct; nothing for other values. -/
def fieldSizes (value : Value) : Except SchemaError (List FieldSize) :=
  if value.view.fields.isEmpty then .ok []
  else
    match (value.forFields note : Measuring Unit).run.run [] with
    | (.ok (), fields) => .ok fields.reverse
    | (.error error, _) => .error error

def ofBytes (registry : Bytes) (name : String) (data : Bytes) :
    Except ReportError SizeReport :=
  match Registry.decode registry with
  | .error cause => .error (.registry cause)
  | .ok registry =>
    match registry.viewByName name with
    | .error cause => .error (.schema cause)
    | .ok view =>
      match view.size data with
      | .error cause => .error (.measuring name cause)
      | .ok size =>
        match fieldSizes ⟨view, data⟩ with
        | .error cause => .error (.schema cause)
        | .ok fields => .ok ⟨view.text, size, data.length, fields⟩

def isExact (report : SizeReport) : Bool := report.size = report.available

def json (report : SizeReport) : Json :=
  .object [
    ("schema", .string report.text),
    ("size", .number report.size),
    ("data_len", .number report.available),
    ("exact", .bool report.isExact),
    ("fields", .array (report.fields.map fun field => .object [
      ("name", .string field.name),
      ("kind", .string field.kind.name),
      ("size", .number field.size)]))]

def lines (report : SizeReport) : List String :=
  let status :=
    if report.isExact then "exact"
    else toString (report.available - report.size) ++ " trailing bytes"
  report.text ::
    ("  size " ++ toString report.size ++ " of " ++ toString report.available ++ " bytes ("
      ++ status ++ ")") ::
    report.fields.map fun field =>
      "  " ++ Text.padded 16 field.name ++ " " ++ Text.padded 10 field.kind.name ++ " " ++
        toString field.size

end SizeReport

end TypedObject
