import TypedObject.View.Size
import TypedObject.Wire.References

/-!
# Values

A value is a view together with bytes that begin with an encoding of the schema.  Nothing is
decoded before it is asked for.  Parts are cut out with the size that the schema gives them, so
a part holds exactly its own bytes.
-/

namespace TypedObject

/-- Bytes that begin with a value of the view's schema. -/
structure Value where
  view : View
  bytes : Bytes

namespace Value

/-- Runs a reader at the front of a value, where short bytes are bad data and no short input. -/
def read {α : Type} (value : Value) (reader : Reader α) : Except SchemaError α :=
  match Reader.front reader value.bytes with
  | .error (.unexpectedEnd _ _) => .error .invalidSchemaOrData
  | result => result

def kind (value : Value) : Kind := value.view.kind

def data (value : Value) : Except SchemaError Bytes := do
  let size ← value.view.size value.bytes
  return value.bytes.take size

def mismatch {α : Type} (value : Value) (expected : Expectation) : Except SchemaError α :=
  .error (.typeMismatch expected value.kind)

/-- The value at the front of the bytes, with the bytes cut to its size. -/
def cut (view : View) (bytes : Bytes) : Except SchemaError Value := do
  let size ← view.size bytes
  return ⟨view, bytes.take size⟩

def restFrom (value : Value) (offset : Nat) : Except SchemaError Bytes :=
  if Bytes.isShorter value.bytes offset then .error .invalidSchemaOrData
  else .ok (value.bytes.drop offset)

/-- The number of elements of an array, slice or list of references; of a string, the number of
bytes. -/
def length (value : Value) : Except SchemaError Nat :=
  match value.view.schema with
  | .array _ length _ => .ok length
  | .slice _ _ | .scalar .string _ | .reference .slice _ | .openReference .slice =>
    value.read Reader.count
  | _ => value.mismatch .counted

def isEmpty (value : Value) : Except SchemaError Bool := do
  let length ← value.length
  return length = 0

/-- The view of the elements of an array or slice, their number, and where the first begins. -/
def sequence (value : Value) : Except SchemaError (View × Nat × Nat) :=
  match value.view.schema with
  | .array _ length _ => do
    let elem ← value.view.elem
    return (elem, length, 0)
  | .slice _ _ => do
    let elem ← value.view.elem
    let count ← value.read Reader.count
    return (elem, count, Wire.countSize)
  | _ => value.mismatch .sequence

def offsetOf (value : Value) (elem : View) (index start : Nat) : Except SchemaError Nat :=
  match elem.fixedSize? with
  | some size => View.offset (Offset.ofItem? index size start)
  | none => do
    let size ← View.sizeOfRun elem.size index (value.bytes.drop start)
    return start + size

def index (value : Value) (index : Nat) : Except SchemaError Value := do
  let (elem, length, start) ← value.sequence
  if length ≤ index then .error (.indexOutOfRange index length)
  else do
    let offset ← value.offsetOf elem index start
    let rest ← value.restFrom offset
    cut elem rest

def expectStruct (value : Value) : Except SchemaError Unit :=
  if value.kind = .struct then .ok () else value.mismatch .struct

def fieldCount (value : Value) : Except SchemaError Nat := do
  value.expectStruct
  return value.view.fields.length

def fieldNames (value : Value) : Except SchemaError (List String) := do
  value.expectStruct
  return value.view.fields.map Field.name

def fieldByIndex (value : Value) (index : Nat) : Except SchemaError Value := do
  value.expectStruct
  match value.view.fields[index]? with
  | none => .error (.indexOutOfRange index value.view.fields.length)
  | some field =>
    let offset ← View.sizeOfFields View.size value.view (value.view.fields.take index) value.bytes
    let part ← value.view.ofField field
    let rest ← value.restFrom offset
    cut part rest

def fieldByName (value : Value) (name : String) : Except SchemaError Value := do
  value.expectStruct
  match value.view.fieldIndex? name with
  | none => .error (.noSuchField name)
  | some index => value.fieldByIndex index

def front (value : Value) (width : Nat) : Except SchemaError Bytes :=
  if Bytes.isShorter value.bytes width then .error .invalidSchemaOrData
  else .ok (value.bytes.take width)

/-- A truth value: any byte but zero is true. -/
def bool (value : Value) : Except SchemaError Bool :=
  match value.kind with
  | .bool => do
    let bytes ← value.front 1
    return Bytes.toNat bytes ≠ 0
  | _ => value.mismatch .bool

def int (value : Value) : Except SchemaError Int :=
  match value.kind with
  | .int8 => do return Bytes.toInt (← value.front 1)
  | .int16 => do return Bytes.toInt (← value.front 2)
  | .int32 => do return Bytes.toInt (← value.front 4)
  | .int64 => do return Bytes.toInt (← value.front 8)
  | _ => value.mismatch .signed

def uint (value : Value) : Except SchemaError Nat :=
  match value.kind with
  | .uint8 => do return Bytes.toNat (← value.front 1)
  | .uint16 => do return Bytes.toNat (← value.front 2)
  | .uint32 => do return Bytes.toNat (← value.front 4)
  | .uint64 => do return Bytes.toNat (← value.front 8)
  | _ => value.mismatch .unsigned

def float (value : Value) : Except SchemaError Float :=
  match value.kind with
  | .float32 => do
    let bytes ← value.front 4
    return (Float32.ofBits (UInt32.ofNat (Bytes.toNat bytes))).toFloat
  | .float64 => do
    let bytes ← value.front 8
    return Float.ofBits (UInt64.ofNat (Bytes.toNat bytes))
  | _ => value.mismatch .float

def string (value : Value) : Except SchemaError String :=
  match value.kind with
  | .string => value.read Reader.text
  | _ => value.mismatch .string

def byteSlice (value : Value) : Except SchemaError Bytes :=
  match value.kind, value.view.elem with
  | .slice, .ok elem =>
    if elem.kind = .uint8 then value.read Reader.counted else value.mismatch .byteSlice
  | _, _ => value.mismatch .byteSlice

def reference (value : Value) : Except SchemaError Reference :=
  match value.view.referenceKind? with
  | some .single => value.read Reader.identifier
  | _ => value.mismatch .reference

def references (value : Value) : Except SchemaError (List Reference) :=
  match value.view.referenceKind? with
  | some .slice => value.read Reader.references
  | _ => value.mismatch .referenceList

/-- A dynamic reference, which must not name an object without its schema. -/
def dynamic (value : Value) : Except SchemaError DynamicReference :=
  match value.view.referenceKind? with
  | some .dynamic => do
    let dynamic ← value.read Reader.dynamicReference
    if dynamic.isValid then .ok dynamic else .error .invalidDynamicReference
  | _ => value.mismatch .dynamicReference

/-- The schema of the objects that a reference names.  A dynamic reference carries its
identifier. -/
def targetView (value : Value) : Except SchemaError View :=
  match value.view.referenceKind? with
  | some .dynamic => do
    let dynamic ← value.dynamic
    value.view.registry.viewByReference dynamic.schema
  | some _ => value.view.elem
  | none => value.mismatch .reference

def summary (value : Value) : String :=
  "Value(" ++ value.view.text ++ ", " ++ toString value.bytes.length ++ " bytes)"

end Value

end TypedObject
