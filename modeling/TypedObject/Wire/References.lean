import TypedObject.Wire.Reader

/-!
# References on the wire

A reference is the identifier of an object, a list of references is counted, and a dynamic
reference is the identifier of a schema followed by that of an object.
-/

namespace TypedObject

/-- A reference that travels with the identifier of its object's schema. -/
structure DynamicReference where
  schema : SchemaRef
  object : Reference
  deriving DecidableEq

namespace DynamicReference

def isBlank (dynamic : DynamicReference) : Bool :=
  dynamic.schema.isBlank && dynamic.object.isBlank

/-- An object without a schema cannot be interpreted. -/
def isValid (dynamic : DynamicReference) : Bool :=
  !(dynamic.schema.isBlank && !dynamic.object.isBlank)

def encode (dynamic : DynamicReference) : Bytes :=
  dynamic.schema.bytes ++ dynamic.object.bytes

end DynamicReference

namespace Reference

def encodeList (references : List Reference) : Bytes :=
  Wire.count references.length ++ references.flatMap Identifier.bytes

end Reference

namespace Reader

def identifier {family : Family} : Reader (Identifier family) := do
  let bytes ← take 32
  match Digest.ofBytes bytes with
  | .ok digest => return ⟨digest⟩
  | .error _ => fail .invalidSchemaOrData

/-- A counted list of references.  Enough bytes for all of them must be left. -/
def references : Reader (List Reference) := do
  let size ← count
  let bytes ← take (32 * size)
  lift (front (times identifier size) bytes)

def dynamicReference : Reader DynamicReference := do
  let schema ← identifier
  let object ← identifier
  return ⟨schema, object⟩

end Reader

end TypedObject
