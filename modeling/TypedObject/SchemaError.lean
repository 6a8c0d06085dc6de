import TypedObject.Declaration.Tag
import TypedObject.Declaration.TypeExpr
import TypedObject.Identifier

/-!
# What can go wrong with schemas

One type for the causes, from declaring types through decoding schemas and registries to reading
values, and one function for their wording.
-/

namespace TypedObject

/-- What an operation on a view or value can be applied to. -/
inductive Expectation where
  | elementHolder
  | counted
  | sequence
  | struct
  | bool
  | signed
  | unsigned
  | float
  | string
  | byteSlice
  | reference
  | referenceList
  | dynamicReference
  deriving DecidableEq, Repr

def Expectation.text : Expectation → String
  | .elementHolder => "array, slice or typed reference"
  | .counted => "array, slice, string or reference list"
  | .sequence => "array or slice"
  | .struct => "struct"
  | .bool => "bool"
  | .signed => "signed integer"
  | .unsigned => "unsigned integer"
  | .float => "float"
  | .string => "string"
  | .byteSlice => "[]uint8"
  | .reference => "reference"
  | .referenceList => "reference list"
  | .dynamicReference => "dynamic reference"

/-- Causes of failure. -/
inductive SchemaError where
  | missingSchema (name : String)
  | missingSchemaRef (reference : SchemaRef)
  | unregisteredType (type : TypeExpr)
  /-- The registry was decoded, so it knows no types. -/
  | notBuildCapable
  | invalidEncodedSchema
  | unexpectedEnd (need available : Nat)
  | invalidSchemaOrData
  | indexOutOfRange (index length : Nat)
  | noSuchField (name : String)
  /-- A dynamic reference has an object and no schema. -/
  | invalidDynamicReference
  | typeMismatch (expected : Expectation) (actual : Kind)
  | invalidUtf8
  | emptyName
  | duplicateName (name : String)
  | duplicateType (type : TypeExpr) (name : String)
  | referenceType (type : TypeExpr)
  | missingReferenceTag (field : String) (reason : Tag.Error)
  /-- A reference marker stands as an element. -/
  | nestedReference (type : TypeExpr)
  /-- A type without a name contains itself. -/
  | recursiveType (type : TypeExpr)
  deriving DecidableEq

def SchemaError.message : SchemaError → String
  | .missingSchema name => "missing schema " ++ Text.quoted name
  | .missingSchemaRef reference => "missing schema " ++ reference.toHex
  | .unregisteredType type => "type " ++ type.text ++ " is not registered"
  | .notBuildCapable => "registry is not build-capable: it was decoded, not declared"
  | .invalidEncodedSchema => "invalid encoded schema"
  | .unexpectedEnd need available =>
    "unexpected end of data: need " ++ toString need ++ " bytes, have " ++ toString available
  | .invalidSchemaOrData => "invalid schema or data"
  | .indexOutOfRange index length =>
    "index out of range: " ++ toString index ++ " (len " ++ toString length ++ ")"
  | .noSuchField name => "no such field: " ++ Text.quoted name
  | .invalidDynamicReference => "invalid dynamic reference"
  | .typeMismatch expected actual =>
    "type mismatch: expected " ++ expected.text ++ ", got " ++ actual.name
  | .invalidUtf8 => "invalid UTF-8 in string value"
  | .emptyName => "empty name"
  | .duplicateName name => "name already registered: " ++ name
  | .duplicateType type name => "type " ++ type.text ++ " already registered as " ++ name
  | .referenceType type => "can't register reference type " ++ type.text
  | .missingReferenceTag field reason =>
    "reference field " ++ field ++ " needs a schema tag: " ++ reason.message
  | .nestedReference type =>
    "reference type " ++ type.text ++ " is not allowed in arrays and slices"
  | .recursiveType type => "recursive type " ++ type.text ++ " must be registered"

end TypedObject
