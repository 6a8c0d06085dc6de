import TypedObject.Identifier
import TypedObject.Schema.Basic
import TypedObject.Wire.Prefixed

/-!
# The encoding of a schema

A node is written as its reference code, its kind code, its name, its array length, its fields
after their number, and its element.  A nested schema that has a name is written as kind and name
only, so that the encoding of a schema does not grow with the schemas it mentions.
-/

namespace TypedObject.Schema

/-- The common form of every schema.  `fields` and `elem` are encoded already. -/
def node (referenceCode : Nat) (kind : Kind) (name : String) (length : Nat)
    (fields : List Bytes) (elem : Bytes) : Bytes :=
  Wire.word referenceCode ++ Wire.word kind.code ++ Wire.text name ++ Wire.count length
    ++ Wire.count fields.length ++ fields.flatMap Wire.counted ++ Wire.counted elem

def leaf (referenceCode : Nat) (kind : Kind) (name : String) : Bytes :=
  node referenceCode kind name 0 [] []

mutual

/-- A schema inside another: a named one gives only its kind and name. -/
def encodeNested : Schema → Bytes
  | scalar kind name => leaf 0 kind (name.getD "")
  | array (some name) _ _ => leaf 0 .array name
  | array none length elem => node 0 .array "" length [] elem.encodeNested
  | slice (some name) _ => leaf 0 .slice name
  | slice none elem => node 0 .slice "" 0 [] elem.encodeNested
  | struct (some name) _ => leaf 0 .struct name
  | struct none fields => node 0 .struct "" 0 (encodeFields fields) []
  | reference kind target => node kind.code .reference "" 0 [] target.encodeNested
  | openReference kind => leaf kind.code .reference ""
  | placeholder kind name => leaf 0 kind name

def encodeFields : List Field → List Bytes
  | [] => []
  | ⟨name, tag, schema⟩ :: fields =>
    (Wire.text name ++ Wire.text tag ++ Wire.counted schema.encodeNested) :: encodeFields fields

end

/-- A schema in full. -/
def encode : Schema → Bytes
  | scalar kind name => leaf 0 kind (name.getD "")
  | array name length elem => node 0 .array (name.getD "") length [] elem.encodeNested
  | slice name elem => node 0 .slice (name.getD "") 0 [] elem.encodeNested
  | struct name fields => node 0 .struct (name.getD "") 0 (encodeFields fields) []
  | reference kind target => node kind.code .reference "" 0 [] target.encodeNested
  | openReference kind => leaf kind.code .reference ""
  | placeholder kind name => leaf 0 kind name

theorem encodeNested_of_name?_eq_none {schema : Schema} (unnamed : schema.name? = none) :
    schema.encodeNested = schema.encode := by
  cases schema with
  | scalar kind name => rfl
  | array name length elem =>
      cases (unnamed : name = none)
      rfl
  | slice name elem =>
      cases (unnamed : name = none)
      rfl
  | struct name fields =>
      cases (unnamed : name = none)
      rfl
  | reference kind target => rfl
  | openReference kind => rfl
  | placeholder kind name => cases unnamed

theorem encodeNested_of_name?_eq_some {schema : Schema} {name : String}
    (named : schema.name? = some name) : schema.encodeNested = leaf 0 schema.kind name := by
  cases schema with
  | scalar kind name =>
      cases (named : name = _)
      rfl
  | array name length elem =>
      cases (named : name = _)
      rfl
  | slice name elem =>
      cases (named : name = _)
      rfl
  | struct name fields =>
      cases (named : name = _)
      rfl
  | reference kind target => cases named
  | openReference kind => cases named
  | placeholder kind name =>
      cases named
      rfl

def identifier (schema : Schema) : SchemaRef := .ofContent .schema schema.encode

end TypedObject.Schema
