import TypedObject.Schema.Basic
import TypedObject.Wire.Reader

/-!
# Reading an encoded schema

A node is first read as it is written, with its fields, and only then is it checked what schema
it makes: which of name, length, fields and element must be present, and which absent, depends on
the kind and on whether the node is a reference.  Below the root a named node is a placeholder.
Nodes more than 128 levels below the root are refused.
-/

namespace TypedObject.Schema

/-- The deepest level below the root at which a node is accepted. -/
def nestingLimit : Nat := 128

/-- A node as it is written: its fields are read, its element is not. -/
structure RawNode where
  reference? : Option ReferenceKind
  kind : Kind
  name : String
  length : Nat
  fields : List Field
  elem : Bytes

namespace RawNode

def name? (node : RawNode) : Option String :=
  if node.name = "" then none else some node.name

def isBare (node : RawNode) : Bool := node.length = 0 && node.fields.isEmpty

def isLeaf (node : RawNode) : Bool := node.isBare && node.elem.isEmpty

end RawNode

def readCodes : Reader (Option ReferenceKind × Kind) := do
  let referenceCode ← Reader.word
  let reference? ← match ReferenceKind.ofCode referenceCode with
    | .notReference => pure none
    | .known kind => pure (some kind)
    | .unknown => Reader.fail .invalidEncodedSchema
  let kindCode ← Reader.word
  match Kind.ofCode? kindCode with
  | some kind => return (reference?, kind)
  | none => Reader.fail .invalidEncodedSchema

def readField (readNested : Bytes → Except SchemaError Schema) : Reader Field := do
  let name ← Reader.text
  let tag ← Reader.text
  let nested ← Reader.counted
  let schema ← Reader.lift (readNested nested)
  return ⟨name, tag, schema⟩

def readNode (readNested : Bytes → Except SchemaError Schema) : Reader RawNode := do
  let (reference?, kind) ← readCodes
  let name ← Reader.text
  let length ← Reader.count
  let fieldCount ← Reader.count
  let fields ← Reader.times
    (do
      let field ← Reader.counted
      Reader.lift (Reader.whole (readField readNested) field))
    fieldCount
  let elem ← Reader.counted
  return { reference?, kind, name, length, fields, elem }

def ofReferenceNode (readNested : Bytes → Except SchemaError Schema)
    (referenceKind : ReferenceKind) (node : RawNode) : Except SchemaError Schema :=
  if node.kind ≠ .reference ∨ node.name ≠ "" ∨ node.isBare = false then
    .error .invalidEncodedSchema
  else
    match referenceKind with
    | .dynamic =>
      if node.elem.isEmpty then .ok (openReference .dynamic) else .error .invalidEncodedSchema
    | .single | .slice => do
      let target ← readNested node.elem
      if target.isPlaceholder then .ok (reference referenceKind target)
      else .error .invalidEncodedSchema

/-- The element of an array or slice, which must not be a reference. -/
def readElem (readNested : Bytes → Except SchemaError Schema) (elem : Bytes) :
    Except SchemaError Schema := do
  let schema ← readNested elem
  if schema.isReference then .error .invalidEncodedSchema else .ok schema

def ofFullNode (readNested : Bytes → Except SchemaError Schema) (node : RawNode) :
    Except SchemaError Schema :=
  match node.kind with
  | .reference => .error .invalidEncodedSchema
  | .array =>
    if node.fields.isEmpty && !node.elem.isEmpty then do
      let elem ← readElem readNested node.elem
      return array node.name? node.length elem
    else .error .invalidEncodedSchema
  | .slice =>
    if node.isBare && !node.elem.isEmpty then do
      let elem ← readElem readNested node.elem
      return slice node.name? elem
    else .error .invalidEncodedSchema
  | .struct =>
    if node.length = 0 && node.elem.isEmpty then .ok (struct node.name? node.fields)
    else .error .invalidEncodedSchema
  | kind =>
    if node.isLeaf then .ok (scalar kind node.name?) else .error .invalidEncodedSchema

/-- The schema that a node makes.  Below the root a name makes it a placeholder. -/
def ofNode (isRoot : Bool) (readNested : Bytes → Except SchemaError Schema) (node : RawNode) :
    Except SchemaError Schema :=
  match node.reference? with
  | some referenceKind => ofReferenceNode readNested referenceKind node
  | none =>
    match isRoot, node.name? with
    | false, some name =>
      if node.isLeaf && node.kind ≠ .reference then .ok (placeholder node.kind name)
      else .error .invalidEncodedSchema
    | _, _ => ofFullNode readNested node

/-- Reads a schema of at most `levels` levels of nodes. -/
def decodeWithin : (levels : Nat) → (isRoot : Bool) → Bytes → Except SchemaError Schema
  | 0, _, _ => .error .invalidEncodedSchema
  | levels + 1, isRoot, bytes => do
    let node ← Reader.whole (readNode (decodeWithin levels false)) bytes
    ofNode isRoot (decodeWithin levels false) node

def decode (bytes : Bytes) : Except SchemaError Schema :=
  decodeWithin (nestingLimit + 1) true bytes

end TypedObject.Schema
