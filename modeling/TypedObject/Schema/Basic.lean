import TypedObject.Kind

/-!
# Schemas

A schema describes the encoding of values as a tree.  A schema of a registered type carries the
name of the type; inside another schema it is represented by a placeholder that has its kind and
name only.  Reference schemas point at such a placeholder, or at nothing when the schema of the
object travels with the value.
-/

namespace TypedObject

mutual

/-- The shape of a value. -/
inductive Schema where
  | scalar (kind : Kind) (name : Option String)
  | array (name : Option String) (length : Nat) (elem : Schema)
  | slice (name : Option String) (elem : Schema)
  | struct (name : Option String) (fields : List Field)
  | reference (kind : ReferenceKind) (target : Schema)
  /-- A reference that names no target schema. -/
  | openReference (kind : ReferenceKind)
  /-- Stands for the schema registered under the name. -/
  | placeholder (kind : Kind) (name : String)

structure Field where
  name : String
  tag : String
  schema : Schema

end

mutual

def Schema.decEq : (left right : Schema) → Decidable (left = right)
  | .scalar kind name, .scalar kind' name' =>
    decidable_of_iff (kind = kind' ∧ name = name') (by simp)
  | .array name length elem, .array name' length' elem' =>
    have := Schema.decEq elem elem'
    decidable_of_iff (name = name' ∧ length = length' ∧ elem = elem') (by simp)
  | .slice name elem, .slice name' elem' =>
    have := Schema.decEq elem elem'
    decidable_of_iff (name = name' ∧ elem = elem') (by simp)
  | .struct name fields, .struct name' fields' =>
    have := Field.decEqList fields fields'
    decidable_of_iff (name = name' ∧ fields = fields') (by simp)
  | .reference kind target, .reference kind' target' =>
    have := Schema.decEq target target'
    decidable_of_iff (kind = kind' ∧ target = target') (by simp)
  | .openReference kind, .openReference kind' => decidable_of_iff (kind = kind') (by simp)
  | .placeholder kind name, .placeholder kind' name' =>
    decidable_of_iff (kind = kind' ∧ name = name') (by simp)
  | .scalar .., .array .. | .scalar .., .slice .. | .scalar .., .struct ..
  | .scalar .., .reference .. | .scalar .., .openReference .. | .scalar .., .placeholder ..
  | .array .., .scalar .. | .array .., .slice .. | .array .., .struct ..
  | .array .., .reference .. | .array .., .openReference .. | .array .., .placeholder ..
  | .slice .., .scalar .. | .slice .., .array .. | .slice .., .struct ..
  | .slice .., .reference .. | .slice .., .openReference .. | .slice .., .placeholder ..
  | .struct .., .scalar .. | .struct .., .array .. | .struct .., .slice ..
  | .struct .., .reference .. | .struct .., .openReference .. | .struct .., .placeholder ..
  | .reference .., .scalar .. | .reference .., .array .. | .reference .., .slice ..
  | .reference .., .struct .. | .reference .., .openReference .. | .reference .., .placeholder ..
  | .openReference .., .scalar .. | .openReference .., .array .. | .openReference .., .slice ..
  | .openReference .., .struct .. | .openReference .., .reference ..
  | .openReference .., .placeholder ..
  | .placeholder .., .scalar .. | .placeholder .., .array .. | .placeholder .., .slice ..
  | .placeholder .., .struct .. | .placeholder .., .reference ..
  | .placeholder .., .openReference .. => isFalse nofun

def Field.decEqList : (left right : List Field) → Decidable (left = right)
  | [], [] => isTrue rfl
  | [], _ :: _ => isFalse nofun
  | _ :: _, [] => isFalse nofun
  | ⟨name, tag, schema⟩ :: fields, ⟨name', tag', schema'⟩ :: fields' =>
    have := Schema.decEq schema schema'
    have := Field.decEqList fields fields'
    decidable_of_iff ((name = name' ∧ tag = tag' ∧ schema = schema') ∧ fields = fields') (by simp)

end

instance : DecidableEq Schema := Schema.decEq

instance : DecidableEq Field := fun left right =>
  decidable_of_iff (left.name = right.name ∧ left.tag = right.tag ∧ left.schema = right.schema)
    (by cases left; cases right; simp)

namespace Schema

def kind : Schema → Kind
  | scalar kind _ => kind
  | array .. => .array
  | slice .. => .slice
  | struct .. => .struct
  | reference .. | openReference .. => .reference
  | placeholder kind _ => kind

/-- The name of the registered type; references never have one. -/
def name? : Schema → Option String
  | scalar _ name | array name _ _ | slice name _ | struct name _ => name
  | reference .. | openReference .. => none
  | placeholder _ name => some name

def isRegistered (schema : Schema) : Bool := schema.name?.isSome

/-- How a reference schema points at objects. -/
def referenceKind? : Schema → Option ReferenceKind
  | reference kind _ | openReference kind => some kind
  | _ => none

def isReference (schema : Schema) : Bool := schema.referenceKind?.isSome

def isPlaceholder : Schema → Bool
  | placeholder .. => true
  | _ => false

def fields : Schema → List Field
  | struct _ fields => fields
  | _ => []

def referenceTo (kind : ReferenceKind) (target : String) : Schema :=
  reference kind (placeholder .struct target)

end Schema

end TypedObject
