import TypedObject.Declaration.Tag
import TypedObject.Declaration.TypeExpr

/-!
# Declared layouts

A declaration gives a type its layout: what it consists of, in terms of other types.  The scalar,
marker, slice and array expressions are their own layout; a declared type has the layout of its
declaration, and one that nobody declared has no fields.
-/

namespace TypedObject

structure FieldDeclaration where
  name : String
  tag : String
  type : TypeExpr
  /-- A private field is no part of the encoding. -/
  isPrivate : Bool
  deriving DecidableEq, Repr

namespace FieldDeclaration

/-- The name of fields that never take part in the encoding. -/
def ignoredName : String := "_"

def isExcluded (field : FieldDeclaration) : Bool :=
  field.isPrivate || field.name = ignoredName || Tag.excludes field.tag

def reference (name target : String) : FieldDeclaration :=
  ⟨name, Tag.naming target, .marker .single, false⟩

def references (name target : String) : FieldDeclaration :=
  ⟨name, Tag.naming target, .marker .slice, false⟩

/-- A field with a reference whose schema travels with it. -/
def dynamic (name : String) : FieldDeclaration :=
  ⟨name, "", .marker .dynamic, false⟩

def plain (name : String) (type : TypeExpr) : FieldDeclaration :=
  ⟨name, "", type, false⟩

end FieldDeclaration

inductive Layout where
  | scalar (kind : Kind)
  | slice (elem : TypeExpr)
  | array (length : Nat) (elem : TypeExpr)
  | struct (fields : List FieldDeclaration)
  | marker (kind : ReferenceKind)
  deriving DecidableEq, Repr

namespace Layout

def kind : Layout → Kind
  | scalar kind => kind
  | slice _ => .slice
  | array .. => .array
  | struct _ => .struct
  | marker _ => .reference

def isReference : Layout → Bool
  | marker _ => true
  | _ => false

end Layout

abbrev Declarations := List (String × Layout)

namespace Declarations

def layout (declarations : Declarations) : TypeExpr → Layout
  | .scalar kind => .scalar kind
  | .marker kind => .marker kind
  | .slice elem => .slice elem
  | .array length elem => .array length elem
  | .declared name => (declarations.lookup name).getD (.struct [])

/-- How many declarations are not on the path. -/
def offPath (declarations : Declarations) (path : List TypeExpr) : Nat :=
  declarations.countP fun declaration => decide (TypeExpr.declared declaration.1 ∉ path)

end Declarations

end TypedObject
