import TypedObject.Kind

/-!
# Type expressions

A declaration speaks of types by expressions: scalars, the three reference markers, slices and
arrays of types, and declared types by name.  Two expressions are the same type exactly when they
are equal.
-/

namespace TypedObject

/-- A type as a declaration writes it. -/
inductive TypeExpr where
  | scalar (kind : Kind)
  /-- The type of one of the three forms of reference. -/
  | marker (kind : ReferenceKind)
  | slice (elem : TypeExpr)
  | array (length : Nat) (elem : TypeExpr)
  | declared (name : String)
  deriving DecidableEq, Repr

namespace TypeExpr

def markerName : ReferenceKind → String
  | .single => "reference"
  | .slice => "references"
  | .dynamic => "dynamic"

def text : TypeExpr → String
  | scalar kind => kind.name
  | marker kind => markerName kind
  | slice elem => "[]" ++ elem.text
  | array length elem => "[" ++ toString length ++ "]" ++ elem.text
  | declared name => "@" ++ name

end TypeExpr

end TypedObject
