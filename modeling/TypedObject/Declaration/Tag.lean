import TypedObject.Text.Blank
import TypedObject.Text.Quoted

/-!
# Field tags

A tag is a list of parts between commas; blanks around a part do not count, and empty parts are
ignored.  The first part that begins with `schema=` names the target of a reference field, and a
part `-` keeps the field out of the schema.
-/

namespace TypedObject.Tag

/-- Why a tag names no schema. -/
inductive Error where
  | empty
  | emptyName (part : List Char)
  | badName (part : List Char)
  | noName (tag : String)
  deriving DecidableEq, Repr

def Error.message : Error → String
  | .empty => "empty tag, expected \"schema=Name\""
  | .emptyName part => "empty tag schema name: " ++ Text.quoted (String.ofList part)
  | .badName part => "invalid schema tag: " ++ Text.quoted (String.ofList part)
  | .noName tag => "no schema name in tag: " ++ Text.quoted tag

def schemaKey : List Char := "schema=".toList

/-- The part that keeps a field out of the schema. -/
def exclusion : List Char := ['-']

def naming (schema : String) : String := "schema=" ++ schema

/-- The parts of a tag: between commas, without the blanks around them, and not empty. -/
def parts (tag : String) : List (List Char) :=
  ((Text.splitAt ',' tag.toList).map Text.trim).filter fun part => !part.isEmpty

/-- Reads the name out of the first part that begins with `schema=`. -/
def nameIn : List (List Char) → Option (Except Error (List Char))
  | [] => none
  | part :: rest =>
    match Text.dropStart? schemaKey part with
    | none => nameIn rest
    | some name =>
      if name.isEmpty then some (.error (.emptyName part))
      else if name.contains '=' then some (.error (.badName part))
      else some (.ok name)

def schemaName (tag : String) : Except Error String :=
  if (Text.trim tag.toList).isEmpty then .error .empty
  else
    match nameIn (parts tag) with
    | some (.ok name) => .ok (String.ofList name)
    | some (.error error) => .error error
    | none => .error (.noName tag)

def excludes (tag : String) : Bool := (parts tag).contains exclusion

end TypedObject.Tag
