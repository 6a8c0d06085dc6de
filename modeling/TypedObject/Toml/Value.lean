/-!
# TOML values

A table remembers how it came about, because that decides whether more may be added to it: a
table under a header of its own is complete, while one that is only implied by the header of a
table inside it, or by a dotted key, is still open.
-/

namespace TypedObject.Toml

/-- How a table came about. -/
inductive Origin where
  | header
  /-- A header names a table inside it. -/
  | implied
  | dotted
  | inline
  deriving DecidableEq, Repr

/-- A value.  Floats and dates are recognised, and their value is not kept. -/
inductive Value where
  | string (text : String)
  | integer (number : Int)
  | float
  | boolean (value : Bool)
  | moment
  | array (items : List Value)
  | table (origin : Origin) (entries : List (String × Value))
  /-- Tables that share a header in double brackets. -/
  | tables (items : List (List (String × Value)))

abbrev Entries := List (String × Value)

end TypedObject.Toml
