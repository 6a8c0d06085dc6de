import TypedObject.Wire.References

/-!
# Data

A datum is a value before it is encoded.  Its encoding says nothing about its schema: numbers
have their width, strings and slices and lists of references are counted, and arrays and structs
are their parts one after the other.
-/

namespace TypedObject

/-- A value to be encoded. -/
inductive Datum where
  | bool (value : Bool)
  | unsigned (width value : Nat)
  | signed (width : Nat) (value : Int)
  /-- A float by its bits, of `width` bytes. -/
  | float (width bits : Nat)
  | string (text : String)
  | slice (items : List Datum)
  | array (items : List Datum)
  | struct (fields : List Datum)
  | reference (target : Reference)
  | references (targets : List Reference)
  | dynamic (target : DynamicReference)

namespace Datum

mutual

def encode : Datum → Bytes
  | bool value => [if value then 1 else 0]
  | unsigned width value => Bytes.ofNat width value
  | signed width value => Bytes.ofInt width value
  | float width bits => Bytes.ofNat width bits
  | string text => Wire.text text
  | slice items => Wire.count items.length ++ encodeAll items
  | array items => encodeAll items
  | struct fields => encodeAll fields
  | reference target => target.bytes
  | references targets => Reference.encodeList targets
  | dynamic target => target.encode

def encodeAll : List Datum → Bytes
  | [] => []
  | datum :: rest => datum.encode ++ encodeAll rest

end

end Datum

end TypedObject
