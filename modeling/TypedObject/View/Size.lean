import TypedObject.Offset
import TypedObject.View.Basic
import TypedObject.Wire.Reader

/-!
# The size of a value

How many bytes the value at the front of a byte string takes follows from its schema and from the
counts in its bytes; nothing else is decoded.  A size that exceeds the bytes at hand is an error.
Values are followed down to a fixed depth, which stops schemas that contain themselves by value.
-/

namespace TypedObject.View

/-- The number of steps from a value to the parts of its parts that is followed. -/
def depthLimit : Nat := 512

def referenceSize : Nat := 32

def dynamicSize : Nat := 64

/-- The size of every value of a schema, when the bytes do not matter, over `levels` levels. -/
def fixedSizeWithin : (levels : Nat) → View → Option Nat
  | 0, _ => none
  | levels + 1, view =>
    match view.schema with
    | .scalar kind _ => kind.fixedSize?
    | .reference .single _ | .openReference .single => some referenceSize
    | .reference .dynamic _ | .openReference .dynamic => some dynamicSize
    | .array _ length _ =>
      if length = 0 then some 0
      else do
        let elem ← view.elem.toOption
        let size ← fixedSizeWithin levels elem
        Offset.mul? size length
    | .struct _ fields =>
      fields.foldlM
        (fun total field => do
          let part ← (view.ofField field).toOption
          let size ← fixedSizeWithin levels part
          Offset.add? total size)
        0
    | _ => none

def fixedSize? (view : View) : Option Nat := view.fixedSizeWithin (depthLimit + 1)

/-- The count at the front of a value. -/
def countAt (bytes : Bytes) : Except SchemaError Nat :=
  match Reader.front Reader.count bytes with
  | .ok count => .ok count
  | .error _ => .error .invalidSchemaOrData

def offset (found : Option Nat) : Except SchemaError Nat :=
  match found with
  | some number => .ok number
  | none => .error .invalidSchemaOrData

def sizeOfRun (measure : Bytes → Except SchemaError Nat) : (count : Nat) → Bytes →
    Except SchemaError Nat
  | 0, _ => .ok 0
  | count + 1, bytes => do
    let first ← measure bytes
    let others ← sizeOfRun measure count (bytes.drop first)
    return first + others

/-- The size of a sequence whose elements begin after `start` bytes.  Elements of one size need
not be looked at.  Any other element takes at least a byte, so that a count above the number of
bytes is refused before the first element is measured. -/
def sizeOfSequence (elem : View) (measure : Bytes → Except SchemaError Nat) (count start : Nat)
    (bytes : Bytes) : Except SchemaError Nat :=
  match elem.fixedSize? with
  | some size => offset (Offset.ofItem? count size start)
  | none =>
    if Bytes.isShorter (bytes.drop start) count then .error .invalidSchemaOrData
    else do
      let size ← sizeOfRun measure count (bytes.drop start)
      return start + size

def sizeOfFields (measure : View → Bytes → Except SchemaError Nat) (view : View) :
    List Field → Bytes → Except SchemaError Nat
  | [], _ => .ok 0
  | field :: fields, bytes => do
    let part ← view.ofField field
    let first ← measure part bytes
    let others ← sizeOfFields measure view fields (bytes.drop first)
    return first + others

def fitting (bytes : Bytes) (size : Nat) : Except SchemaError Nat :=
  if Bytes.isShorter bytes size then .error .invalidSchemaOrData else .ok size

def sizeWithin : (levels : Nat) → View → Bytes → Except SchemaError Nat
  | 0, _, _ => .error .invalidSchemaOrData
  | levels + 1, view, bytes => do
    let size ← (match view.schema with
      | .reference .single _ | .openReference .single => .ok referenceSize
      | .reference .dynamic _ | .openReference .dynamic => .ok dynamicSize
      | .reference .slice _ | .openReference .slice => do
        let count ← countAt bytes
        offset (Offset.ofItem? count referenceSize Wire.countSize)
      | .scalar .string _ => do
        let count ← countAt bytes
        offset (Offset.add? count Wire.countSize)
      | .scalar kind _ => offset kind.fixedSize?
      | .slice _ _ => do
        let elem ← view.elem
        let count ← countAt bytes
        sizeOfSequence elem (sizeWithin levels elem) count Wire.countSize bytes
      | .array _ length _ => do
        let elem ← view.elem
        sizeOfSequence elem (sizeWithin levels elem) length 0 bytes
      | .struct _ fields => sizeOfFields (sizeWithin levels) view fields bytes
      | .placeholder _ _ => .error .invalidSchemaOrData)
    fitting bytes size

/-- The size of the value at the front of the bytes; what follows it does not matter. -/
def size (view : View) (bytes : Bytes) : Except SchemaError Nat :=
  view.sizeWithin (depthLimit + 1) bytes

end TypedObject.View
