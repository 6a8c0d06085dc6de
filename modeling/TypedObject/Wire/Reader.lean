import TypedObject.SchemaError
import TypedObject.Wire.Prefixed

/-!
# Readers

A reader takes bytes from the front of a byte string and leaves the rest, also when it fails: a
later reader goes on where the failing one stopped.  Every primitive read checks first that
enough bytes are left and takes nothing when they are not.
-/

namespace TypedObject

/-- A step that reads from the front of a byte string.  It returns what it read, or why it failed,
with the bytes that it left. -/
def Reader (α : Type) := Bytes → Except SchemaError α × Bytes

namespace Reader

variable {α β : Type}

instance : Monad Reader where
  pure value := fun rest => (.ok value, rest)
  bind reader next := fun rest =>
    match reader rest with
    | (.ok value, rest) => next value rest
    | (.error error, rest) => (.error error, rest)

def fail (error : SchemaError) : Reader α := fun rest => (.error error, rest)

def lift (result : Except SchemaError α) : Reader α := fun rest => (result, rest)

def take (size : Nat) : Reader Bytes := fun rest =>
  if Bytes.isShorter rest size then (.error (.unexpectedEnd size rest.length), rest)
  else (.ok (rest.take size), rest.drop size)

def byte : Reader Nat := do
  let bytes ← take 1
  return Bytes.toNat bytes

def word : Reader Nat := do
  let bytes ← take 4
  return Bytes.toNat bytes

def count : Reader Nat := word

def counted : Reader Bytes := do
  let size ← count
  take size

/-- A counted text.  Bytes that are no text are taken before that is noticed. -/
def text : Reader String := do
  let bytes ← counted
  match Bytes.toText? bytes with
  | some text => return text
  | none => fail .invalidUtf8

/-- Reads a number of items one after the other, up to the first failure. -/
def times (item : Reader α) : Nat → Reader (List α)
  | 0 => return []
  | size + 1 => do
    let first ← item
    let others ← times item size
    return first :: others

def front (reader : Reader α) (bytes : Bytes) : Except SchemaError α := (reader bytes).1

def whole (reader : Reader α) (bytes : Bytes) : Except SchemaError α :=
  match reader bytes with
  | (.ok value, []) => .ok value
  | (.ok _, _ :: _) => .error .invalidEncodedSchema
  | (.error error, _) => .error error

@[simp] theorem pure_apply (value : α) (rest : Bytes) :
    (pure value : Reader α) rest = (.ok value, rest) := rfl

@[simp] theorem bind_apply (reader : Reader α) (next : α → Reader β) (rest : Bytes) :
    (reader >>= next) rest =
      match reader rest with
      | (.ok value, rest) => next value rest
      | (.error error, rest) => (.error error, rest) := rfl

@[simp] theorem fail_apply (error : SchemaError) (rest : Bytes) :
    (fail error : Reader α) rest = (.error error, rest) := rfl

@[simp] theorem lift_apply (result : Except SchemaError α) (rest : Bytes) :
    lift result rest = (result, rest) := rfl

/-- Taking the bytes that were put in front leaves what follows them. -/
theorem take_append (bytes rest : Bytes) :
    take bytes.length (bytes ++ rest) = (.ok bytes, rest) := by
  simp [take]

end Reader

end TypedObject
