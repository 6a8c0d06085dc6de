import TypedObject.Registry.Link
import TypedObject.Schema.Decode

/-!
# Reading an encoded registry

Only the canonical form is accepted.  Entries are read in order, each of which must be new and
must carry its own name; the registry that they make must then have exactly the encoding that was
read, which refuses entries out of order and placeholders of the wrong kind.
-/

namespace TypedObject.Registry

def readEntry (seen : Entries) : Reader (String × Schema) := do
  let name ← Reader.text
  let encoded ← Reader.counted
  let schema ← Reader.lift (Schema.decode encoded)
  if name = "" ∨ schema.name? ≠ some name ∨ schema.isPlaceholder = true
      ∨ (seen.lookup name).isSome = true then
    Reader.fail .invalidEncodedSchema
  else return (name, schema)

/-- The entries after those already seen. -/
def readEntries (seen : Entries) : Nat → Reader Entries
  | 0 => return seen
  | count + 1 => do
    let entry ← readEntry seen
    readEntries (seen ++ [entry]) count

def readAll : Reader Entries := do
  let count ← Reader.count
  readEntries [] count

/-- Reads a canonical registry. -/
def decode (bytes : Bytes) : Except SchemaError Registry := do
  let entries ← Reader.whole readAll bytes
  let registry ← entries.link none
  if registry.encode = bytes then .ok registry else .error .invalidEncodedSchema

end TypedObject.Registry
