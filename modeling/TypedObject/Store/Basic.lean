import TypedObject.Identifier
import TypedObject.Store.Flags

/-!
# Object stores

A store keeps byte strings under references.  What is stored under a reference never changes: a
second write under the same reference has no effect.  The store does not look at the bytes, so a
caller may store bytes under a reference that is not theirs.
-/

namespace TypedObject

/-- Objects in the order of their first writes, and the flags of the store. -/
structure Store where
  objects : List (Reference × Bytes)
  flags : Flags

namespace Store

def empty (flags : Flags) : Store := ⟨[], flags⟩

def get? (store : Store) (reference : Reference) : Option Bytes :=
  store.objects.lookup reference

def contains (store : Store) (reference : Reference) : Bool := (store.get? reference).isSome

/-- Stores bytes under a reference, unless it is taken. -/
def set (store : Store) (reference : Reference) (bytes : Bytes) : Store :=
  if store.contains reference then store
  else { store with objects := store.objects ++ [(reference, bytes)] }

def referenceOf (bytes : Bytes) : Reference := .ofContent .object bytes

def add (store : Store) (bytes : Bytes) : Reference × Store :=
  let reference := referenceOf bytes
  (reference, store.set reference bytes)

def setFlags (store : Store) (flags : Flags) : Store :=
  { store with flags := store.flags.union flags }

def unsetFlags (store : Store) (flags : Flags) : Store :=
  { store with flags := store.flags.minus flags }

def size (store : Store) : Nat := store.objects.length

def isEmpty (store : Store) : Bool := store.objects.isEmpty

def totalBytes (store : Store) : Nat :=
  store.objects.foldr (fun object total => object.2.length + total) 0

def summary (store : Store) : String :=
  "InMemoryObjectStore \x7b object_count: " ++ toString store.size ++ ", total_bytes: "
    ++ toString store.totalBytes ++ ", flags: " ++ store.flags.summary ++ " \x7d"

end Store

end TypedObject
