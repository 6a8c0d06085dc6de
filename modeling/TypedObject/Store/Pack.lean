import TypedObject.Store.Basic
import TypedObject.Value.Basic
import TypedObject.Value.Datum

/-!
# Packs

A pack joins a registry and a store.  Whatever it hands out is verified: the bytes against the
reference that they are stored under, and an object of a known schema also against that schema,
of which it must be exactly one value.
-/

namespace TypedObject

/-- Causes of failure when an object is loaded. -/
inductive StoreError where
  | notFound (reference : Reference)
  | hashMismatch (reference computed : Reference)
  | schema (error : SchemaError)
  deriving DecidableEq

def StoreError.message : StoreError → String
  | .notFound reference => "object not found: " ++ reference.toHex
  | .hashMismatch reference computed =>
    "hash mismatch for " ++ reference.toHex ++ ": computed " ++ computed.toHex
  | .schema error => error.message

/-- A registry with a store of objects. -/
structure Pack where
  registry : Registry
  store : Store

namespace Store

def get (store : Store) (reference : Reference) : Except StoreError Bytes :=
  match store.get? reference with
  | some bytes => .ok bytes
  | none => .error (.notFound reference)

end Store

namespace Pack

/-- The bytes of an object, verified against its reference. -/
def object (pack : Pack) (reference : Reference) : Except StoreError Bytes := do
  let bytes ← pack.store.get reference
  let computed := Store.referenceOf bytes
  if computed = reference then .ok bytes else .error (.hashMismatch reference computed)

def load (pack : Pack) (view : View) (reference : Reference) : Except StoreError Value := do
  let bytes ← pack.object reference
  match view.size bytes with
  | .error error => .error (.schema error)
  | .ok size =>
    if size = bytes.length then .ok ⟨view, bytes⟩ else .error (.schema .invalidSchemaOrData)

/-- The object that a dynamic reference names, if it names one. -/
def loadDynamic (pack : Pack) (dynamic : DynamicReference) : Except StoreError (Option Value) :=
  if dynamic.isBlank then .ok none
  else if !dynamic.isValid then .error (.schema .invalidDynamicReference)
  else
    match pack.registry.viewByReference dynamic.schema with
    | .error error => .error (.schema error)
    | .ok view => (pack.load view dynamic.object).map some

def save (pack : Pack) (datum : Datum) : Reference × Pack :=
  let (reference, store) := pack.store.add datum.encode
  (reference, { pack with store })

def summary (pack : Pack) : String :=
  "Pack \x7b registry: " ++ pack.registry.reference.summary ++ ", flags: "
    ++ pack.store.flags.summary ++ " \x7d"

end Pack

end TypedObject
