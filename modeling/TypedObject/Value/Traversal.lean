import TypedObject.Value.Basic

/-!
# Visiting the parts of a value

The elements of a sequence and the fields of a struct are visited in order.  A part is cut out
just before its visit, so an error in a later part does not prevent earlier visits, and an error
of a visit ends the traversal unchanged.
-/

namespace TypedObject.Value

variable {m : Type → Type} [Monad m] [MonadExceptOf SchemaError m]

def settle {α : Type} : Except SchemaError α → m α
  | .ok value => pure value
  | .error error => throw error

/-- Visits `count` elements that lie one after the other. -/
def visitRun (elem : View) (visit : Nat → Value → m Unit) :
    (count index : Nat) → Bytes → m Unit
  | 0, _, _ => pure ()
  | count + 1, index, bytes => do
    let part ← settle (cut elem bytes)
    visit index part
    visitRun elem visit count (index + 1) (bytes.drop part.bytes.length)

/-- Visits every element of an array or slice. -/
def forElements (value : Value) (visit : Nat → Value → m Unit) : m Unit := do
  let (elem, count, start) ← settle value.sequence
  visitRun elem visit count 0 (value.bytes.drop start)

def visitFields (view : View) (visit : String → Value → m Unit) :
    List Field → Bytes → m Unit
  | [], _ => pure ()
  | field :: fields, bytes => do
    let partView ← settle (view.ofField field)
    let part ← settle (cut partView bytes)
    visit field.name part
    visitFields view visit fields (bytes.drop part.bytes.length)

/-- Visits every field of a struct. -/
def forFields (value : Value) (visit : String → Value → m Unit) : m Unit := do
  settle value.expectStruct
  visitFields value.view visit value.view.fields value.bytes

end TypedObject.Value
