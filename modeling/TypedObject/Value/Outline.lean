import TypedObject.Value.Traversal

/-!
# The outline of a value

A value and all its parts, each listed before its own parts, with the path that leads to it.
Structs and sequences are listed with the number of their parts and everything else with its
content.  At most a given number of values is visited.
-/

namespace TypedObject.Value

inductive Content where
  | parts (count : Nat)
  | bool (value : Bool)
  | int (value : Int)
  | uint (value : Nat)
  | float (value : Float)
  | string (value : String)
  | reference (value : Reference)
  | references (value : List Reference)
  | dynamic (value : DynamicReference)

structure OutlineEntry where
  path : String
  kind : Kind
  content : Content

/-- Why an outline ends. -/
inductive OutlineEnd where
  | complete
  | limit
  | failure (error : SchemaError)

/-- The entries so far, last first, and the number of visits that are still allowed. -/
structure OutlineState where
  entries : List OutlineEntry
  visits : Nat

/-- A step of an outline.  The state stays when a step fails. -/
abbrev Outliner := ExceptT SchemaError (ExceptT Unit (StateM OutlineState))

def enter : Outliner Unit := do
  let state ← get
  if state.visits = 0 then throwThe Unit () else set { state with visits := state.visits - 1 }

def emit (path : String) (value : Value) (content : Content) : Outliner Unit :=
  modify fun state => { state with entries := ⟨path, value.kind, content⟩ :: state.entries }

def content (value : Value) : Except SchemaError Content :=
  match value.kind with
  | .bool => value.bool.map .bool
  | .int8 | .int16 | .int32 | .int64 => value.int.map .int
  | .uint8 | .uint16 | .uint32 | .uint64 => value.uint.map .uint
  | .float32 | .float64 => value.float.map .float
  | .string => value.string.map .string
  | .struct => value.fieldCount.map .parts
  | .slice | .array => value.length.map .parts
  | .reference =>
    match value.view.referenceKind? with
    | some .single => value.reference.map .reference
    | some .slice => value.references.map .references
    | _ => value.dynamic.map .dynamic

/-- Lists a value and its parts, down to `levels` levels.  Every level costs a visit, so that as
many levels as visits are enough. -/
def outlineWithin : (levels : Nat) → String → Value → Outliner Unit
  | 0, _, _ => throwThe Unit ()
  | levels + 1, path, value => do
    enter
    let shown ← settle value.content
    emit path value shown
    match value.kind with
    | .struct => value.forFields fun name part => outlineWithin levels (path ++ "/" ++ name) part
    | .slice | .array =>
      value.forElements fun index part => outlineWithin levels (path ++ "/" ++ toString index) part
    | _ => pure ()

def outline (value : Value) (limit : Nat) : List OutlineEntry × OutlineEnd :=
  let (result, state) := (outlineWithin (limit + 1) "" value).run.run.run ⟨[], limit⟩
  let ending := match result with
    | .error () => .limit
    | .ok (.error error) => .failure error
    | .ok (.ok ()) => .complete
  (state.entries.reverse, ending)

end TypedObject.Value
