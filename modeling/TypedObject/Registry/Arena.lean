import TypedObject.Registry.Basic

/-!
# Schemas in slots

A registry is put together in an arena: every schema has a slot there, and resolving a placeholder
stores the slot that its name leads to, so that types which contain each other own no cycle.  The
schemas with slots mirror the plain ones in all but their placeholders.
-/

namespace TypedObject

/-- Stands for the schema registered under the name, whose slot it holds once it is resolved. -/
structure Placeholder where
  kind : Kind
  name : String
  slot? : Option Nat

def Placeholder.resolve (placeholder : Placeholder) (slot : Nat) (kind : Kind) : Placeholder :=
  { placeholder with slot? := some slot, kind }

mutual

inductive SlotSchema where
  | scalar (kind : Kind) (name : Option String)
  | array (name : Option String) (length : Nat) (elem : SlotSchema)
  | slice (name : Option String) (elem : SlotSchema)
  | struct (name : Option String) (fields : List SlotField)
  | reference (kind : ReferenceKind) (target : SlotSchema)
  | openReference (kind : ReferenceKind)
  | placeholder (placeholder : Placeholder)

structure SlotField where
  name : String
  tag : String
  schema : SlotSchema

end

namespace SlotSchema

mutual

def ofSchema : Schema → SlotSchema
  | .scalar kind name => .scalar kind name
  | .array name length elem => .array name length (ofSchema elem)
  | .slice name elem => .slice name (ofSchema elem)
  | .struct name fields => .struct name (ofFields fields)
  | .reference kind target => .reference kind (ofSchema target)
  | .openReference kind => .openReference kind
  | .placeholder kind name => .placeholder ⟨kind, name, none⟩

def ofFields : List Field → List SlotField
  | [] => []
  | ⟨name, tag, schema⟩ :: fields => ⟨name, tag, ofSchema schema⟩ :: ofFields fields

end

mutual

/-- The schema without the slots, which are no part of it. -/
def shape : SlotSchema → Schema
  | scalar kind name => .scalar kind name
  | array name length elem => .array name length elem.shape
  | slice name elem => .slice name elem.shape
  | struct name fields => .struct name (shapeOfFields fields)
  | reference kind target => .reference kind target.shape
  | openReference kind => .openReference kind
  | placeholder ⟨kind, name, _⟩ => .placeholder kind name

def shapeOfFields : List SlotField → List Field
  | [] => []
  | ⟨name, tag, schema⟩ :: fields => ⟨name, tag, schema.shape⟩ :: shapeOfFields fields

end

abbrev Visit (σ : Type) := Placeholder → σ → Except SchemaError (Placeholder × σ)

mutual

/-- Visits every placeholder inside, the fields of a struct from the last to the first. -/
def visitPlaceholders {σ : Type} (visit : Visit σ) :
    SlotSchema → σ → Except SchemaError (SlotSchema × σ)
  | scalar kind name, state => .ok (scalar kind name, state)
  | array name length elem, state => do
    let (elem, state) ← elem.visitPlaceholders visit state
    return (array name length elem, state)
  | slice name elem, state => do
    let (elem, state) ← elem.visitPlaceholders visit state
    return (slice name elem, state)
  | struct name fields, state => do
    let (fields, state) ← visitFields visit fields state
    return (struct name fields, state)
  | reference kind target, state => do
    let (target, state) ← target.visitPlaceholders visit state
    return (reference kind target, state)
  | openReference kind, state => .ok (openReference kind, state)
  | placeholder found, state => do
    let (found, state) ← visit found state
    return (placeholder found, state)

def visitFields {σ : Type} (visit : Visit σ) :
    List SlotField → σ → Except SchemaError (List SlotField × σ)
  | [], state => .ok ([], state)
  | ⟨name, tag, schema⟩ :: fields, state => do
    let (fields, state) ← visitFields visit fields state
    let (schema, state) ← schema.visitPlaceholders visit state
    return (⟨name, tag, schema⟩ :: fields, state)

end

end SlotSchema

structure Arena where
  schemas : List SlotSchema
  byName : List (String × Nat)

namespace Arena

def empty : Arena := ⟨[], []⟩

def insert (arena : Arena) (entry : String × Schema) : Except SchemaError Arena :=
  if (arena.byName.lookup entry.1).isSome then .error (.duplicateName entry.1)
  else .ok
    ⟨arena.schemas ++ [.ofSchema entry.2], arena.byName ++ [(entry.1, arena.schemas.length)]⟩

def ofEntries (entries : Entries) : Except SchemaError Arena := entries.foldlM insert empty

/-- Resolves a placeholder, and puts the slot that it leads to on the pending ones unless it was
visited. -/
def resolve (arena : Arena) (kinds : List Kind) (visited : List Nat) :
    SlotSchema.Visit (List Nat) :=
  fun placeholder pending =>
    match arena.byName.lookup placeholder.name with
    | none => .error (.missingSchema placeholder.name)
    | some slot =>
      .ok (placeholder.resolve slot (kinds[slot]?.getD placeholder.kind),
        if slot ∈ visited then pending else slot :: pending)

def unvisited (arena : Arena) (visited : List Nat) : Nat :=
  (List.range arena.schemas.length).countP fun slot => decide (slot ∉ visited)

private theorem unvisited_set_lt
    {arena : Arena} {visited : List Nat} {slot : Nat} {schema schema' : SlotSchema}
    (found : arena.schemas[slot]? = some schema) (fresh : slot ∉ visited) :
    unvisited { arena with schemas := arena.schemas.set slot schema' } (slot :: visited) <
      arena.unvisited visited := by
  obtain ⟨inside, _⟩ := List.getElem?_eq_some_iff.mp found
  unfold unvisited
  rw [List.length_set, List.countP_eq_length_filter, List.countP_eq_length_filter]
  have fewer : (List.range arena.schemas.length).filter
        (fun other => decide (other ∉ slot :: visited)) =
      ((List.range arena.schemas.length).filter fun other => decide (other ∉ visited)).filter
        fun other => decide (other ≠ slot) := by
    rw [List.filter_filter]
    congr 1
    funext other
    simp
  rw [fewer]
  apply List.length_filter_lt_length_iff_exists.mpr
  exact ⟨slot, by simp [inside, fresh], by simp⟩

/-- Resolves the placeholders of the schemas in the pending slots, and of all that they lead to.
No slot is visited twice; a slot without a schema, of which there is none, would be passed over. -/
def linkFrom (kinds : List Kind) (arena : Arena) (pending visited : List Nat) :
    Except SchemaError Arena :=
  match pending with
  | [] => .ok arena
  | slot :: pending =>
    if _fresh : slot ∈ visited then linkFrom kinds arena pending visited
    else
      match _found : arena.schemas[slot]? with
      | none => linkFrom kinds arena pending visited
      | some schema => do
        let (schema, pending) ←
          schema.visitPlaceholders (arena.resolve kinds (slot :: visited)) pending
        linkFrom kinds { arena with schemas := arena.schemas.set slot schema } pending
          (slot :: visited)
  termination_by (arena.unvisited visited, pending.length)
  decreasing_by
    · exact Prod.Lex.right _ (by simp)
    · exact Prod.Lex.right _ (by simp)
    · exact Prod.Lex.left _ _ (unvisited_set_lt _found _fresh)

def kinds (arena : Arena) : List Kind := arena.schemas.map (·.shape.kind)

def link (arena : Arena) : Except SchemaError Arena :=
  linkFrom arena.kinds arena (List.range arena.schemas.length) []

def entries (arena : Arena) : Entries :=
  arena.byName.filterMap fun named =>
    arena.schemas[named.2]?.map fun schema => (named.1, schema.shape)

def registry (arena : Arena) (types? : Option (List (TypeExpr × String))) : Registry :=
  ⟨arena.entries.sorted, types?⟩

end Arena

end TypedObject
