import TypedObject.Proofs.Outcome
import TypedObject.Proofs.Schema.Relabel
import TypedObject.Registry.Arena

/-!
# Visiting the placeholders of a schema

A visit goes through the tree and comes to every placeholder once.  What it does is
therefore said by the list of the placeholders: the visit fails at the first of them
that it fails at, and otherwise replaces each in its place.
-/

namespace TypedObject.SlotSchema

/-- Induction over a tree in which the fields of a struct are taken all at once. -/
@[induction_eliminator]
theorem induction_nodes
    {motive : SlotSchema → Prop}
    (scalar : ∀ kind name, motive (.scalar kind name))
    (array : ∀ name length elem, motive elem → motive (.array name length elem))
    (slice : ∀ name elem, motive elem → motive (.slice name elem))
    (struct : ∀ name fields, (∀ field ∈ fields, motive field.schema) →
      motive (.struct name fields))
    (reference : ∀ kind target, motive target → motive (.reference kind target))
    (openReference : ∀ kind, motive (.openReference kind))
    (placeholder : ∀ found, motive (.placeholder found)) (schema : SlotSchema) :
    motive schema :=
  SlotSchema.rec scalar array slice struct reference openReference placeholder
    (fun _ _ _ holds => holds) (fun _ member => nomatch member)
    (fun _ _ holds others => List.forall_mem_cons.mpr ⟨holds, others⟩) schema

mutual

/-- The placeholders in the order in which they are visited. -/
def placeholders : SlotSchema → List Placeholder
  | scalar .. | openReference .. => []
  | array _ _ elem | slice _ elem => elem.placeholders
  | struct _ fields => placeholdersOfFields fields
  | reference _ target => target.placeholders
  | placeholder found => [found]

def placeholdersOfFields : List SlotField → List Placeholder
  | [] => []
  | ⟨_, _, schema⟩ :: fields => placeholdersOfFields fields ++ schema.placeholders

end

mutual

/-- The schema with every placeholder replaced. -/
def map (change : Placeholder → Placeholder) : SlotSchema → SlotSchema
  | scalar kind name => scalar kind name
  | array name length elem => array name length (elem.map change)
  | slice name elem => slice name (elem.map change)
  | struct name fields => struct name (mapFields change fields)
  | reference kind target => reference kind (target.map change)
  | openReference kind => openReference kind
  | placeholder found => placeholder (change found)

def mapFields (change : Placeholder → Placeholder) : List SlotField → List SlotField
  | [] => []
  | ⟨name, tag, schema⟩ :: fields => ⟨name, tag, schema.map change⟩ :: mapFields change fields

end

theorem shapeOfFields_eq_map (fields : List SlotField) :
    shapeOfFields fields =
      fields.map fun field => ⟨field.name, field.tag, field.schema.shape⟩ := by
  induction fields with
  | nil => rfl
  | cons field fields induction =>
      obtain ⟨name, tag, schema⟩ := field
      simp [shapeOfFields, induction]

theorem mapFields_eq_map (change : Placeholder → Placeholder) (fields : List SlotField) :
    mapFields change fields =
      fields.map fun field => ⟨field.name, field.tag, field.schema.map change⟩ := by
  induction fields with
  | nil => rfl
  | cons field fields induction =>
      obtain ⟨name, tag, schema⟩ := field
      simp [mapFields, induction]

theorem placeholdersOfFields_eq_flatMap (fields : List SlotField) :
    placeholdersOfFields fields = fields.reverse.flatMap fun field => field.schema.placeholders := by
  induction fields with
  | nil => rfl
  | cons field fields induction =>
      obtain ⟨name, tag, schema⟩ := field
      simp [placeholdersOfFields, induction]

theorem mem_placeholdersOfFields_iff
    {fields : List SlotField} {found : Placeholder} :
    found ∈ placeholdersOfFields fields ↔
      ∃ field ∈ fields, found ∈ field.schema.placeholders := by
  simp [placeholdersOfFields_eq_flatMap]

@[simp] theorem shape_ofSchema (schema : Schema) : (ofSchema schema).shape = schema := by
  induction schema with
  | struct name fields induction =>
      have sameFields : shapeOfFields (ofFields fields) = fields := by
        induction fields with
        | nil => rfl
        | cons field fields tail =>
            obtain ⟨fieldName, tag, schema⟩ := field
            rw [ofFields, shapeOfFields, induction _ List.mem_cons_self,
              tail fun other member => induction other (List.mem_cons_of_mem _ member)]
      rw [ofSchema, shape, sameFields]
  | _ => simp_all [ofSchema, shape]

/-- The slots are no part of what a placeholder mentions. -/
theorem placeholders_shape (schema : SlotSchema) :
    schema.shape.placeholders = schema.placeholders.map fun found => (found.kind, found.name) := by
  induction schema with
  | struct name fields induction =>
      simp only [shape, placeholders, Schema.placeholders, Schema.placeholdersOfFields_eq_flatMap,
        placeholdersOfFields_eq_flatMap, shapeOfFields_eq_map, ← List.map_reverse,
        List.flatMap_map, List.map_flatMap]
      apply List.flatMap_congr
      intro field member
      exact induction field (List.mem_reverse.mp member)
  | _ => simp_all [shape, placeholders, Schema.placeholders]

theorem placeholders_map (change : Placeholder → Placeholder) (schema : SlotSchema) :
    (schema.map change).placeholders = schema.placeholders.map change := by
  induction schema with
  | struct name fields induction =>
      simp only [map, placeholders, placeholdersOfFields_eq_flatMap, mapFields_eq_map,
        ← List.map_reverse, List.flatMap_map, List.map_flatMap]
      apply List.flatMap_congr
      intro field member
      exact induction field (List.mem_reverse.mp member)
  | _ => simp_all [map, placeholders]

/-- Replacing placeholders under their names is relabelling, apart from the slots. -/
theorem shape_map
    {change : Placeholder → Placeholder} {kindOf : String → Option Kind}
    (sameName : ∀ found, (change found).name = found.name)
    (newKind : ∀ found, (change found).kind = (kindOf found.name).getD found.kind)
    (schema : SlotSchema) : (schema.map change).shape = schema.shape.relabel kindOf := by
  induction schema with
  | struct name fields induction =>
      simp only [map, shape, Schema.relabel, shapeOfFields_eq_map, mapFields_eq_map,
        Schema.relabelFields_eq_map, List.map_map]
      congr 1
      apply List.map_congr_left
      intro field member
      simp [induction field member]
  | placeholder found =>
      change Schema.placeholder (change found).kind (change found).name = _
      rw [sameName, newKind]
      rfl
  | _ => simp_all [map, shape, Schema.relabel]

section Visiting

variable {σ : Type} {visit : Visit σ} {known : Placeholder → Bool}
variable {change : Placeholder → Placeholder} {advance : σ → Placeholder → σ}
variable {failure : Placeholder → SchemaError}

/-- What is made when some placeholders are visited in turn. -/
def outcome {α : Type} (known : Placeholder → Bool) (advance : σ → Placeholder → σ)
    (failure : Placeholder → SchemaError) (made : α) (visited : List Placeholder) (state : σ) :
    Except SchemaError (α × σ) :=
  match visited.find? fun found => !known found with
  | some missing => .error (failure missing)
  | none => .ok (made, visited.foldl advance state)

theorem outcome_bind
    {α β : Type} {made : α} {visited : List Placeholder} {state : σ} {function : α → β} :
    (do
      let (made, state) ← outcome known advance failure made visited state
      return (function made, state)) =
      outcome known advance failure (function made) visited state := by
  unfold outcome
  cases visited.find? fun found => !known found <;> rfl

theorem outcome_append
    {α β γ : Type} {first : α} {second : β} {visited later : List Placeholder} {state : σ}
    (function : α → β → γ) :
    (do
      let (first, state) ← outcome known advance failure first visited state
      let (second, state) ← outcome known advance failure second later state
      return (function first second, state)) =
      outcome known advance failure (function first second) (visited ++ later) state := by
  unfold outcome
  rw [List.find?_append, List.foldl_append]
  cases visited.find? fun found => !known found with
  | some missing => rfl
  | none =>
      cases later.find? fun found => !known found with
      | some missing => rfl
      | none => rfl

/-- A visit to a tree is a visit to its placeholders in turn. -/
theorem visitPlaceholders_eq
    (visits : ∀ found state, visit found state =
      if known found then .ok (change found, advance state found) else .error (failure found))
    (schema : SlotSchema) (state : σ) :
    schema.visitPlaceholders visit state =
      outcome known advance failure (schema.map change) schema.placeholders state := by
  induction schema generalizing state with
  | scalar kind name => rfl
  | array name length elem induction =>
      rw [visitPlaceholders, induction]
      exact outcome_bind
  | slice name elem induction =>
      rw [visitPlaceholders, induction]
      exact outcome_bind
  | struct name fields induction =>
      have visitsFields : ∀ state, visitFields visit fields state =
          outcome known advance failure (mapFields change fields) (placeholdersOfFields fields)
            state := by
        induction fields with
        | nil => exact fun state => rfl
        | cons field fields tail =>
            intro state
            obtain ⟨fieldName, tag, schema⟩ := field
            have first : schema.visitPlaceholders visit =
                outcome known advance failure (schema.map change) schema.placeholders :=
              funext (induction _ List.mem_cons_self)
            rw [visitFields, first,
              tail fun other member => induction other (List.mem_cons_of_mem _ member)]
            exact outcome_append fun others schema => SlotField.mk fieldName tag schema :: others
      rw [visitPlaceholders, visitsFields]
      exact outcome_bind
  | reference kind target induction =>
      rw [visitPlaceholders, induction]
      exact outcome_bind
  | openReference kind => rfl
  | placeholder found =>
      rw [visitPlaceholders, visits, outcome, placeholders, List.find?_singleton]
      cases known found with
      | true => rfl
      | false => rfl

end Visiting

end TypedObject.SlotSchema
