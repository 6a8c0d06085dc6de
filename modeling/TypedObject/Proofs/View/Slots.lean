import TypedObject.Proofs.Registry.Finalized
import TypedObject.View.Slots

/-!
# Following slots

In an arena in which everything is resolved, following the slot of a placeholder leads to
what the registry has under its name.  So whatever steps are taken, views through slots
and views by name show the same, failures included.
-/

namespace TypedObject

namespace SlotSchema

/-- The schemas directly inside. -/
def parts : SlotSchema → List SlotSchema
  | array _ _ elem | slice _ elem => [elem]
  | struct _ fields => fields.map SlotField.schema
  | reference _ target => [target]
  | scalar .. | openReference .. | placeholder .. => []

theorem mem_placeholders_of_mem_parts
    {schema part : SlotSchema} (inside : part ∈ schema.parts) {found : Placeholder}
    (member : found ∈ part.placeholders) : found ∈ schema.placeholders := by
  cases schema with
  | struct name fields =>
      obtain ⟨field, within, rfl⟩ := List.mem_map.mp inside
      exact mem_placeholdersOfFields_iff.mpr ⟨field, within, member⟩
  | array name length elem =>
      cases List.mem_singleton.mp inside
      exact member
  | slice name elem =>
      cases List.mem_singleton.mp inside
      exact member
  | reference kind target =>
      cases List.mem_singleton.mp inside
      exact member
  | _ => cases inside

end SlotSchema

/-- What the arena has under a name is what its registry has. -/
theorem Arena.map_viewByName
    {arena : Arena} (resolved : arena.Resolved) (types? : Option (List (TypeExpr × String)))
    (name : String) :
    (arena.viewByName name).map (SlotView.shape types?) =
      (arena.registry types?).viewByName name := by
  rw [viewByName, Registry.viewByName, Registry.schemaByName, schema?_registry resolved.distinct]
  cases (arena.byName.lookup name).bind fun slot => arena.schemas[slot]? with
  | none => rfl
  | some schema => rfl

namespace SlotView

variable {types? : Option (List (TypeExpr × String))}

/-- Views of the schemas in the arena, and whatever steps lead to from them. -/
inductive Reachable (arena : Arena) : SlotView → Prop where
  | inSlot {slot : Nat} {schema : SlotSchema} (present : arena.schemas[slot]? = some schema) :
      Reachable arena ⟨arena, schema⟩
  | step {view next : SlotView} {step : View.Step} (reachable : Reachable arena view)
      (taken : view.step step = .ok (some next)) : Reachable arena next

/-- The view stands for a schema in full, of which every placeholder is resolved, and so it
is for every schema in the arena. -/
structure Linked (view : SlotView) : Prop where
  arena : view.arena.Resolved
  full : view.schema.shape.isPlaceholder = false
  resolves : ∀ found ∈ view.schema.placeholders, view.arena.Resolves found

theorem follow_of_leads
    {arena : Arena} {found : Placeholder} {slot : Nat} {target : SlotSchema}
    (leads : arena.Leads found slot target) :
    follow arena (.placeholder found) = .ok ⟨arena, target⟩ := by
  rw [follow, leads.holds, Option.bind_some, leads.present]

/-- Following the slot comes to what is followed by name. -/
theorem map_follow
    {arena : Arena} (resolved : arena.Resolved) {part : SlotSchema}
    (resolves : ∀ found ∈ part.placeholders, arena.Resolves found) :
    (follow arena part).map (shape types?) = View.follow (arena.registry types?) part.shape := by
  cases part with
  | placeholder found =>
      obtain ⟨slot, target, leads⟩ := resolves found List.mem_cons_self
      rw [follow_of_leads leads]
      change _ = ((arena.registry types?).schemaByName found.name).map _
      rw [Arena.schemaByName_registry resolved.distinct leads.byName leads.present]
      rfl
  | _ => rfl

theorem Linked.resolves_part
    {view : SlotView} (linked : view.Linked) {part : SlotSchema}
    (inside : part ∈ view.schema.parts) :
    ∀ found ∈ part.placeholders, view.arena.Resolves found :=
  fun found member =>
    linked.resolves found (SlotSchema.mem_placeholders_of_mem_parts inside member)

theorem Linked.of_follow
    {view next : SlotView} (linked : view.Linked) {part : SlotSchema}
    (inside : part ∈ view.schema.parts) (followed : follow view.arena part = .ok next) :
    next.Linked ∧ next.arena = view.arena := by
  have resolves := linked.resolves_part inside
  cases part with
  | placeholder found =>
      obtain ⟨slot, target, leads⟩ := resolves found List.mem_cons_self
      rw [follow_of_leads leads] at followed
      cases followed
      have member := List.mem_of_getElem? leads.present
      exact ⟨⟨linked.arena, linked.arena.full _ member, linked.arena.resolves _ member⟩, rfl⟩
  | _ =>
      cases followed
      exact ⟨⟨linked.arena, rfl, resolves⟩, rfl⟩

theorem Linked.map_elem
    {view : SlotView} (linked : view.Linked) :
    view.elem.map (shape types?) = (view.shape types?).elem := by
  have followed : ∀ part ∈ view.schema.parts, (follow view.arena part).map (shape types?) =
      View.follow (view.arena.registry types?) part.shape :=
    fun part inside => map_follow linked.arena (linked.resolves_part inside)
  obtain ⟨arena, schema⟩ := view
  cases schema with
  | array name length elem => exact followed elem List.mem_cons_self
  | slice name elem => exact followed elem List.mem_cons_self
  | reference kind target => exact followed target List.mem_cons_self
  | _ => rfl

theorem schema_mem_parts
    {view : SlotView} {field : SlotField} (member : field ∈ view.fields) :
    field.schema ∈ view.schema.parts := by
  obtain ⟨arena, schema⟩ := view
  cases schema with
  | struct name fields => exact List.mem_map_of_mem member
  | _ => cases member

theorem Linked.map_ofField
    {view : SlotView} (linked : view.Linked) {field : SlotField} (member : field ∈ view.fields) :
    (view.ofField field).map (shape types?) = (view.shape types?).ofField field.shape :=
  map_follow linked.arena (linked.resolves_part (schema_mem_parts member))

theorem fields_shape (view : SlotView) :
    (view.shape types?).fields = view.fields.map SlotField.shape := by
  obtain ⟨arena, schema⟩ := view
  cases schema with
  | struct name fields => exact SlotSchema.shapeOfFields_eq_map fields
  | _ => rfl

theorem stepField?_shape (view : SlotView) (step : View.Step) :
    (view.shape types?).stepField? step = (view.stepField? step).map SlotField.shape := by
  cases step with
  | elem => rfl
  | field index =>
      rw [View.stepField?, fields_shape, List.getElem?_map]
      rfl
  | name name =>
      rw [View.stepField?, fields_shape, List.find?_map]
      rfl

theorem mem_fields_of_stepField?
    {view : SlotView} {step : View.Step} {field : SlotField}
    (found : view.stepField? step = some field) : field ∈ view.fields := by
  unfold stepField? at found
  split at found
  · cases found
  · exact List.mem_of_getElem? found
  · exact List.mem_of_find?_eq_some found

private theorem Linked.map_stepField
    {view : SlotView} (linked : view.Linked) (step : View.Step) :
    (match view.stepField? step with
      | none => .ok none
      | some field => (view.ofField field).map some : Except SchemaError (Option SlotView)).map
        (Option.map (shape types?)) =
      match (view.shape types?).stepField? step with
      | none => .ok none
      | some field => ((view.shape types?).ofField field).map some := by
  rw [stepField?_shape]
  cases found : view.stepField? step with
  | none => rfl
  | some field =>
      change ((view.ofField field).map some).map _ = (View.ofField _ field.shape).map some
      rw [← linked.map_ofField (mem_fields_of_stepField? found), Outcome.map_map, Outcome.map_map]
      rfl

/-- A step shows the same through slots as by name. -/
theorem Linked.map_step
    {view : SlotView} (linked : view.Linked) (step : View.Step) :
    (view.step step).map (Option.map (shape types?)) = (view.shape types?).step step := by
  cases step with
  | elem =>
      change (view.elem.map some).map _ = (View.elem _).map some
      rw [← linked.map_elem, Outcome.map_map, Outcome.map_map]
      rfl
  | field index => exact linked.map_stepField (.field index)
  | name name => exact linked.map_stepField (.name name)

theorem exists_part_of_elem
    {view next : SlotView} (followed : view.elem = .ok next) :
    ∃ part ∈ view.schema.parts, follow view.arena part = .ok next := by
  obtain ⟨arena, schema⟩ := view
  cases schema with
  | array name length elem => exact ⟨elem, List.mem_cons_self, followed⟩
  | slice name elem => exact ⟨elem, List.mem_cons_self, followed⟩
  | reference kind target => exact ⟨target, List.mem_cons_self, followed⟩
  | _ => cases followed

theorem Linked.step
    {view next : SlotView} (linked : view.Linked) {step : View.Step}
    (taken : view.step step = .ok (some next)) : next.Linked ∧ next.arena = view.arena := by
  unfold SlotView.step at taken
  split at taken
  · obtain ⟨elem, followed, same⟩ := Outcome.map_eq_ok_iff.mp taken
    cases same
    obtain ⟨part, inside, followedPart⟩ := exists_part_of_elem followed
    exact linked.of_follow inside followedPart
  · split at taken
    · cases taken
    · rename_i field found
      obtain ⟨part, followed, same⟩ := Outcome.map_eq_ok_iff.mp taken
      cases same
      exact linked.of_follow (schema_mem_parts (mem_fields_of_stepField? found)) followed

theorem Linked.map_walk
    {view : SlotView} (linked : view.Linked) (path : List View.Step) :
    (view.walk path).map (Option.map (shape types?)) = (view.shape types?).walk path := by
  induction path generalizing view with
  | nil => rfl
  | cons step path induction =>
      rw [walk, View.walk, ← linked.map_step]
      cases taken : view.step step with
      | error error => rfl
      | ok reached =>
          cases reached with
          | none => rfl
          | some next => exact induction (linked.step taken).1

theorem reachable_of_viewByName
    {arena : Arena} {name : String} {view : SlotView} (found : arena.viewByName name = .ok view) :
    Reachable arena view := by
  unfold Arena.viewByName at found
  split at found
  · rename_i schema known
    obtain ⟨slot, _, present⟩ := Option.bind_eq_some_iff.mp known
    cases found
    exact .inSlot present
  · cases found

theorem linked_of_present
    {arena : Arena} (resolved : arena.Resolved) {slot : Nat} {schema : SlotSchema}
    (present : arena.schemas[slot]? = some schema) : Linked ⟨arena, schema⟩ :=
  have member := List.mem_of_getElem? present
  ⟨resolved, resolved.full _ member, resolved.resolves _ member⟩

theorem Reachable.linked
    {arena : Arena} (resolved : arena.Resolved) {view : SlotView}
    (reachable : Reachable arena view) : view.Linked ∧ view.arena = arena := by
  induction reachable with
  | inSlot present => exact ⟨linked_of_present resolved present, rfl⟩
  | step _ taken induction =>
      obtain ⟨linked, same⟩ := induction
      obtain ⟨linkedNext, sameNext⟩ := linked.step taken
      exact ⟨linkedNext, sameNext.trans same⟩

theorem Reachable.shape
    {arena : Arena} (resolved : arena.Resolved) {view : SlotView}
    (reachable : Reachable arena view) :
    View.Reachable (arena.registry types?) (view.shape types?) := by
  induction reachable with
  | inSlot present =>
      obtain ⟨name, known⟩ := resolved.named _ _ present
      have found := Arena.schemaByName_registry resolved.distinct known present types?
      exact .byName (Outcome.map_eq_ok_iff.mpr ⟨_, found, rfl⟩)
  | step reachable taken induction =>
      obtain ⟨linked, _⟩ := reachable.linked resolved
      apply induction.step
      rw [← linked.map_step, taken]
      rfl

end SlotView

end TypedObject
