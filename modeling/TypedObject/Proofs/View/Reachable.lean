import TypedObject.Proofs.Registry.Declared
import TypedObject.Proofs.Registry.Exactness
import TypedObject.View.Path

/-!
# Views that can be reached

Every registry that is returned is linked, whether it was declared or decoded.  From
an entry of a linked registry every step to a part leads somewhere, and again to a
view of which this is true.
-/

namespace TypedObject

namespace Schema

theorem mem_placeholders_of_mem_parts
    {schema part : Schema} (inside : part ∈ schema.parts) {mention : Kind × String}
    (mentioned : mention ∈ part.placeholders) : mention ∈ schema.placeholders := by
  cases schema with
  | struct name fields =>
      obtain ⟨field, member, rfl⟩ := List.mem_map.mp inside
      exact mem_placeholdersOfFields_iff.mpr ⟨field, member, mentioned⟩
  | array name length elem =>
      cases List.mem_singleton.mp inside
      exact mentioned
  | slice name elem =>
      cases List.mem_singleton.mp inside
      exact mentioned
  | reference kind target =>
      cases List.mem_singleton.mp inside
      exact mentioned
  | _ => cases inside

theorem mem_parts_of_mem_fields
    {schema : Schema} {field : Field} (member : field ∈ schema.fields) :
    field.schema ∈ schema.parts := by
  cases schema with
  | struct name fields => exact List.mem_map_of_mem member
  | _ => cases member

end Schema

/-- The registry was declared or decoded. -/
def Registry.Returned (registry : Registry) : Prop :=
  (∃ declarations calls, DeclaredBy declarations calls registry) ∨
    ∃ bytes, decode bytes = .ok registry

theorem Registry.Returned.registered
    {registry : Registry} (returned : registry.Returned) : registry.entries.Registered := by
  rcases returned with ⟨declarations, calls, declared⟩ | ⟨bytes, decoded⟩
  · exact declared.registered
  · exact (decode_eq_ok_iff.mp decoded).2.1.registered

/-- Canonical entries are what decoding their encoding returns. -/
theorem Registry.returned_of_canonical
    {entries : Entries} (canonical : entries.Canonical) : Returned ⟨entries, none⟩ :=
  .inr ⟨_, decode_eq_ok_iff.mpr ⟨rfl, canonical, rfl⟩⟩

theorem Registry.returned_nodeRegistry : Registry.nodeRegistry.Returned :=
  .inl ⟨_, _, .inl Registry.declare_nodeRegistry⟩

namespace View

/-- The view stands for a schema in full, of which every placeholder names an entry of
its kind, and so it is for every entry. -/
structure Linked (view : View) : Prop where
  registered : view.registry.entries.Registered
  full : view.schema.isPlaceholder = false
  resolved : ∀ mention ∈ view.schema.placeholders,
    view.registry.entries.kindOf? mention.2 = some mention.1

/-- Views of the registered schemas, and whatever steps lead to from them. -/
inductive Reachable (registry : Registry) : View → Prop where
  | byName {name : String} {view : View} (found : registry.viewByName name = .ok view) :
      Reachable registry view
  | byReference {reference : SchemaRef} {view : View}
      (found : registry.viewByReference reference = .ok view) : Reachable registry view
  | step {view next : View} {step : Step} (reachable : Reachable registry view)
      (taken : view.step step = .ok (some next)) : Reachable registry next

theorem linked_of_mem
    {registry : Registry} (registered : registry.entries.Registered) {name : String}
    {schema : Schema} (member : (name, schema) ∈ registry.entries) :
    Linked ⟨registry, schema⟩ :=
  ⟨registered, registered.full _ member, registered.linked _ member⟩

theorem schemaByName_eq_ok_iff
    {registry : Registry} {name : String} {schema : Schema} :
    registry.schemaByName name = .ok schema ↔ registry.entries.lookup name = some schema := by
  unfold Registry.schemaByName Registry.schema?
  cases registry.entries.lookup name with
  | none => simp
  | some found => simp

/-- What is found by an identifier is an entry that has it. -/
theorem exists_entry_of_schemaByReference
    {registry : Registry} {reference : SchemaRef} {schema : Schema}
    (found : registry.schemaByReference reference = .ok schema) :
    ∃ entry ∈ registry.entries, entry.2 = schema ∧ schema.identifier = reference := by
  unfold Registry.schemaByReference at found
  split at found
  · rename_i entry first
    cases found
    exact ⟨entry, List.mem_of_find?_eq_some first, rfl, by simpa using List.find?_some first⟩
  · cases found

theorem linked_of_viewByName
    {registry : Registry} (registered : registry.entries.Registered) {name : String} {view : View}
    (found : registry.viewByName name = .ok view) : view.Linked := by
  obtain ⟨schema, known, rfl⟩ := Outcome.map_eq_ok_iff.mp found
  exact linked_of_mem registered (Lookup.mem_of_lookup (schemaByName_eq_ok_iff.mp known))

theorem linked_of_viewByReference
    {registry : Registry} (registered : registry.entries.Registered) {reference : SchemaRef}
    {view : View} (found : registry.viewByReference reference = .ok view) : view.Linked := by
  obtain ⟨schema, known, rfl⟩ := Outcome.map_eq_ok_iff.mp found
  obtain ⟨entry, member, rfl, _⟩ := exists_entry_of_schemaByReference known
  exact linked_of_mem registered member

/-- Every part of a linked view can be followed, to a linked view. -/
theorem Linked.follow
    {view : View} (linked : view.Linked) {part : Schema} (inside : part ∈ view.schema.parts) :
    ∃ next, follow view.registry part = .ok next ∧ next.Linked := by
  have resolved : ∀ mention ∈ part.placeholders,
      view.registry.entries.kindOf? mention.2 = some mention.1 :=
    fun mention mentioned =>
      linked.resolved mention (Schema.mem_placeholders_of_mem_parts inside mentioned)
  cases part with
  | placeholder kind name =>
      have known := resolved (kind, name) List.mem_cons_self
      obtain ⟨schema, found, _⟩ := Option.map_eq_some_iff.mp known
      exact ⟨⟨view.registry, schema⟩,
        Outcome.map_eq_ok_iff.mpr ⟨schema, schemaByName_eq_ok_iff.mpr found, rfl⟩,
        linked_of_mem linked.registered (Lookup.mem_of_lookup found)⟩
  | _ => exact ⟨_, rfl, linked.registered, rfl, resolved⟩

theorem Linked.of_follow
    {view next : View} (linked : view.Linked) {part : Schema} (inside : part ∈ view.schema.parts)
    (followed : View.follow view.registry part = .ok next) : next.Linked := by
  obtain ⟨next', followed', linked'⟩ := linked.follow inside
  rw [followed] at followed'
  cases followed'
  exact linked'

theorem exists_part_of_elem
    {view next : View} (followed : view.elem = .ok next) :
    ∃ part ∈ view.schema.parts, View.follow view.registry part = .ok next := by
  unfold elem at followed
  split at followed
  · rename_i form
    exact ⟨_, by simp [form, Schema.parts], followed⟩
  · rename_i form
    exact ⟨_, by simp [form, Schema.parts], followed⟩
  · rename_i form
    exact ⟨_, by simp [form, Schema.parts], followed⟩
  · cases followed

theorem Linked.of_elem
    {view next : View} (linked : view.Linked) (followed : view.elem = .ok next) : next.Linked := by
  obtain ⟨part, inside, followedPart⟩ := exists_part_of_elem followed
  exact linked.of_follow inside followedPart

theorem mem_fields_of_stepField?
    {view : View} {step : Step} {field : Field} (found : view.stepField? step = some field) :
    field ∈ view.fields := by
  unfold stepField? at found
  split at found
  · cases found
  · exact List.mem_of_getElem? found
  · exact List.mem_of_find?_eq_some found

/-- A step leads to what a part of the schema stands for. -/
theorem exists_part_of_step
    {view next : View} {step : Step} (taken : view.step step = .ok (some next)) :
    ∃ part ∈ view.schema.parts, View.follow view.registry part = .ok next := by
  unfold View.step at taken
  split at taken
  · obtain ⟨elem, followed, same⟩ := Outcome.map_eq_ok_iff.mp taken
    cases same
    exact exists_part_of_elem followed
  · split at taken
    · cases taken
    · rename_i field found
      obtain ⟨part, followed, same⟩ := Outcome.map_eq_ok_iff.mp taken
      cases same
      exact ⟨field.schema, Schema.mem_parts_of_mem_fields (mem_fields_of_stepField? found),
        followed⟩

theorem Linked.step
    {view next : View} (linked : view.Linked) {step : Step}
    (taken : view.step step = .ok (some next)) : next.Linked := by
  obtain ⟨part, inside, followed⟩ := exists_part_of_step taken
  exact linked.of_follow inside followed

theorem Reachable.linked
    {registry : Registry} (registered : registry.entries.Registered) {view : View}
    (reachable : Reachable registry view) : view.Linked := by
  induction reachable with
  | byName found => exact linked_of_viewByName registered found
  | byReference found => exact linked_of_viewByReference registered found
  | step _ taken linked => exact linked.step taken

theorem Reachable.elem
    {registry : Registry} {view part : View} (reachable : Reachable registry view)
    (follows : view.elem = .ok part) : Reachable registry part := by
  have taken : view.step .elem = .ok (some part) := by
    rw [View.step, follows]
    rfl
  exact reachable.step taken

theorem Reachable.field
    {registry : Registry} {view part : View} (reachable : Reachable registry view) {index : Nat}
    {field : Field} (atIndex : view.fields[index]? = some field)
    (followed : view.ofField field = .ok part) : Reachable registry part := by
  have stepField : view.stepField? (.field index) = some field := atIndex
  have taken : view.step (.field index) = .ok (some part) := by
    rw [View.step, stepField]
    · change (view.ofField field).map some = .ok (some part)
      rw [followed]
      rfl
    · exact nofun
  exact reachable.step taken

theorem Reachable.parts
    {registry : Registry} {view : View} (reachable : Reachable registry view)
    {parts : List View} (follow : view.fields.mapM view.ofField = .ok parts) :
    ∀ part ∈ parts, Reachable registry part := by
  intro part member
  obtain ⟨index, atIndex⟩ := List.mem_iff_getElem?.mp member
  obtain ⟨field, found, followed, _⟩ := Outcome.getElem?_of_mapM follow atIndex
  exact reachable.field found followed

theorem schema_of_follow
    {registry : Registry} {part : Schema} {next : View}
    (followed : View.follow registry part = .ok next) :
    next.registry = registry ∧ (next.schema = part ∨ ∃ entry ∈ registry.entries,
      next.schema = entry.2) := by
  cases part with
  | placeholder kind name =>
      obtain ⟨schema, found, rfl⟩ := Outcome.map_eq_ok_iff.mp followed
      have member := Lookup.mem_of_lookup (schemaByName_eq_ok_iff.mp found)
      exact ⟨rfl, .inr ⟨(name, schema), member, rfl⟩⟩
  | _ =>
      cases followed
      exact ⟨rfl, .inl rfl⟩

/-- Whatever is reached is a node of a registered schema. -/
theorem Reachable.mem_nodes
    {registry : Registry} {view : View} (reachable : Reachable registry view) :
    view.registry = registry ∧ ∃ entry ∈ registry.entries, view.schema ∈ entry.2.nodes := by
  induction reachable with
  | @byName name view found =>
      obtain ⟨schema, known, rfl⟩ := Outcome.map_eq_ok_iff.mp found
      have member := Lookup.mem_of_lookup (schemaByName_eq_ok_iff.mp known)
      exact ⟨rfl, (name, schema), member, List.mem_cons_self⟩
  | byReference found =>
      obtain ⟨schema, known, rfl⟩ := Outcome.map_eq_ok_iff.mp found
      obtain ⟨entry, member, rfl, _⟩ := exists_entry_of_schemaByReference known
      exact ⟨rfl, entry, member, List.mem_cons_self⟩
  | step _ taken induction =>
      obtain ⟨sameRegistry, entry, member, inside⟩ := induction
      obtain ⟨part, below, followed⟩ := exists_part_of_step taken
      rw [sameRegistry] at followed
      obtain ⟨sameNext, same | ⟨other, memberOther, same⟩⟩ := schema_of_follow followed
      · rw [same]
        exact ⟨sameNext, entry, member, Schema.mem_nodes_of_mem_parts inside below⟩
      · rw [same]
        exact ⟨sameNext, other, memberOther, List.mem_cons_self⟩

/-- The fields of a linked view can all be followed. -/
theorem Linked.fields
    {view : View} (linked : view.Linked) :
    ∃ parts, view.fields.mapM view.ofField = .ok parts ∧ ∀ part ∈ parts, part.Linked := by
  have each : ∀ fields : List Field, (∀ field ∈ fields, field ∈ view.fields) →
      ∃ parts, fields.mapM view.ofField = .ok parts ∧ ∀ part ∈ parts, part.Linked := by
    intro fields among
    induction fields with
    | nil => exact ⟨[], rfl, nofun⟩
    | cons field fields induction =>
        obtain ⟨first, others⟩ := List.forall_mem_cons.mp among
        obtain ⟨parts, follow, linkedParts⟩ := induction others
        obtain ⟨part, followed, linkedPart⟩ :=
          linked.follow (Schema.mem_parts_of_mem_fields first)
        exact ⟨part :: parts,
          Outcome.mapM_cons_eq_ok_iff.mpr ⟨part, parts, followed, follow, rfl⟩,
          List.forall_mem_cons.mpr ⟨linkedPart, linkedParts⟩⟩
  exact each view.fields fun _ member => member

end View

end TypedObject
