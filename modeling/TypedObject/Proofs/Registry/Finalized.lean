import TypedObject.Proofs.View.Reachable

/-!
# The arena of a registry

Every registry that is returned was finalized in an arena.  There every placeholder holds
the slot of its name, the schema in that slot has its name and kind, and the registry has
under each name what the arena has in the slot.
-/

namespace TypedObject

namespace Arena

/-- The placeholder holds the slot of its name, and the schema there has its name and kind. -/
structure Leads (arena : Arena) (found : Placeholder) (slot : Nat) (target : SlotSchema) :
    Prop where
  holds : found.slot? = some slot
  byName : arena.byName.lookup found.name = some slot
  present : arena.schemas[slot]? = some target
  name : target.shape.name? = some found.name
  kind : target.shape.kind = found.kind

/-- The placeholder leads somewhere. -/
def Resolves (arena : Arena) (found : Placeholder) : Prop :=
  ∃ slot target, arena.Leads found slot target

/-- No schema only stands for another, and every placeholder leads to the schema that it
stands for. -/
structure Resolved (arena : Arena) : Prop where
  distinct : (arena.byName.map (·.1)).Nodup
  named : ∀ slot schema, arena.schemas[slot]? = some schema →
    ∃ name, arena.byName.lookup name = some slot
  full : ∀ schema ∈ arena.schemas, schema.shape.isPlaceholder = false
  resolves : ∀ schema ∈ arena.schemas, ∀ found ∈ schema.placeholders, arena.Resolves found

theorem mem_entries_iff
    {arena : Arena} (distinct : (arena.byName.map (·.1)).Nodup) {name : String}
    {schema : Schema} :
    (name, schema) ∈ arena.entries ↔
      ∃ slot target, arena.byName.lookup name = some slot ∧
        arena.schemas[slot]? = some target ∧ target.shape = schema := by
  unfold entries
  rw [List.mem_filterMap]
  constructor
  · intro found
    obtain ⟨⟨key, slot⟩, member, made⟩ := found
    obtain ⟨target, present, same⟩ := Option.map_eq_some_iff.mp made
    cases same
    exact ⟨slot, target, (Lookup.lookup_eq_some_iff distinct).mpr member, present, rfl⟩
  · intro found
    obtain ⟨slot, target, known, present, rfl⟩ := found
    exact ⟨(name, slot), Lookup.mem_of_lookup known, by rw [present]; rfl⟩

theorem distinct_entries
    {arena : Arena} (distinct : (arena.byName.map (·.1)).Nodup) : arena.entries.Distinct := by
  unfold Entries.Distinct entries
  rw [List.Nodup, List.pairwise_map, List.pairwise_filterMap]
  apply (List.pairwise_map.mp distinct).imp
  intro first later unequal entry made entry' made'
  obtain ⟨_, _, rfl⟩ := Option.map_eq_some_iff.mp made
  obtain ⟨_, _, rfl⟩ := Option.map_eq_some_iff.mp made'
  exact unequal

/-- The registry finds under a name what the arena has in the slot of the name. -/
theorem schema?_registry
    {arena : Arena} (distinct : (arena.byName.map (·.1)).Nodup)
    (types? : Option (List (TypeExpr × String))) (name : String) :
    (arena.registry types?).schema? name =
      ((arena.byName.lookup name).bind fun slot => arena.schemas[slot]?).map (·.shape) := by
  have sortedDistinct := (distinct_entries distinct).perm arena.entries.perm_sorted.symm
  apply Option.ext
  intro schema
  change arena.entries.sorted.lookup name = some schema ↔ _
  rw [sortedDistinct.lookup_eq_some_iff, arena.entries.perm_sorted.mem_iff,
    mem_entries_iff distinct]
  simp only [Option.map_eq_some_iff, Option.bind_eq_some_iff]
  constructor
  · intro found
    obtain ⟨slot, target, known, present, same⟩ := found
    exact ⟨target, ⟨slot, known, present⟩, same⟩
  · intro found
    obtain ⟨target, ⟨slot, known, present⟩, same⟩ := found
    exact ⟨slot, target, known, present, same⟩

theorem schemaByName_registry
    {arena : Arena} (distinct : (arena.byName.map (·.1)).Nodup) {name : String} {slot : Nat}
    {schema : SlotSchema} (known : arena.byName.lookup name = some slot)
    (present : arena.schemas[slot]? = some schema) (types? : Option (List (TypeExpr × String))) :
    (arena.registry types?).schemaByName name = .ok schema.shape := by
  rw [Registry.schemaByName, schema?_registry distinct, known, Option.bind_some, present]
  rfl

end Arena

namespace Entries

variable {entries : Entries}

theorem getElem?_settled (entries : Entries) (slot : Nat) :
    entries.arena.settled.schemas[slot]? = entries[slot]?.map fun entry =>
      (SlotSchema.ofSchema entry.2).map entries.arena.resolved := by
  simp [Arena.settled, arena, Function.comp_def]

private theorem Distinct.resolves_resolved
    (distinct : entries.Distinct) (full : entries.Full)
    (ownNames : ∀ entry ∈ entries, entry.2.name? = some entry.1) {found : Placeholder}
    (known : (entries.arena.byName.lookup found.name).isSome) :
    entries.arena.settled.Resolves (entries.arena.resolved found) := by
  obtain ⟨slot, address⟩ := Option.isSome_iff_exists.mp known
  obtain ⟨target, atSlot⟩ := distinct.lookup_arena.mp address
  have member := List.mem_of_getElem? atSlot
  have kind : entries.kindOf? found.name = some target.kind := by
    rw [kindOf?, distinct.lookup_eq_some_iff.mpr member]
    rfl
  refine ⟨slot, (SlotSchema.ofSchema target).map entries.arena.resolved, address, address, ?_, ?_,
    ?_⟩
  · rw [getElem?_settled, atSlot]
    rfl
  · rw [distinct.shape_resolved, Schema.name?_relabel]
    exact ownNames _ member
  · rw [distinct.shape_resolved, Schema.kind_relabel (full _ member), Arena.resolved,
      distinct.kindOf?_arena, kind]
    rfl

/-- Entries that are finalized have every placeholder resolved. -/
theorem Distinct.resolved_of_finalize
    (distinct : entries.Distinct) (full : entries.Full)
    (ownNames : ∀ entry ∈ entries, entry.2.name? = some entry.1) {arena : Arena}
    (finalized : entries.finalize = .ok arena) : arena.Resolved := by
  obtain ⟨closed, rfl⟩ := distinct.finalize_eq_ok_iff.mp finalized
  have fromEntry : ∀ schema ∈ entries.arena.settled.schemas, ∃ entry ∈ entries,
      schema = (SlotSchema.ofSchema entry.2).map entries.arena.resolved := by
    intro schema member
    obtain ⟨slot, present⟩ := List.mem_iff_getElem?.mp member
    rw [getElem?_settled] at present
    obtain ⟨entry, atSlot, rfl⟩ := Option.map_eq_some_iff.mp present
    exact ⟨entry, List.mem_of_getElem? atSlot, rfl⟩
  constructor
  · change (entries.map (·.1)).zipIdx.map _ |>.Nodup
    rw [List.zipIdx_map_fst]
    exact distinct
  · intro slot schema present
    rw [getElem?_settled] at present
    obtain ⟨entry, atSlot, _⟩ := Option.map_eq_some_iff.mp present
    exact ⟨entry.1, distinct.lookup_arena.mpr ⟨entry.2, atSlot⟩⟩
  · intro schema member
    obtain ⟨entry, within, rfl⟩ := fromEntry schema member
    rw [distinct.shape_resolved, Schema.isPlaceholder_relabel]
    exact full entry within
  · intro schema member found inside
    obtain ⟨entry, within, rfl⟩ := fromEntry schema member
    rw [SlotSchema.placeholders_map] at inside
    obtain ⟨before, mentioned, rfl⟩ := List.mem_map.mp inside
    apply distinct.resolves_resolved full ownNames
    exact distinct.closed_arena_iff.mpr closed _ (List.mem_map_of_mem within) before mentioned

end Entries

namespace Registry

open Entries

/-- The registry holds what is in the arena, which was linked with the entries that were
declared or read. -/
inductive FinalizedIn : Registry → Arena → Prop where
  | declared {declarations : Declarations} {calls : List (TypeExpr × String)}
      {registrar : Registrar} {entries : Entries} {arena : Arena}
      (accepted : (Registrar.empty declarations).registerAll calls = .ok registrar)
      (built : entriesOf registrar registrar.entries = .ok entries)
      (finalized : entries.finalize = .ok arena) :
      FinalizedIn (arena.registry (some registrar.entries)) arena
  | decoded {bytes : Bytes} {entries : Entries} {arena : Arena}
      (read : Reader.whole readAll bytes = .ok entries)
      (finalized : entries.finalize = .ok arena)
      (canonical : (arena.registry none).encode = bytes) :
      FinalizedIn (arena.registry none) arena

variable {registry : Registry} {arena : Arena}

theorem FinalizedIn.eq_registry
    (finalizedIn : registry.FinalizedIn arena) : registry = arena.registry registry.types? := by
  cases finalizedIn with
  | declared => rfl
  | decoded => rfl

theorem FinalizedIn.resolved
    (finalizedIn : registry.FinalizedIn arena) : arena.Resolved := by
  cases finalizedIn with
  | declared accepted built finalized =>
      obtain ⟨consistent, rfl⟩ :=
        Registrar.registerAll_eq_ok accepted (Registrar.consistent_empty _)
      obtain ⟨names, described⟩ := entriesOf_eq_ok built fun _ member => member
      apply Distinct.resolved_of_finalize _ _ _ finalized
      · rw [Distinct, names]
        exact consistent.names_distinct
      · exact fun entry member => (described entry member).full
      · exact fun entry member => (described entry member).own_name consistent
  | decoded read finalized canonical =>
      obtain ⟨readable, _⟩ := whole_readAll_eq_ok_iff.mp read
      apply readable.distinct.resolved_of_finalize _ _ finalized
      · exact fun entry member => (readable.formed entry member).full
      · exact fun entry member => (readable.formed entry member).own_name

theorem Returned.exists_arena
    (returned : registry.Returned) : ∃ arena, registry.FinalizedIn arena := by
  rcases returned with ⟨declarations, calls, declared⟩ | ⟨bytes, decoded⟩
  · obtain ⟨accepted, _, declaredAll⟩ := declared.exists_declare
    obtain ⟨registrar, registered, continued⟩ := Outcome.bind_eq_ok_iff.mp declaredAll
    obtain ⟨entries, built, linked⟩ := Outcome.bind_eq_ok_iff.mp continued
    obtain ⟨arena, finalized, rfl⟩ := Outcome.map_eq_ok_iff.mp linked
    exact ⟨arena, .declared registered built finalized⟩
  · obtain ⟨entries, read, continued⟩ := Outcome.bind_eq_ok_iff.mp decoded
    obtain ⟨found, linked, checked⟩ := Outcome.bind_eq_ok_iff.mp continued
    obtain ⟨arena, finalized, rfl⟩ := Outcome.map_eq_ok_iff.mp linked
    split at checked
    · rename_i same
      cases checked
      exact ⟨arena, .decoded read finalized same⟩
    · cases checked

end Registry

end TypedObject
