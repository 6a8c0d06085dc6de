import TypedObject.Proofs.Registry.Entries
import TypedObject.Proofs.Registry.Worklist
import TypedObject.Registry.Link

/-!
# Linking entries

Entries with different names fill an arena in their order, and what linking does to the
arena is read off under the names: the placeholders of the entries take the kinds of the
entries that they name, and linking fails for a name that no entry has.
-/

namespace TypedObject

theorem Arena.entries_eq
    {arena : Arena} {entries : Entries} (names : arena.byName = (entries.map (·.1)).zipIdx)
    (schemas : arena.schemas.map (·.shape) = entries.map (·.2)) : arena.entries = entries := by
  have found : ∀ numbered ∈ entries.zipIdx,
      (arena.schemas[numbered.2]?.map fun schema => (numbered.1.1, schema.shape)) =
        some numbered.1 := by
    intro numbered member
    obtain ⟨entry, slot⟩ := numbered
    have atSlot := List.mem_zipIdx_iff_getElem?.mp member
    have sameShape : arena.schemas[slot]?.map (·.shape) = some entry.2 := by
      rw [← List.getElem?_map, schemas, List.getElem?_map, atSlot]
      rfl
    obtain ⟨schema, present, shape⟩ := Option.map_eq_some_iff.mp sameShape
    rw [present, Option.map_some, shape]
  calc
    arena.entries = entries.zipIdx.filterMap fun numbered =>
        arena.schemas[numbered.2]?.map fun schema => (numbered.1.1, schema.shape) := by
      rw [Arena.entries, names, List.zipIdx_map, List.filterMap_map]
      rfl
    _ = entries.zipIdx.filterMap (some ∘ Prod.fst) := List.filterMap_congr found
    _ = entries := by rw [List.filterMap_eq_map, List.zipIdx_map_fst]

namespace Entries

variable {entries : Entries}

/-- The arena that the entries fill. -/
def arena (entries : Entries) : Arena :=
  ⟨entries.map fun entry => .ofSchema entry.2, (entries.map (·.1)).zipIdx⟩

theorem Distinct.lookup_arena
    (distinct : entries.Distinct) {name : String} {slot : Nat} :
    entries.arena.byName.lookup name = some slot ↔
      ∃ schema, entries[slot]? = some (name, schema) := by
  have different : (entries.arena.byName.map (·.1)).Nodup := by
    rw [arena, List.zipIdx_map_fst]
    exact distinct
  rw [Lookup.lookup_eq_some_iff different, arena, List.mem_zipIdx_iff_getElem?, List.getElem?_map]
  simp

theorem Distinct.addressed
    (distinct : entries.Distinct) : entries.arena.Addressed := by
  intro name slot found
  obtain ⟨schema, atSlot⟩ := distinct.lookup_arena.mp found
  rw [arena, List.length_map]
  exact (List.getElem?_eq_some_iff.mp atSlot).1

/-- The slot of a name is the place of its entry. -/
theorem Distinct.exists_slot
    (distinct : entries.Distinct) {name : String} {schema : Schema}
    (found : entries.lookup name = some schema) :
    ∃ slot, entries.arena.byName.lookup name = some slot ∧
      entries[slot]? = some (name, schema) := by
  obtain ⟨slot, atSlot⟩ := List.mem_iff_getElem?.mp (Lookup.mem_of_lookup found)
  exact ⟨slot, distinct.lookup_arena.mpr ⟨schema, atSlot⟩, atSlot⟩

theorem Distinct.lookup_arena_eq_none
    (distinct : entries.Distinct) {name : String} (absent : entries.lookup name = none) :
    entries.arena.byName.lookup name = none := by
  cases found : entries.arena.byName.lookup name with
  | none => rfl
  | some slot =>
      obtain ⟨schema, atSlot⟩ := distinct.lookup_arena.mp found
      rw [distinct.lookup_eq_some_iff.mpr (List.mem_of_getElem? atSlot)] at absent
      cases absent

theorem Distinct.isSome_lookup_arena
    (distinct : entries.Distinct) (name : String) :
    (entries.arena.byName.lookup name).isSome = (entries.lookup name).isSome := by
  cases found : entries.lookup name with
  | none => rw [distinct.lookup_arena_eq_none found]; rfl
  | some schema =>
      obtain ⟨slot, known, _⟩ := distinct.exists_slot found
      rw [known]
      rfl

theorem Distinct.kindOf?_arena
    (distinct : entries.Distinct) (name : String) :
    entries.arena.kindOf? name = entries.kindOf? name := by
  unfold Arena.kindOf? kindOf?
  cases found : entries.lookup name with
  | none => rw [distinct.lookup_arena_eq_none found]; rfl
  | some schema =>
      obtain ⟨slot, known, atSlot⟩ := distinct.exists_slot found
      rw [known]
      simp [Arena.kinds, arena, atSlot]

/-- Nothing is lost or refused when entries with different names fill the arena. -/
theorem Distinct.foldlM_insert
    {seen : Entries} (distinct : Distinct (seen ++ entries)) :
    entries.foldlM Arena.insert seen.arena = .ok (seen ++ entries).arena := by
  induction entries generalizing seen with
  | nil => rw [List.append_nil]; rfl
  | cons entry entries induction =>
      rw [List.append_cons] at distinct ⊢
      have inserted : Arena.insert seen.arena entry = .ok (seen ++ [entry]).arena := by
        obtain ⟨different, new⟩ := distinct_append_singleton_iff.mp distinct.left
        rw [Arena.insert, different.lookup_arena_eq_none new]
        simp [arena, List.zipIdx_append]
      rw [List.foldlM_cons, inserted]
      exact induction distinct

theorem Distinct.ofEntries_eq
    (distinct : entries.Distinct) : Arena.ofEntries entries = .ok entries.arena :=
  @Distinct.foldlM_insert entries [] distinct

theorem placeholders_ofSchema (schema : Schema) :
    (SlotSchema.ofSchema schema).placeholders.map (fun found => (found.kind, found.name)) =
      schema.placeholders := by
  rw [← SlotSchema.placeholders_shape, SlotSchema.shape_ofSchema]

theorem Distinct.known_iff
    (distinct : entries.Distinct) {schema : Schema} :
    entries.arena.Known (.ofSchema schema) ↔
      ∀ mention ∈ schema.placeholders, (entries.lookup mention.2).isSome := by
  rw [← placeholders_ofSchema, List.forall_mem_map]
  apply forall₂_congr
  intro found _
  rw [distinct.isSome_lookup_arena]

theorem Distinct.closed_arena_iff
    (distinct : entries.Distinct) : entries.arena.Closed ↔ entries.Closed := by
  rw [Arena.Closed, arena, List.forall_mem_map]
  exact forall₂_congr fun entry _ => distinct.known_iff

theorem Distinct.shape_resolved
    (distinct : entries.Distinct) (schema : Schema) :
    (SlotSchema.map entries.arena.resolved (.ofSchema schema)).shape =
      schema.relabel entries.kindOf? := by
  rw [SlotSchema.shape_map _ _, SlotSchema.shape_ofSchema]
  · exact fun _ => rfl
  · intro found
    rw [Arena.resolved, distinct.kindOf?_arena]

theorem Distinct.entries_settled
    (distinct : entries.Distinct) : entries.arena.settled.entries = entries.relabel := by
  apply Arena.entries_eq
  · rw [map_fst_relabel]
    rfl
  · change ((entries.map _).map _).map _ = _
    rw [Entries.relabel, List.map_map, List.map_map, List.map_map]
    apply List.map_congr_left
    intro entry _
    exact distinct.shape_resolved entry.2

/-- Entries are finalized exactly when every placeholder names an entry. -/
theorem Distinct.finalize_eq_ok_iff
    (distinct : entries.Distinct) {arena : Arena} :
    entries.finalize = .ok arena ↔ entries.Closed ∧ arena = entries.arena.settled := by
  rw [finalize, distinct.ofEntries_eq]
  exact (Arena.link_eq_ok_iff distinct.addressed).trans (and_congr_left' distinct.closed_arena_iff)

/-- Some placeholder has the name, and no entry does. -/
def Dangling (entries : Entries) (name : String) : Prop :=
  (∃ entry ∈ entries, ∃ kind, .placeholder kind name ∈ entry.2.nodes) ∧
    ∀ entry ∈ entries, entry.1 ≠ name

theorem closed_iff_not_dangling : entries.Closed ↔ ¬∃ name, entries.Dangling name := by
  constructor
  · intro closed dangling
    obtain ⟨name, ⟨entry, member, kind, inside⟩, absent⟩ := dangling
    have known := closed entry member (kind, name) (Schema.mem_placeholders_iff.mpr inside)
    obtain ⟨schema, found⟩ := Option.isSome_iff_exists.mp known
    exact absent _ (Lookup.mem_of_lookup found) rfl
  · intro none entry member mention inside
    by_contra unknown
    apply none
    refine ⟨mention.2, ⟨entry, member, mention.1, Schema.mem_placeholders_iff.mp inside⟩, ?_⟩
    intro target within same
    rw [Bool.not_eq_true, Option.isSome_eq_false_iff, Option.isNone_iff_eq_none,
      List.lookup_eq_none_iff] at unknown
    simpa [same] using unknown target within

theorem Distinct.finalize_eq_error
    (distinct : entries.Distinct) {error : SchemaError}
    (failed : entries.finalize = .error error) :
    ∃ name, error = .missingSchema name ∧ entries.Dangling name := by
  rw [finalize, distinct.ofEntries_eq] at failed
  obtain ⟨name, rfl, ⟨schema, member, found, inside, rfl⟩, absent⟩ :=
    Arena.dangling_of_link_eq_error distinct.addressed failed
  refine ⟨found.name, rfl, ?_⟩
  obtain ⟨entry, within, rfl⟩ := List.mem_map.mp member
  have mentioned : (found.kind, found.name) ∈ entry.2.placeholders := by
    rw [← placeholders_ofSchema]
    exact List.mem_map_of_mem inside
  refine ⟨⟨entry, within, found.kind, Schema.mem_placeholders_iff.mp mentioned⟩, ?_⟩
  intro other memberOther same
  have unknown := distinct.isSome_lookup_arena found.name
  rw [absent, ← same, distinct.lookup_eq_some_iff.mpr memberOther] at unknown
  cases unknown

theorem Distinct.link_eq_ok_iff
    (distinct : entries.Distinct) {types? : Option (List (TypeExpr × String))}
    {registry : Registry} :
    entries.link types? = .ok registry ↔
      entries.Closed ∧ registry = ⟨entries.relabel.sorted, types?⟩ := by
  rw [link, Outcome.map_eq_ok_iff]
  simp only [distinct.finalize_eq_ok_iff, and_assoc, exists_and_left, exists_eq_left,
    Arena.registry, distinct.entries_settled, eq_comm]

/-- Linked entries in the order of their names are linked as they are. -/
theorem Increasing.link_eq_ok
    (increasing : entries.Increasing) (linked : entries.Linked)
    (types? : Option (List (TypeExpr × String))) :
    entries.link types? = .ok ⟨entries, types?⟩ := by
  have canonical := (relabel_sorted_eq_self_iff linked.closed increasing.distinct).mpr
    ⟨increasing, linked⟩
  refine increasing.distinct.link_eq_ok_iff.mpr ⟨linked.closed, ?_⟩
  rw [canonical]

/-- What linking makes of entries that hold schemas in full. -/
theorem Distinct.registered_of_link
    (distinct : entries.Distinct) (full : entries.Full)
    {types? : Option (List (TypeExpr × String))} {registry : Registry}
    (accepted : entries.link types? = .ok registry) : registry.entries.Registered := by
  obtain ⟨closed, rfl⟩ := distinct.link_eq_ok_iff.mp accepted
  have sameEntries := entries.relabel.perm_sorted.symm
  constructor
  · exact distinct.relabel.increasing_sorted
  · intro entry member
    exact full.relabel entry (sameEntries.mem_iff.mpr member)
  · exact (closed.linked_relabel full).perm distinct.relabel sameEntries

end Entries

end TypedObject
