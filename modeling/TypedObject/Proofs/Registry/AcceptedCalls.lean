import TypedObject.Proofs.Registry.RegistrationOrder

/-!
# The entries of a declared registry

A declared registry holds an entry for every call that was accepted and no other.
The entry of a call is the schema that was built for its type, in which linking has
only changed the kinds of placeholders.
-/

namespace TypedObject.Registry

open Entries

/-- Linking has made the entry from a schema that was built for the type. -/
def Holds (registry : Registry) (registrar : Registrar) (type : TypeExpr) (name : String) : Prop :=
  ∃ schema kindOf, registrar.Describes type schema ∧
    (name, schema.relabel kindOf) ∈ registry.entries

/-- The registry is what was made of a registrar. -/
structure MadeFrom (registry : Registry) (registrar : Registrar) : Prop where
  types : registry.types? = some registrar.entries
  consistent : registrar.Consistent
  holds : ∀ call ∈ registrar.entries, registry.Holds registrar call.1 call.2
  described : ∀ entry ∈ registry.entries, ∃ type schema kindOf,
    (type, entry.1) ∈ registrar.entries ∧ registrar.Describes type schema ∧
      entry.2 = schema.relabel kindOf

theorem madeFrom_of_declare
    {declarations : Declarations} {calls : List (TypeExpr × String)} {registry : Registry}
    (declared : declare declarations calls = .ok registry) :
    registry.MadeFrom ⟨declarations, calls⟩ := by
  have types := types?_of_declare declared
  obtain ⟨consistent, entries, built, linked⟩ := declare_eq_ok_iff.mp declared
  obtain ⟨names, described⟩ := entriesOf_eq_ok built fun _ member => member
  have distinct : entries.Distinct := by
    rw [Distinct, names]
    exact consistent.names_distinct
  obtain ⟨_, rfl⟩ := distinct.link_eq_ok_iff.mp linked
  have linkedEntry : ∀ entry, entry ∈ entries.relabel.sorted ↔
      ∃ before ∈ entries, (before.1, before.2.relabel entries.kindOf?) = entry := by
    intro entry
    rw [entries.relabel.perm_sorted.mem_iff]
    exact List.mem_map
  refine ⟨types, consistent, ?_, ?_⟩
  · intro call member
    have named : call.2 ∈ entries.map (·.1) := by
      rw [names]
      exact List.mem_map_of_mem member
    obtain ⟨entry, inside, sameName⟩ := List.mem_map.mp named
    obtain ⟨type, among, describes⟩ := described entry inside
    have sameCall : (type, entry.1) = call :=
      List.inj_on_of_nodup_map consistent.names_distinct among member sameName
    cases sameCall
    exact ⟨entry.2, entries.kindOf?, describes, (linkedEntry _).mpr ⟨entry, inside, rfl⟩⟩
  · intro entry member
    obtain ⟨before, inside, rfl⟩ := (linkedEntry entry).mp member
    obtain ⟨type, among, describes⟩ := described before inside
    exact ⟨type, before.2, entries.kindOf?, among, describes, rfl⟩

theorem DeclaredBy.exists_madeFrom
    {declarations : Declarations} {calls : List (TypeExpr × String)} {registry : Registry}
    (declared : DeclaredBy declarations calls registry) :
    ∃ accepted, accepted.Sublist calls ∧ registry.MadeFrom ⟨declarations, accepted⟩ := by
  obtain ⟨accepted, inside, declaredAll⟩ := declared.exists_declare
  exact ⟨accepted, inside, madeFrom_of_declare declaredAll⟩

end TypedObject.Registry
