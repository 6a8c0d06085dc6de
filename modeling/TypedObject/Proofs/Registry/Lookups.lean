import TypedObject.Proofs.Registry.Identifiers
import TypedObject.Proofs.View.Resolution

/-!
# Entries by name and by identifier

The name of an entry stands near the front of its encoding, behind two codes of a fixed
size, so entries of different names have different encodings, whatever is in them.  As
long as the digest does not confuse the encodings of one registry, every entry has an
identifier of its own, under which it is found and nothing else is.
-/

namespace TypedObject

/-- Schemas of one encoding have one name. -/
theorem Schema.name?_getD_eq_of_encode_eq
    {schema schema' : Schema} (fits : Wire.FitsText (schema.name?.getD ""))
    (fits' : Wire.FitsText (schema'.name?.getD "")) (same : schema.encode = schema'.encode) :
    schema.name?.getD "" = schema'.name?.getD "" := by
  simp only [encode_eq_written, RawNode.written, node, List.append_assoc] at same
  rw [← List.append_assoc, ← List.append_assoc (Wire.word schema'.toNode.referenceCode)] at same
  have codes := @Reader.Exact.unambiguous _ _ _ _ exact_readCodes
    (schema.toNode.reference?, schema.toNode.kind)
    (schema'.toNode.reference?, schema'.toNode.kind)
  obtain ⟨_, sameName⟩ := codes trivial trivial same
  rw [toNode_name, toNode_name] at sameName
  exact (Reader.exact_text.unambiguous fits fits' sameName).1

namespace Registry

open Entries

variable {registry : Registry}

theorem mem_names_iff {name : String} :
    name ∈ registry.names ↔ ∃ schema, (name, schema) ∈ registry.entries := by
  simp [names]

theorem viewByName_of_mem
    (distinct : registry.entries.Distinct) {name : String} {schema : Schema}
    (member : (name, schema) ∈ registry.entries) :
    registry.viewByName name = .ok ⟨registry, schema⟩ ∧
      registry.schemaReference name = .ok schema.identifier := by
  have found := distinct.lookup_eq_some_iff.mpr member
  exact ⟨Outcome.map_eq_ok_iff.mpr ⟨schema, View.schemaByName_eq_ok_iff.mpr found, rfl⟩,
    schemaReference_eq_ok_iff.mpr ⟨schema, found, rfl⟩⟩

/-- Entries of one identifier are one entry. -/
theorem NoCollision.entry_eq
    (noCollision : NoCollision registry registry) (returned : registry.Returned)
    (namesFit : ∀ name ∈ registry.names, Wire.FitsText name) {entry other : String × Schema}
    (member : entry ∈ registry.entries) (member' : other ∈ registry.entries)
    (same : entry.2.identifier = other.2.identifier) : entry = other := by
  have own (entry : String × Schema) (member : entry ∈ registry.entries) :
      entry.2.name?.getD "" = entry.1 := by
    rw [returned.own_names entry member]
    rfl
  have fits (entry : String × Schema) (member : entry ∈ registry.entries) :
      Wire.FitsText (entry.2.name?.getD "") := by
    rw [own entry member]
    exact namesFit entry.1 (List.mem_map_of_mem member)
  have sameName := Schema.name?_getD_eq_of_encode_eq (fits entry member) (fits other member')
    (noCollision entry member other member' same)
  rw [own entry member, own other member'] at sameName
  exact List.inj_on_of_nodup_map returned.registered.increasing.distinct member member' sameName

theorem viewByReference_eq_error_iff
    {reference : SchemaRef} {error : SchemaError} :
    registry.viewByReference reference = .error error ↔
      (∀ entry ∈ registry.entries, entry.2.identifier ≠ reference) ∧
        error = .missingSchemaRef reference := by
  unfold viewByReference schemaByReference
  split
  · rename_i entry found
    have member := List.mem_of_find?_eq_some found
    have identifier := List.find?_some found
    rw [decide_eq_true_eq] at identifier
    rw [iff_false_right fun missing => missing.1 entry member identifier]
    exact nofun
  · rename_i missing
    rw [List.find?_eq_none] at missing
    simp only [decide_eq_true_eq] at missing
    rw [and_iff_right missing]
    exact ⟨fun same => (Except.error.inj same).symm, fun same => by rw [same]; rfl⟩

/-- Under its identifier an entry is found and no other. -/
theorem NoCollision.viewByReference_of_mem
    (noCollision : NoCollision registry registry) (returned : registry.Returned)
    (namesFit : ∀ name ∈ registry.names, Wire.FitsText name) {name : String} {schema : Schema}
    (member : (name, schema) ∈ registry.entries) :
    registry.viewByReference schema.identifier = .ok ⟨registry, schema⟩ := by
  cases outcome : registry.viewByReference schema.identifier with
  | error error =>
      obtain ⟨missing, _⟩ := viewByReference_eq_error_iff.mp outcome
      exact absurd rfl (missing (name, schema) member)
  | ok view =>
      obtain ⟨found, known, rfl⟩ := Outcome.map_eq_ok_iff.mp outcome
      obtain ⟨entry, inside, rfl, identifier⟩ := View.exists_entry_of_schemaByReference known
      have sameEntry : entry = (name, schema) :=
        noCollision.entry_eq returned namesFit inside member identifier
      rw [sameEntry]

/-- Under its identifier an entry is found as under its name, and that is the identifier of
what is found.  No two names have one identifier, and an identifier of no entry is
missing. -/
theorem lookups_agree
    (returned : registry.Returned) (namesFit : ∀ name ∈ registry.names, Wire.FitsText name)
    (noCollision : NoCollision registry registry) :
    (∀ name ∈ registry.names, ∃ view reference,
      registry.viewByName name = .ok view ∧ registry.schemaReference name = .ok reference ∧
        registry.viewByReference reference = .ok view ∧ view.identifier = reference) ∧
    (∀ name ∈ registry.names, ∀ name' ∈ registry.names,
      registry.schemaReference name = registry.schemaReference name' → name = name') ∧
    ∀ reference, registry.viewByReference reference = .error (.missingSchemaRef reference) ↔
      ∀ name ∈ registry.names, registry.schemaReference name ≠ .ok reference := by
  have distinct := returned.registered.increasing.distinct
  refine ⟨?_, ?_, ?_⟩
  · intro name named
    obtain ⟨schema, member⟩ := mem_names_iff.mp named
    obtain ⟨byName, reference⟩ := viewByName_of_mem distinct member
    exact ⟨_, _, byName, reference,
      noCollision.viewByReference_of_mem returned namesFit member, rfl⟩
  · intro name named name' named' same
    obtain ⟨schema, member⟩ := mem_names_iff.mp named
    obtain ⟨schema', member'⟩ := mem_names_iff.mp named'
    rw [(viewByName_of_mem distinct member).2, (viewByName_of_mem distinct member').2,
      Except.ok.injEq] at same
    exact congrArg Prod.fst (noCollision.entry_eq returned namesFit member member' same)
  · intro reference
    rw [viewByReference_eq_error_iff, and_iff_left rfl]
    constructor
    · intro missing name named
      obtain ⟨schema, member⟩ := mem_names_iff.mp named
      rw [(viewByName_of_mem distinct member).2, ne_eq, Except.ok.injEq]
      exact missing (name, schema) member
    · intro missing entry member identifier
      apply missing entry.1 (List.mem_map_of_mem member)
      rw [(viewByName_of_mem distinct member).2, identifier]

/-- Parts are found under their identifier, and notes of another kind under none. -/
theorem lookups_itemRegistry :
    (∃ view reference, (itemRegistry .uint8 .uint8).viewByName "Part" = .ok view ∧
      (itemRegistry .uint8 .uint8).schemaReference "Part" = .ok reference ∧
        (itemRegistry .uint8 .uint8).viewByReference reference = .ok view ∧
          view.identifier = reference) ∧
    (itemRegistry .uint8 .uint8).schemaReference "Part" ≠
      (itemRegistry .uint8 .uint8).schemaReference "Note" ∧
    (itemRegistry .uint8 .uint8).viewByReference (numberSchema "Note" .uint16).identifier =
      .error (.missingSchemaRef (numberSchema "Note" .uint16).identifier) := by
  have returned : (itemRegistry .uint8 .uint8).Returned :=
    .inl ⟨_, _, .inl (declare_itemRegistry _ _)⟩
  have noCollision : NoCollision (itemRegistry .uint8 .uint8) (itemRegistry .uint8 .uint8) :=
    noCollision_of_nodup identifiers_itemSchemas (by decide) (by decide)
  obtain ⟨found, different, missing⟩ := lookups_agree returned (by decide) noCollision
  refine ⟨found "Part" (by decide), ?_, (missing _).mpr ?_⟩
  · exact fun same => absurd (different "Part" (by decide) "Note" (by decide) same) (by decide)
  · intro name named same
    obtain ⟨schema, known, identifier⟩ := schemaReference_eq_ok_iff.mp same
    have member : schema ∈ (itemRegistry .uint8 .uint8).entries.map (·.2) :=
      List.mem_map_of_mem (Lookup.mem_of_lookup known)
    have among : schema ∈ itemSchemas :=
      (by decide : ∀ schema ∈ (itemRegistry .uint8 .uint8).entries.map (·.2),
        schema ∈ itemSchemas) schema member
    have sameSchema := List.inj_on_of_nodup_map identifiers_itemSchemas among (by decide) identifier
    rw [sameSchema] at member
    exact absurd member (by decide)

end Registry

end TypedObject
